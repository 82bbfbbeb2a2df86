import MsnGuard.SerialWrites
import MsnGuard.SmartDnsResolver
import MsnGuard.SmartDnsFront

/-!
# DNS over a stream

On a connection the queries follow one another. Some answers are written by the thread that
reads the queries, the others by the workers that got them, each in several calls that know
nothing of the others.
-/

namespace MsnGuard.SmartDnsStreams

open RustText SmartDnsMessages SmartDnsPackets SmartDnsFront List Option
open TransitionRuns FiniteTables SerialWrites
open DohResponses (maxMessageBytes)
open OctetsVarint (beBytes beBytes_length)

/-- A message with its length. -/
def frame (message : Bytes) : Bytes := beBytes 2 message.length++message

/-- The calls that write a message: the length byte by byte, the message, and the end. -/
def writeTcpDns (message : Bytes) : List Bytes :=
  [[UInt8.ofNat (message.length / 256)],[UInt8.ofNat message.length],message,[]]

/-- What an event hands to whoever asked. -/
def reply? : SmartDnsFront.Event → Option Bytes
  | .replied _ reply => some reply
  | .hit _ _ reply => some reply
  | .relayed _ response => some response
  | .refused query => some (servfailResponse query)
  | .asked _ | .learned _ _ _ => none

/-- A connection of the front. -/
structure Connection where
  front : Front
  /-- What the client gets, and who writes it. -/
  output : Output UInt8
  /-- How many answers there have been. -/
  nextWriter : ℕ
  /-- The answer that the thread of the connection has to write. -/
  reader : Option ℕ
  /-- The queries of the connection that got a worker. -/
  mine : List ℕ
  /-- Does every call fail? -/
  broken : Bool

/-- What can be seen of a connection. -/
inductive Event where
  /-- An answer is there to be written. -/
  | answer (message : Bytes)
  /-- The last call for an answer is done. -/
  | wrote (bytes : Bytes)
  deriving DecidableEq

/-- What may happen next. -/
inductive Action where
  /-- A query comes in on the connection. -/
  | query (egressV4Only : Bool) (bytes : Bytes)
  /-- The front goes on, for this connection or for others. -/
  | front (a : SmartDnsFront.Action)
  /-- The next call for an answer. -/
  | write (x : ℕ)
  /-- The client is gone. -/
  | breaks

namespace Connection

/-- A connection of a front that has just been started. -/
def new : Connection := ⟨.new,⟨[],∅⟩,0,none,[],false⟩

/-- An answer gets a writer. -/
def send (c : Connection) : Option Bytes → Connection × List Event
  | none => (c,[])
  | some message =>
    ({c with
      output := c.output.give c.nextWriter (writeTcpDns message)
      nextWriter := c.nextWriter+1},[.answer message])

/-- Does the thread of the connection read, having nothing to write? -/
def reading (c : Connection) : Bool := (c.reader.bind c.output.writers.lookup).isNone

/-- The front has looked at a query of the connection. A reply at once is for the thread of
the connection to write; the query has a worker if there is a new one. -/
def queried (c : Connection) (f : Front) (reply : Option Bytes) : Connection :=
  {c with
    front := f
    reader := reply.map fun _ => c.nextWriter
    mine := if f.nextTask=c.front.nextTask then c.mine else c.front.nextTask::c.mine}

/-- A query comes in, and its length is within bounds. -/
def query (c : Connection) (egressV4Only : Bool) (bytes : Bytes) :
    Option (Connection × List Event) :=
  if bytes=[] ∨ udpBuffer<bytes.length ∨ c.reading=false then none
  else
    let handled := c.front.handleDnsQuery egressV4Only bytes
    let reply := handled.2.findSome? reply?
    some ((c.queried handled.1 reply).send reply)

/-- The worker that a step of the front lets finish. -/
def worker : SmartDnsFront.Action → Option ℕ
  | .receive x => some x
  | .resolved x _ => some x
  | _ => none

/-- A step of the front. The answer to a query of the connection is written on it. -/
def answered (c : Connection) (encrypted : Bool) (a : SmartDnsFront.Action) :
    Option (Connection × List Event) :=
  (c.front.exec encrypted a).map fun (f,events) =>
    if (worker a).any c.mine.contains then {c with front := f}.send (events.findSome? reply?)
    else ({c with front := f},[])

/-- The next call for an answer. If it fails there are no more. -/
def write (c : Connection) (x : ℕ) : Option (Connection × List Event) :=
  if c.broken then
    (c.output.writers.lookup x).map fun _ =>
      ({c with output := {c.output with writers := c.output.writers.erase x}},[])
  else (c.output.write x).map fun (output,finished) =>
    ({c with output := output},finished.toList.map .wrote)

/-- One step. -/
def exec (encrypted : Bool) (c : Connection) : Action → Option (Connection × List Event)
  | .query egressV4Only bytes => c.query egressV4Only bytes
  | .front a => c.answered encrypted a
  | .write x => c.write x
  | .breaks => some ({c with broken := true},[])

end Connection

/-- Queries come out of a buffer, and the encrypted resolvers have their longest message. -/
def bounded : Action → Bool
  | .front (.query _ bytes) => decide (bytes.length≤udpBuffer)
  | .front (.resolved _ answer) =>
    answer.all fun message => decide (message.length ≤ maxMessageBytes)
  | _ => true

/-- A connection with its queries and answers in any order. -/
def machine (encrypted : Bool) : Machine Connection Action Event where
  start c := c=.new
  allowed _ a := bounded a=true
  exec := Connection.exec encrypted

/-- An answer is begun only while no other answer of the connection is half written. -/
def uninterrupted (c : Connection) : Action → Bool
  | .write x => c.output.free x
  | _ => true

/-- An answer that a length of two bytes can stand for. -/
def Given (t : List Event) (message : Bytes) : Prop :=
  .answer message∈t ∧ message.length<65536

/-- The client has got whole answers, and then at most a part of one more. If no answer is
half written and the client is there, there is no such part. -/
def Unmixed (t : List Event) (c : Connection) : Prop :=
  ∃ (answers : List Bytes) (part : Bytes), c.output.sent=(answers.map frame).flatten++part ∧
    (∀ message∈answers, Given t message) ∧
    (part=[] ∨ ∃ message, Given t message ∧ part <+: frame message) ∧
    (c.broken=false → (∀ x w, c.output.writers.lookup x=some w → w.done=[]) → part=[])

theorem writeTcpDns_flatten (message : Bytes) : (writeTcpDns message).flatten=frame message := by
  simp [writeTcpDns,frame,beBytes]

/-- The queries of the workers came out of a buffer. -/
def Short (f : Front) : Prop :=
  ∀ x task, f.tasks.lookup x=some task → task.query.length≤udpBuffer

/-- What an event hands over is no longer than the longest message. -/
def ShortReply (ev : SmartDnsFront.Event) : Prop :=
  ∀ message, reply? ev=some message → message.length ≤ maxMessageBytes

section Lengths

variable {f f' : Front} {query name response : Bytes}
variable {x : ℕ} {task : Task} {events : List SmartDnsFront.Event}

theorem nodataAnswer_length (query : Bytes) : (nodataAnswer query).length≤query.length+8 := by
  simp only [nodataAnswer,length_append,length_take,length_drop,length_cons,
    length_nil]
  omega

theorem aAnswer_length_le (query address : Bytes) (ttl : BitVec 32) :
    (aAnswer query address ttl).length≤query.length+28 := by
  simp only [aAnswer,length_append,length_take,length_drop,length_cons,
    length_nil,beBytes_length]
  omega

theorem restoreId_length_le (query response : Bytes) :
    (restoreId query response).length≤2+response.length := by
  simp only [restoreId,length_append,length_take,length_drop]
  omega

theorem decapsulate_length_le {datagram : Bytes} (h : decapsulate datagram=some response) :
    response.length≤datagram.length := by
  unfold decapsulate at h
  split at h
  · cases h
  split_ifs at h
  obtain ⟨n,-,hdrop⟩ := bind_eq_some_iff.mp h
  split_ifs at hdrop
  cases hdrop
  rw [length_drop]
  omega

theorem udpBuffer_le : udpBuffer+28 ≤ maxMessageBytes := by decide

/-- Without new work the queries stay short. -/
theorem Short.mono (h : Short f)
    (htasks : ∀ x task, f'.tasks.lookup x=some task → f.tasks.lookup x=some task) : Short f' :=
  fun x task hx => h x task (htasks x task hx)

theorem Short.enqueue (h : Short f) (hquery : query.length≤udpBuffer) (type : ℕ) :
    Short (f.enqueue query name type) := by
  intro x task hx
  rw [Front.enqueue,lookup_insert_eq] at hx
  split at hx
  · cases hx
    exact hquery
  · exact h x task hx

theorem Short.answerOrAsk (h : Short f) (hquery : query.length≤udpBuffer) (type : ℕ) :
    Short (f.answerOrAsk query name type).1 ∧
      ∀ ev∈(f.answerOrAsk query name type).2, ShortReply ev := by
  unfold Front.answerOrAsk
  split
  · rename_i cached _
    split
    · refine ⟨h,fun ev hev => ?_⟩
      rw [mem_singleton.mp hev]
      rintro message ⟨⟩
      have hlength := aAnswer_length_le query cached.address cached.ttlSeconds
      have hbound := udpBuffer_le
      omega
    · exact ⟨h.enqueue hquery type,by simp⟩
  · exact ⟨h.enqueue hquery type,by simp⟩

theorem shortReply_nodataAnswer (hquery : query.length≤udpBuffer) :
    ShortReply (.replied query (nodataAnswer query)) := by
  rintro message ⟨⟩
  have hlength := nodataAnswer_length query
  have hbound := udpBuffer_le
  omega

section

variable (h : Short f)

include h

theorem Short.byPolicy (hquery : query.length≤udpBuffer) (egressV4Only : Bool)
    (type : ℕ) : Short (f.byPolicy egressV4Only query name type).1 ∧
      ∀ ev∈(f.byPolicy egressV4Only query name type).2, ShortReply ev := by
  unfold Front.byPolicy
  split
  · refine ⟨h,fun ev hev => ?_⟩
    rw [mem_singleton.mp hev]
    exact shortReply_nodataAnswer hquery
  · exact h.answerOrAsk hquery type

theorem Short.handleDnsQuery (egressV4Only : Bool)
    (hquery : query.length≤udpBuffer) :
    Short (f.handleDnsQuery egressV4Only query).1 ∧
      ∀ ev∈(f.handleDnsQuery egressV4Only query).2, ShortReply ev := by
  unfold Front.handleDnsQuery
  split
  · exact ⟨h,by simp⟩
  split
  · exact ⟨h,by simp⟩
  dsimp only
  split
  · split
    · refine ⟨h,fun ev hev => ?_⟩
      rw [mem_singleton.mp hev]
      exact shortReply_nodataAnswer hquery
    · exact Short.byPolicy (by exact h) hquery egressV4Only _
  · exact h.byPolicy hquery egressV4Only _

/-- A response is handed over as it is. -/
theorem Short.deliver (task : Task) (hresponse : response.length ≤ maxMessageBytes) :
    Short (f.deliver task response).1 ∧ ∀ ev∈(f.deliver task response).2, ShortReply ev := by
  have hrelayed : ShortReply (.relayed task.query response) := by
    rintro message ⟨⟩
    exact hresponse
  unfold Front.deliver
  split
  · unfold Front.learn
    cases parseFirstA response with
    | none =>
      refine ⟨h,fun ev hev => ?_⟩
      rw [mem_singleton.mp hev]
      exact hrelayed
    | some parsed =>
      refine ⟨h,fun ev hev => ?_⟩
      rcases mem_cons.mp hev with rfl | hlast
      · rintro message ⟨⟩
      · rw [mem_singleton.mp hlast]
        exact hrelayed
  · refine ⟨h,fun ev hev => ?_⟩
    rw [mem_singleton.mp hev]
    exact hrelayed

theorem Short.finish (x : ℕ) : Short (f.finish x) :=
  h.mono fun _ _ hy => lookup_of_erase hy

theorem Short.receive (hreceive : f.receive x task=some (f',events)) :
    Short f' ∧ ∀ ev∈events, ShortReply ev := by
  unfold Front.receive at hreceive
  split at hreceive
  · cases hreceive
  rename_i datagram rest _
  have htaken : Short ({f with buffer := rest}.finish x) := Short.finish (by exact h) x
  split at hreceive
  · cases hreceive
    exact ⟨htaken,by simp⟩
  rename_i response hresponse
  split at hreceive
  · cases hreceive
    exact ⟨htaken,by simp⟩
  have hlength : (restoreId task.query response).length ≤ maxMessageBytes := by
    have hrestored := restoreId_length_le task.query response
    have hcontents := decapsulate_length_le hresponse
    rw [length_take] at hcontents
    have hbound := udpBuffer_le
    omega
  have hdelivered := htaken.deliver task hlength
  rwa [some_inj.mp hreceive] at hdelivered

theorem Short.resolved (hx : f.tasks.lookup x=some task) {answer : Option Bytes}
    (hanswer : ∀ message∈answer, message.length ≤ maxMessageBytes) :
    Short (f.resolved x task answer).1 ∧ ∀ ev∈(f.resolved x task answer).2, ShortReply ev := by
  cases answer with
  | none =>
    refine ⟨h.finish x,fun ev hev => ?_⟩
    rw [mem_singleton.mp hev]
    rintro message ⟨⟩
    have hlength := buildResponse_length_le task.query 2
    have hquery := h x task hx
    have hbound := udpBuffer_le
    unfold servfailResponse
    omega
  | some message => exact (h.finish x).deliver task (hanswer message rfl)

theorem Short.ask (hx : f.tasks.lookup x=some task) (opened sent : Bool) :
    Short (f.ask x task opened sent).1 ∧ ∀ ev∈(f.ask x task opened sent).2, ShortReply ev := by
  cases opened with
  | false => exact ⟨h.finish x,by simp [Front.ask]⟩
  | true =>
    cases sent with
    | false => exact ⟨Short.finish (by exact h) x,by simp [Front.ask]⟩
    | true =>
      refine ⟨fun y other hy => ?_,fun ev hev => ?_⟩
      · rw [Front.ask,if_pos rfl,if_pos rfl,lookup_insert_eq] at hy
        split at hy
        · cases hy
          exact h x task hx
        · exact h y other hy
      · rw [mem_singleton.mp hev]
        rintro message ⟨⟩

/-- The front keeps the queries short, and hands over short messages. -/
theorem Short.exec {encrypted : Bool} {a : SmartDnsFront.Action}
    (hbound : bounded (.front a)=true) (hexec : f.exec encrypted a=some (f',events)) :
    Short f' ∧ ∀ ev∈events, ShortReply ev := by
  cases a with
  | advance _ | arrive _ _ | lose _ | close | clear =>
    cases hexec
    exact ⟨h,by simp⟩
  | query egressV4Only bytes =>
    have hquery := h.handleDnsQuery egressV4Only (of_decide_eq_true hbound)
    rwa [some_inj.mp hexec] at hquery
  | ask x opened sent =>
    obtain ⟨task,hlookup,hask⟩ := bind_eq_some_iff.mp hexec
    split_ifs at hask
    have hasked := h.ask hlookup opened sent
    rwa [some_inj.mp hask] at hasked
  | receive x =>
    obtain ⟨task,-,hreceive⟩ := bind_eq_some_iff.mp hexec
    split_ifs at hreceive
    exact h.receive hreceive
  | expire x =>
    obtain ⟨task,-,hexpire⟩ := bind_eq_some_iff.mp hexec
    split_ifs at hexpire
    cases hexpire
    exact ⟨h.finish x,by simp⟩
  | resolved x answer =>
    obtain ⟨task,hlookup,hresolved⟩ := bind_eq_some_iff.mp hexec
    split_ifs at hresolved
    have hanswer : ∀ message∈answer, message.length ≤ maxMessageBytes := by
      rintro message rfl
      exact of_decide_eq_true hbound
    have hdone := h.resolved hlookup hanswer
    rwa [some_inj.mp hresolved] at hdone

end

end Lengths

/-- Some bytes are whole answers, and then at most a part of one more. -/
def Answers (t : List Event) (sent : Bytes) : Prop :=
  ∃ (answers : List Bytes) (part : Bytes), sent=(answers.map frame).flatten++part ∧
    (∀ message∈answers, Given t message) ∧
    (part=[] ∨ ∃ message, Given t message ∧ part <+: frame message)

/-- The bytes of an answer with its length. -/
def IsFrame (t : List Event) (item : Bytes) : Prop :=
  ∃ message, Given t message ∧ item=frame message

/-- The answers of a connection follow one another. -/
structure InTurn (t : List Event) (c : Connection) : Prop where
  front : Short c.front
  fresh : ∀ x w, c.output.writers.lookup x=some w → x<c.nextWriter
  items : c.output.Holds (IsFrame t)
  serial : c.broken=false → ∃ answers : List Bytes, (∀ message∈answers, Given t message) ∧
    Output.Serial (answers.map frame) c.output
  broken : c.broken=true → Answers t c.output.sent

section InTurn

variable {t new : List Event} {c c' : Connection} {message : Bytes}

theorem Given.append (h : Given t message) (new : List Event) : Given (t++new) message :=
  ⟨mem_append_left _ h.1,h.2⟩

theorem IsFrame.append {item : Bytes} (h : IsFrame t item) (new : List Event) :
    IsFrame (t++new) item := by
  obtain ⟨message,hgiven,heq⟩ := h
  exact ⟨message,hgiven.append new,heq⟩

theorem Answers.append {sent : Bytes} (h : Answers t sent) (new : List Event) :
    Answers (t++new) sent := by
  obtain ⟨answers,part,hsent,hanswers,hpart⟩ := h
  refine ⟨answers,part,hsent,fun m hm => (hanswers m hm).append new,hpart.imp_right ?_⟩
  rintro ⟨m,hgiven,hbegun⟩
  exact ⟨m,hgiven.append new,hbegun⟩

theorem InTurn.append (h : InTurn t c) (new : List Event) : InTurn (t++new) c where
  __ := h
  items := h.items.mono fun _ hitem => hitem.append new
  serial hbroken := by
    obtain ⟨answers,hanswers,hserial⟩ := h.serial hbroken
    exact ⟨answers,fun m hm => (hanswers m hm).append new,hserial⟩
  broken hbroken := (h.broken hbroken).append new

/-- The work of the front does not matter, as long as its queries are short. -/
theorem InTurn.same (h : InTurn t c) (hfront : Short c'.front) (houtput : c'.output=c.output)
    (hnext : c'.nextWriter=c.nextWriter) (hbroken : c'.broken=c.broken) : InTurn t c' where
  front := hfront
  fresh := by
    rw [houtput,hnext]
    exact h.fresh
  items := houtput ▸ h.items
  serial := by
    rw [houtput,hbroken]
    exact h.serial
  broken := by
    rw [houtput,hbroken]
    exact h.broken

/-- The number of the next writer is not in use. -/
theorem InTurn.unused (h : InTurn t c) : c.output.writers.lookup c.nextWriter=none := by
  by_contra hne
  obtain ⟨w,hw⟩ := ne_none_iff_exists'.mp hne
  exact absurd (h.fresh _ w hw) (lt_irrefl _)

/-- An answer that is there to be written is not half written. -/
theorem InTurn.send (h : InTurn t c) {answer : Option Bytes}
    (hanswer : ∀ message∈answer, message.length ≤ maxMessageBytes) :
    InTurn (t++(c.send answer).2) (c.send answer).1 := by
  cases answer with
  | none =>
    rw [Connection.send,append_nil]
    exact h
  | some message =>
    have hlength : message.length<65536 := by
      have hle := hanswer message rfl
      unfold maxMessageBytes at hle
      omega
    have hgiven : Given (t++[.answer message]) message := ⟨by simp,hlength⟩
    have hlater := h.append [.answer message]
    refine ⟨h.front,fun x w hx => ?_,?_,fun hbroken => ?_,hlater.broken⟩
    · rw [Connection.send,Output.give,lookup_insert_eq] at hx
      split at hx
      · rename_i heq
        rw [heq]
        exact Nat.lt_succ_self _
      · exact (h.fresh x w hx).trans (Nat.lt_succ_self _)
    · refine hlater.items.give ⟨message,hgiven,writeTcpDns_flatten message⟩ ?_
      rintro part ⟨⟩
      exact cons_ne_nil _ _
    · obtain ⟨answers,hanswers,hserial⟩ := hlater.serial hbroken
      exact ⟨answers,hanswers,hserial.give h.unused _⟩

/-- The reply among some events is short. -/
theorem length_of_findSome? {events : List SmartDnsFront.Event}
    (h : ∀ ev∈events, ShortReply ev) :
    ∀ message∈events.findSome? reply?, message.length ≤ maxMessageBytes := by
  intro message hmessage
  obtain ⟨ev,hev,hreply⟩ := exists_of_findSome?_eq_some hmessage
  exact h ev hev message hreply

section

variable (h : InTurn t c)

include h

theorem InTurn.queried {f : Front} (hfront : Short f) (reply : Option Bytes) :
    InTurn t (c.queried f reply) := h.same hfront rfl rfl rfl

theorem InTurn.query {egressV4Only : Bool} {bytes : Bytes}
    (hquery : c.query egressV4Only bytes=some (c',new)) : InTurn (t++new) c' := by
  unfold Connection.query at hquery
  split_ifs at hquery with hbytes
  have hlength : bytes.length≤udpBuffer := by
    by_contra hlong
    exact hbytes (.inr (.inl (not_le.mp hlong)))
  obtain ⟨hfront,hreplies⟩ := h.front.handleDnsQuery egressV4Only hlength
  have hsent := (h.queried hfront ((c.front.handleDnsQuery egressV4Only bytes).2.findSome?
    reply?)).send (length_of_findSome? hreplies)
  rwa [some_inj.mp hquery] at hsent

theorem InTurn.answered {encrypted : Bool} {a : SmartDnsFront.Action}
    (hbound : bounded (.front a)=true) (hanswered : c.answered encrypted a=some (c',new)) :
    InTurn (t++new) c' := by
  obtain ⟨⟨f,events⟩,hexec,hsend⟩ := map_eq_some_iff.mp hanswered
  obtain ⟨hfront,hreplies⟩ := h.front.exec hbound hexec
  have hsame : InTurn t {c with front := f} := h.same hfront rfl rfl rfl
  dsimp only at hsend
  split at hsend
  · have hsent := hsame.send (length_of_findSome? hreplies)
    rwa [hsend] at hsent
  · cases hsend
    rwa [append_nil]

/-- A call that is made in turn adds to the half written answer or begins one. -/
theorem InTurn.write {x : ℕ} (hfree : c.output.free x=true)
    (hwrite : c.write x=some (c',new)) : InTurn (t++new) c' := by
  unfold Connection.write at hwrite
  split at hwrite
  · rename_i hbroken
    obtain ⟨w,-,heq⟩ := map_eq_some_iff.mp hwrite
    cases heq
    rw [append_nil]
    refine ⟨h.front,fun y w' hy => h.fresh y w' (lookup_of_erase hy),h.items.erase x,?_,h.broken⟩
    intro hwhole
    exact absurd (hbroken.symm.trans hwhole) (by decide)
  · rename_i hwhole
    obtain ⟨⟨output,finished⟩,houtput,heq⟩ := map_eq_some_iff.mp hwrite
    cases heq
    obtain ⟨answers,hanswers,hserial⟩ := h.serial (Bool.eq_false_of_not_eq_true hwhole)
    obtain ⟨hitems,hfinished⟩ := h.items.write houtput
    suffices hnow : InTurn t {c with output := output} from hnow.append _
    refine ⟨h.front,fun y w hy => ?_,hitems,fun _ => ?_,fun hbroken => absurd hbroken hwhole⟩
    · cases Output.write_written houtput with
      | last _ => exact h.fresh y w (lookup_of_erase hy)
      | part hlookup =>
        rw [lookup_insert_eq] at hy
        split at hy
        · rename_i heq
          rw [heq]
          exact h.fresh x _ hlookup
        · exact h.fresh y w hy
    · have hnext := hserial.write hfree houtput
      cases finished with
      | none =>
        rw [toList_none,append_nil] at hnext
        exact ⟨answers,hanswers,hnext⟩
      | some item =>
        obtain ⟨message,hgiven,rfl⟩ := hfinished item rfl
        refine ⟨answers++[message],fun m hm => ?_,?_⟩
        · rcases mem_append.mp hm with hold | hlast
          · exact hanswers m hold
          · rw [mem_singleton.mp hlast]
            exact hgiven
        · rw [map_append]
          exact hnext

/-- What is written of an item is its first part. -/
theorem InTurn.answers : Unmixed t c := by
  cases hbroken : c.broken with
  | true =>
    obtain ⟨answers,part,hsent,hanswers,hpart⟩ := h.broken hbroken
    refine ⟨answers,part,hsent,hanswers,hpart,fun hwhole => ?_⟩
    exact absurd (hbroken.symm.trans hwhole) (by decide)
  | false =>
    obtain ⟨answers,hanswers,hserial⟩ := h.serial hbroken
    cases hserial with
    | idle hsent _ =>
      refine ⟨answers,[],?_,hanswers,.inl rfl,fun _ _ => rfl⟩
      rw [append_nil,hsent]
    | @busy x w hlookup hbegun hsent _ =>
      obtain ⟨message,hgiven,hwhole⟩ := h.items.whole x w hlookup
      refine ⟨answers,w.done,hsent,hanswers,.inr ⟨message,hgiven,?_⟩,
        fun _ hidle => hidle x w hlookup⟩
      rw [←hwhole]
      exact prefix_append _ _

theorem InTurn.exec {encrypted : Bool} {a : Action} (hbound : bounded a=true)
    (hturn : uninterrupted c a=true) (hexec : c.exec encrypted a=some (c',new)) :
    InTurn (t++new) c' := by
  cases a with
  | query egressV4Only bytes => exact h.query hexec
  | front a => exact h.answered hbound hexec
  | write x => exact h.write hturn hexec
  | breaks =>
    cases hexec
    rw [append_nil]
    refine ⟨h.front,h.fresh,h.items,nofun,fun _ => ?_⟩
    obtain ⟨answers,part,hsent,hanswers,hpart,-⟩ := h.answers
    exact ⟨answers,part,hsent,hanswers,hpart⟩

end

theorem inTurn_new : InTurn [] Connection.new := by
  refine ⟨?_,?_,⟨?_,?_⟩,fun _ => ⟨[],by simp,.idle rfl ?_⟩,nofun⟩ <;>
    · nofun

end InTurn

/-- In every run in which an answer is begun only while no other is half written, the client
gets whole answers, one after the other. -/
theorem run_unmixed {encrypted : Bool} {t : List Event} {c : Connection}
    (h : (machine encrypted).Run (fun _ c a => uninterrupted c a=true) t c) : Unmixed t c := by
  refine InTurn.answers (Machine.Run.invariant InTurn ?_ ?_ h)
  · rintro c rfl
    exact inTurn_new
  · intro t c a c' new hinv hbound hturn hexec
    exact hinv.exec hbound hturn hexec

/-- A query for the IPv6 address of a name of one letter. -/
def sampleQuery6 (id letter : UInt8) : Bytes := [0,id,1,0,0,1,0,0,0,0,0,0,1,letter,0,0,28,0,1]

/-- A query for an address gets a worker, its response comes in and is there to be written. -/
def sampleAsked : List Action :=
  [.query true (sampleQuery 7 97),.front (.ask 0 true true),
    .front (.arrive (rewriteId (sampleQuery 7 97) 1)
      (encapsulate currentResolver 53 (sampleResponse 1 97 9))),.front (.receive 0)]

/-- The answers are written in turn. -/
theorem run_unmixed_sample : ∃ t c,
    (machine false).Run (fun _ c a => uninterrupted c a=true) t c ∧ Unmixed t c ∧ c.output.sent=
        frame (sampleResponse 7 97 9)++frame (nodataAnswer (sampleQuery6 8 97)) := by
  obtain ⟨t,c,hrun,hsent⟩ : ∃ t c,
      (machine false).Run (fun _ c a => uninterrupted c a=true) t c ∧ c.output.sent=
        frame (sampleResponse 7 97 9)++frame (nodataAnswer (sampleQuery6 8 97)) :=
    Machine.exists_run (s := Connection.new) (fun c a => bounded a && uninterrupted c a)
      (fun _ _ _ h => Bool.and_eq_true_iff.mp h) rfl
      (sampleAsked++[.query true (sampleQuery6 8 97),.write 0,.write 0,.write 0,.write 0,
        .write 1,.write 1,.write 1,.write 1]) (by decide +kernel)
  exact ⟨t,c,hrun,run_unmixed hrun,hsent⟩

/-- The worker and the thread of the connection write at once, and the client gets no answer
at all. -/
theorem run_mixed : ∃ t c, (machine false).Run always t c ∧ c.broken=false ∧
    c.output.writers.entries=[] ∧ ¬Unmixed t c := by
  obtain ⟨t,c,hrun,hbroken,hempty,hfirst,hsome,hall⟩ : ∃ t c, (machine false).Run always t c ∧
      c.broken=false ∧ c.output.writers.entries.length=0 ∧ c.output.sent.take 2=[0,0] ∧
      0<c.output.sent.length ∧ t.all (fun
        | .answer message => decide ((frame message).take 2≠[0,0])
        | .wrote _ => true)=true :=
    Machine.exists_run (s := Connection.new) (fun _ a => bounded a)
      (fun _ _ _ h => ⟨h,trivial⟩) rfl
      (sampleAsked++[.query true (sampleQuery6 8 97),.write 0,.write 1,.write 0,.write 1,
        .write 0,.write 1,.write 0,.write 1]) (by decide +kernel)
  have hentries := List.length_eq_zero_iff.mp hempty
  have hanswers := List.all_eq_true.mp hall
  have hidle : ∀ x w, c.output.writers.lookup x=some w → w.done=[] := by
    intro x w hx
    have hmem := AList.mem_lookup_iff.mp hx
    rw [hentries] at hmem
    cases hmem
  refine ⟨t,c,hrun,hbroken,hentries,?_⟩
  rintro ⟨answers,part,hsent,hgiven,-,hpart⟩
  rw [hpart hbroken hidle,List.append_nil] at hsent
  cases answers with
  | nil =>
    rw [hsent] at hsome
    exact absurd hsome (by decide)
  | cons message answers =>
    have hlength : 2≤(frame message).length := by
      rw [frame,List.length_append,beBytes_length]
      omega
    have htwo : (frame message).take 2=[0,0] := by
      rw [←hfirst,hsent,List.map_cons,List.flatten_cons,List.take_append_of_le_length hlength]
    exact of_decide_eq_true (hanswers _ (hgiven message List.mem_cons_self).1) htwo

end MsnGuard.SmartDnsStreams
