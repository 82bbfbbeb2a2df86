import MsnGuard.DohResponses

/-!
# The resolver behind the DNS front

The servers are asked one after the other on one path and then on the other, by datagrams, on a
stream or over HTTP. A message is handed on if it is a response under the number of the query
and no refusal. Whose question it answers is not looked at.
-/

namespace MsnGuard.SmartDnsResolver

open List Option Nat
open RustText (Bytes Text)
open SmartDnsMessages (word)
open SmartDnsPackets DohResponses
open OctetsVarint (beBytes beValue beBytes_length beValue_beBytes)

variable {query answer message : Bytes} {turn : ℕ}

/-- How long the servers are asked on the path that is tried first. -/
def primaryBudget : ℕ := 2000

/-- How long they are asked on the other path. -/
def secondaryBudget : ℕ := 3000

/-- How many answers in a row the other path gives before it is the first. -/
def switchAfter : ℕ := 3

/-- How many datagrams are looked at for one query. -/
def datagramReceives : ℕ := 4

/-- The length of a header. -/
def dnsHeaderBytes : ℕ := 12

/-- The code of a server that does not serve this client. -/
def rcodeRefused : ℤ := 5

/-- Through the tunnel or not. -/
inductive Path where
  | tunnel
  | direct
  deriving DecidableEq

/-- The other path. -/
def Path.other : Path → Path
  | .tunnel => .direct
  | .direct => .tunnel

/-- Datagrams, messages in TLS or messages in HTTP. -/
inductive Transport where
  | plain
  | dot
  | doh
  deriving DecidableEq

/-- The four bytes of an IPv4 address in decimal. -/
def ipv4Bytes (text : Text) : Option Bytes :=
  let octet (part : Text) : Option UInt8 :=
    if part=[] ∨ 3<part.length ∨ part.any (fun c => !c.isDigit) then none
    else
      let value := part.foldl (fun n c => n*10+(c.toNat-48)) 0
      if value≤255 then some (UInt8.ofNat value) else none
  match text.splitOn '.' with
  | [a,b,c,d] => [a,b,c,d].mapM octet
  | _ => none

/-- A server. One that is asked by datagrams has an address. -/
structure SmartDnsServer where
  transport : Transport
  host : Text
  literal : transport=.plain → (ipv4Bytes host).isSome

/-- What a turn of a server meets. -/
structure Attempt where
  /-- Has the resolver been closed? -/
  closed : Bool
  /-- The time in milliseconds. -/
  time : ℕ
  /-- Is there a socket for datagrams and, in the tunnel, a relay? -/
  ready : Bool
  /-- The datagrams that come in until the timeout. -/
  datagrams : List Bytes
  /-- A connection of the pool. -/
  pooled : Option Input
  /-- A new connection. -/
  opened : Option Input

/-- The message of a datagram of the relay. -/
def parseUdp (datagram : Bytes) : Option Bytes :=
  if datagram.length<10 ∨ datagram.take 3≠[0,0,0] then none
  else match (datagram.getD 3 0).toNat with
    | 1 => some (datagram.drop 10)
    | 4 => if datagram.length<22 then none else some (datagram.drop 22)
    | _ => none

/-- The message of a datagram. -/
def unwrap : Path → Bytes → Option Bytes
  | .tunnel,datagram => parseUdp datagram
  | .direct,datagram => some datagram

/-- The first message under the number of the query. -/
def receiveAnswer (path : Path) (query : Bytes) : ℕ → List Bytes → Option Bytes
  | 0,_ => none
  | _+1,[] => none
  | left+1,datagram::rest => match unwrap path (datagram.take maxMessageBytes) with
    | none => receiveAnswer path query left rest
    | some message =>
      if transactionId message=transactionId query then some message
      else receiveAnswer path query left rest

/-- Ask by a datagram. -/
def datagram (path : Path) (server : SmartDnsServer) (query : Bytes) (attempt : Attempt) :
    Option Bytes :=
  (ipv4Bytes server.host).bind fun _ =>
    if attempt.ready then receiveAnswer path query datagramReceives attempt.datagrams else none

/-- Ask on a connection of the pool, and on a new one if that fails. -/
def reuse (attempt : Attempt) (ask : Input → Option Bytes) : Option Bytes :=
  (attempt.pooled.bind ask).or (attempt.opened.bind ask)

/-- A message with its length. -/
def framed (query : Bytes) (input : Input) : Option Bytes :=
  (readExact input.bytes 2).bind fun (length,rest) =>
    if beValue length<dnsHeaderBytes then none
    else (readExact rest (beValue length)).bind fun (answer,_) =>
      if transactionId answer=transactionId query then some answer else none

/-- A message in a response over HTTP, under the number of the query. -/
def dohOnce (query : Bytes) (input : Input) : Option Bytes :=
  (readDohResponse input).bind fun response =>
    if response.status=200 ∧ dnsHeaderBytes≤response.body.length ∧ 2≤query.length then
      some (query.take 2++response.body.drop 2)
    else none

/-- Ask a server once. A message that was cut off is asked for again on a stream. -/
def exchange (path : Path) (server : SmartDnsServer) (query : Bytes) (attempt : Attempt) :
    Option Bytes :=
  match server.transport with
  | .plain => (datagram path server query attempt).bind fun answer =>
    if isTruncated answer then (reuse attempt (framed query)).or (some answer) else some answer
  | .dot => reuse attempt (framed query)
  | .doh => reuse attempt (dohOnce query)

/-- Is the message worth handing to an app? -/
def isUsable (query answer : Bytes) : Bool :=
  isResponse answer && decide (transactionId answer=transactionId query) &&
    decide (rcode answer≠rcodeRefused)

/-- Ask the servers in their order until a deadline. -/
def resolveOn (path : Path) (query : Bytes) (deadline : ℕ) (attempts : ℕ → Attempt) :
    ℕ → List SmartDnsServer → Option Bytes
  | _,[] => none
  | turn,server::rest =>
    if (attempts turn).closed then none
    else if deadline≤(attempts turn).time then none
    else match exchange path server query (attempts turn) with
      | some answer =>
        if isUsable query answer then some answer
        else resolveOn path query deadline attempts (turn+1) rest
      | none => resolveOn path query deadline attempts (turn+1) rest

/-- The resolver. -/
structure Resolver where
  servers : List SmartDnsServer
  autoFailover : Bool
  /-- The path that is tried first. -/
  path : Path
  /-- How many answers in a row the other path has given. -/
  streak : ℕ

/-- What one query meets. -/
structure World where
  closed : Bool
  /-- When the servers are first asked on a path. -/
  start : Path → ℕ
  /-- The turns of the servers. -/
  attempts : Path → ℕ → Attempt
  /-- Is the resolver closed before the other path is tried? -/
  closedBetween : Bool

/-- The other path has given an answer. -/
def Resolver.rescued (r : Resolver) : Resolver :=
  if switchAfter≤r.streak+1 then
    {r with
      path := r.path.other
      streak := 0}
  else {r with streak := r.streak+1}

/-- Answer a query. -/
def Resolver.resolve (r : Resolver) (w : World) (query : Bytes) : Resolver × Option Bytes :=
  let asked (path : Path) (budget : ℕ) : Option Bytes :=
    resolveOn path query (w.start path+budget) (w.attempts path) 0 r.servers
  if w.closed ∨ r.servers=[] then (r,none)
  else match asked r.path primaryBudget with
    | some answer => ({r with streak := 0},some answer)
    | none =>
      if !r.autoFailover ∨ w.closedBetween then (r,none)
      else match asked r.path.other secondaryBudget with
        | some answer => (r.rescued,some answer)
        | none => (r,none)

/-- The bytes of the first question. -/
def questionSection (packet : Bytes) : Option Bytes :=
  (questionEnd packet).map fun stop => (packet.take stop).drop 12

/-- A message has exactly the question of the query. -/
def SameQuestion (query answer : Bytes) : Prop :=
  word answer 4=word query 4 ∧ questionSection answer=questionSection query

instance (query answer : Bytes) : Decidable (SameQuestion query answer) := by
  unfold SameQuestion
  infer_instance

/-- A message answers a query. -/
structure Faithful (query answer : Bytes) : Prop where
  number : transactionId answer=transactionId query
  response : isResponse answer=true
  question : SameQuestion query answer

/-- A message that a transport can carry. Without a header it comes in a datagram only. -/
def Transport.Carries (transport : Transport) (message : Bytes) : Prop :=
  (transport≠.plain → dnsHeaderBytes ≤ message.length) ∧ message.length ≤ maxMessageBytes

/-- A message that one of the servers can send. -/
def Resolver.Carries (r : Resolver) (message : Bytes) : Prop :=
  ∃ server∈r.servers, server.transport.Carries message

/-- In a world the servers send nothing but such messages. -/
def World.Offers (w : World) (r : Resolver) (query : Bytes) (offer : Bytes → Prop) : Prop :=
  ∀ path turn server, r.servers[turn]?=some server → ∀ message,
    exchange path server query (w.attempts path turn)=some message → offer message

variable {path : Path}

/-- An answer of the servers is usable and was said in the turn of one of them. -/
theorem resolveOn_usable {deadline : ℕ} {attempts : ℕ → Attempt} {servers : List SmartDnsServer}
    (h : resolveOn path query deadline attempts turn servers=some answer) :
    isUsable query answer=true ∧ ∃ i server, servers[i]?=some server ∧
      exchange path server query (attempts (turn+i))=some answer := by
  induction servers generalizing turn with
  | nil => cases h
  | cons server rest ih =>
    -- the servers after this one have the turns after this one
    have hlater : resolveOn path query deadline attempts (turn+1) rest=some answer →
        isUsable query answer=true ∧ ∃ i s, (server::rest)[i]?=some s ∧
          exchange path s query (attempts (turn+i))=some answer := by
      intro hrest
      obtain ⟨husable,i,s,hserver,hsaid⟩ := ih hrest
      refine ⟨husable,i+1,s,hserver,?_⟩
      rwa [add_assoc,add_comm 1] at hsaid
    rw [resolveOn] at h
    split at h
    · cases h
    split at h
    · cases h
    split at h
    · rename_i said hsaid
      split at h
      · rename_i husable
        cases h
        exact ⟨husable,0,server,rfl,hsaid⟩
      · exact hlater h
    · exact hlater h

variable {r : Resolver} {w : World}

/-- What the resolver hands on is usable and was said in the turn of a server. -/
theorem Resolver.resolve_usable (h : (r.resolve w query).2=some answer) :
    isUsable query answer=true ∧ ∃ path turn server, r.servers[turn]?=some server ∧
      exchange path server query (w.attempts path turn)=some answer := by
  have hasked : ∀ {path deadline}, resolveOn path query deadline (w.attempts path) 0 r.servers=
      some answer → isUsable query answer=true ∧ ∃ path turn server, r.servers[turn]?=some server ∧
          exchange path server query (w.attempts path turn)=some answer := by
    intro path deadline hon
    obtain ⟨husable,i,server,hserver,hsaid⟩ := resolveOn_usable hon
    rw [zero_add] at hsaid
    exact ⟨husable,path,i,server,hserver,hsaid⟩
  unfold Resolver.resolve at h
  dsimp only at h
  split at h
  · cases h
  split at h
  · rename_i first hfirst
    cases h
    exact hasked hfirst
  split at h
  · cases h
  split at h
  · rename_i second hsecond
    cases h
    exact hasked hsecond
  · cases h

section Lengths

variable {path : Path} {query answer : Bytes}
variable {input : Input} {attempt : Attempt}

theorem unwrap_length {datagram : Bytes} (h : unwrap path datagram=some answer) :
    answer.length≤datagram.length := by
  cases path with
  | direct =>
    cases h
    exact le_rfl
  | tunnel =>
    rw [unwrap,parseUdp] at h
    split at h
    · cases h
    split at h
    · cases h
      rw [length_drop]
      omega
    · split_ifs at h
      cases h
      rw [length_drop]
      omega
    · cases h

theorem receiveAnswer_length {left : ℕ} {datagrams : List Bytes}
    (h : receiveAnswer path query left datagrams=some answer) : answer.length ≤ maxMessageBytes := by
  induction left generalizing datagrams with
  | zero => cases h
  | succ left ih =>
    cases datagrams with
    | nil => cases h
    | cons datagram rest =>
      rw [receiveAnswer] at h
      split at h
      · exact ih h
      · rename_i message hmessage
        split at h
        · cases h
          have hlength := unwrap_length hmessage
          rw [length_take] at hlength
          omega
        · exact ih h

theorem framed_length (h : framed query input=some answer) :
    dnsHeaderBytes≤answer.length ∧ answer.length ≤ maxMessageBytes := by
  obtain ⟨⟨length,rest⟩,hlength,h⟩ := bind_eq_some_iff.mp h
  dsimp only at h
  split_ifs at h with hlong
  obtain ⟨⟨message,after⟩,hmessage,h⟩ := bind_eq_some_iff.mp h
  dsimp only at h
  split_ifs at h
  cases h
  unfold readExact at hlength hmessage
  split_ifs at hlength with htwo
  cases hlength
  split_ifs at hmessage with henough
  cases hmessage
  obtain ⟨first,second,tail,hbytes⟩ := exists_two_bytes (Nat.le_of_not_lt htwo)
  have hvalue : beValue (input.bytes.take 2)=(0*256+first.toNat)*256+second.toNat := by
    rw [hbytes]
    rfl
  have hfirst : first.toNat<256 := first.toNat_lt
  have hsecond : second.toNat<256 := second.toNat_lt
  rw [length_take,Nat.min_eq_left (Nat.le_of_not_lt henough)]
  refine ⟨Nat.le_of_not_lt hlong,?_⟩
  rw [hvalue]
  unfold maxMessageBytes
  omega

theorem dohOnce_length (h : dohOnce query input=some answer) :
    dnsHeaderBytes≤answer.length ∧ answer.length ≤ maxMessageBytes := by
  obtain ⟨response,hresponse,h⟩ := bind_eq_some_iff.mp h
  have hbody := readDohResponse_length hresponse
  split_ifs at h with haccepted
  cases h
  obtain ⟨_,hheader,hquery⟩ := haccepted
  have hlength : (query.take 2++response.body.drop 2).length=response.body.length := by
    rw [length_append,length_take,length_drop]
    unfold dnsHeaderBytes at hheader
    omega
  rw [hlength]
  exact ⟨hheader,hbody⟩

/-- What is read on a connection of the pool and on a new one alike is so either way. -/
theorem reuse_spec {P : Bytes → Prop} {ask : Input → Option Bytes}
    (hask : ∀ input, ask input=some answer → P answer) (h : reuse attempt ask=some answer) :
    P answer := by
  rcases or_eq_some_iff.mp h with hpooled | ⟨-,hopened⟩
  · obtain ⟨input,-,hanswer⟩ := bind_eq_some_iff.mp hpooled
    exact hask input hanswer
  · obtain ⟨input,-,hanswer⟩ := bind_eq_some_iff.mp hopened
    exact hask input hanswer

/-- What is handed over is something that the transport can carry. -/
theorem exchange_carries {server : SmartDnsServer}
    (h : exchange path server query attempt=some answer) : server.transport.Carries answer := by
  unfold exchange at h
  split at h
  · rename_i htransport
    refine ⟨fun hne => absurd htransport hne,?_⟩
    obtain ⟨message,hmessage,h⟩ := bind_eq_some_iff.mp h
    have hlength : message.length ≤ maxMessageBytes := by
      obtain ⟨address,-,hreceived⟩ := bind_eq_some_iff.mp hmessage
      split_ifs at hreceived
      exact receiveAnswer_length hreceived
    split at h
    · rcases or_eq_some_iff.mp h with hstream | ⟨-,hcut⟩
      · exact reuse_spec (P := fun answer => answer.length ≤ maxMessageBytes)
          (fun _ hframed => (framed_length hframed).2) hstream
      · cases hcut
        exact hlength
    · cases h
      exact hlength
  · refine reuse_spec (P := server.transport.Carries) (fun _ hframed => ?_) h
    exact (framed_length hframed).imp_left fun hlong _ => hlong
  · refine reuse_spec (P := server.transport.Carries) (fun _ honce => ?_) h
    exact (dohOnce_length honce).imp_left fun hlong _ => hlong

end Lengths

/-- A usable message is a response under the number of the query. -/
theorem isUsable_iff : isUsable query answer=true ↔
    isResponse answer=true ∧ transactionId answer=transactionId query ∧
      rcode answer≠rcodeRefused := by
  simp only [isUsable,Bool.and_eq_true,decide_eq_true_eq,and_assoc]

/-- If the usable messages of the servers are for the question that was asked, so is the
answer of the resolver. -/
theorem Resolver.resolve_faithful {offer : Bytes → Prop} (hw : w.Offers r query offer)
    (hoffer : ∀ message, offer message → r.Carries message → isUsable query message=true →
      SameQuestion query message) (h : (r.resolve w query).2=some answer) : Faithful query answer := by
  obtain ⟨husable,path,turn,server,hserver,hsaid⟩ := Resolver.resolve_usable h
  obtain ⟨hresponse,hnumber,-⟩ := isUsable_iff.mp husable
  have hoffered := hw path turn server hserver answer hsaid
  have hcarries : r.Carries answer :=
    ⟨server,mem_of_getElem? hserver,exchange_carries hsaid⟩
  exact ⟨hnumber,hresponse,hoffer answer hoffered hcarries husable⟩

/-- A turn in which nothing comes in. -/
def Attempt.silent : Attempt := ⟨false,0,true,[],none,none⟩

/-- A head without headers: the body goes on to the end of the connection. -/
def okHead : Bytes := ascii "HTTP/1.1 200 OK\x0d\x0a\x0d\x0a"

/-- A message with its length. -/
def withLength (message : Bytes) : Bytes := beBytes 2 message.length++message

/-- A datagram of the relay with a message. -/
def relayed (message : Bytes) : Bytes := [0,0,0,1,9,9,9,9,0,53]++message

/-- A turn in which a server sends a message. In the tunnel a long one does not fit into a
datagram, and the server says so first. -/
def Attempt.carrying (path : Path) (transport : Transport) (message : Bytes) : Attempt :=
  match transport,path with
  | .plain,.direct => {silent with datagrams := [message]}
  | .plain,.tunnel =>
    if message.length+10 ≤ maxMessageBytes then {silent with datagrams := [relayed message]}
    else
      {silent with
        datagrams := [relayed (message.take 2++[2])]
        opened := some ⟨withLength message,true⟩}
  | .dot,_ => {silent with opened := some ⟨withLength message,true⟩}
  | .doh,_ => {silent with opened := some ⟨okHead++message,true⟩}

theorem readExact_append {front : Bytes} {n : ℕ} (h : front.length=n) (rest : Bytes) :
    readExact (front++rest) n=some (front,rest) := by
  have hfits : ¬(front++rest).length<n := by
    rw [length_append]
    omega
  rw [readExact,if_neg hfits,take_left' h,drop_left' h]

/-- A message with its length is read back. -/
theorem framed_withLength (hlong : dnsHeaderBytes ≤ message.length)
    (hshort : message.length ≤ maxMessageBytes)
    (hnumber : transactionId message=transactionId query) :
    framed query ⟨withLength message,true⟩=some message := by
  have hvalue : beValue (beBytes 2 message.length)=message.length := by
    rw [beValue_beBytes]
    refine mod_eq_of_lt ?_
    unfold maxMessageBytes at hshort
    omega
  have hrest : readExact message message.length=some (message,[]) := by
    simpa using readExact_append (rfl : message.length=message.length) []
  rw [framed,withLength,readExact_append (beBytes_length 2 _),bind_some]
  dsimp only
  rw [hvalue,if_neg (not_lt.mpr hlong),hrest,bind_some]
  exact if_pos hnumber

/-- A response without headers is read up to the end of the connection. -/
theorem readDohResponse_okHead (h : message.length ≤ maxMessageBytes) :
    readDohResponse ⟨okHead++message,true⟩=some ⟨200,message,true⟩ := by
  have hhead : readHead 0 0 (okHead++message)=some (okHead,message) := rfl
  have hparsed : parseHead okHead=some ⟨200,none,false,false⟩ := by decide +kernel
  have hbody : readToEnd ⟨message,true⟩=some message := if_pos ⟨rfl,h⟩
  rw [readDohResponse,maxInterimResponses,readResponses,hhead,bind_some]
  dsimp only
  rw [hparsed,bind_some,if_neg (by decide)]
  dsimp only [readBody]
  rw [if_neg (by decide),hbody]
  rfl

/-- Two messages with one number begin with the same bytes. -/
theorem take_of_transactionId (h : transactionId message=transactionId query)
    (hmessage : 2 ≤ message.length) : 2≤query.length ∧ message.take 2=query.take 2 := by
  unfold transactionId at h
  rw [if_neg (by omega)] at h
  split at h
  · omega
  rename_i hquery
  have hword : word message 0=word query 0 := Int.ofNat.inj h
  obtain ⟨a,b,tail,rfl⟩ := exists_two_bytes hmessage
  obtain ⟨c,d,rest,rfl⟩ := exists_two_bytes (Nat.le_of_not_lt hquery)
  have hvalue : (0*256+a.toNat)*256+b.toNat=(0*256+c.toNat)*256+d.toNat := hword
  have hb : b.toNat<256 := b.toNat_lt
  have hd : d.toNat<256 := d.toNat_lt
  have hfirst : a=c := UInt8.toNat_inj.mp (by omega)
  have hsecond : b=d := UInt8.toNat_inj.mp (by omega)
  rw [hfirst,hsecond]
  exact ⟨by simp,rfl⟩

/-- A message over HTTP keeps its number if it is the one of the query. -/
theorem dohOnce_okHead (hlong : dnsHeaderBytes ≤ message.length)
    (hshort : message.length ≤ maxMessageBytes)
    (hnumber : transactionId message=transactionId query) :
    dohOnce query ⟨okHead++message,true⟩=some message := by
  have htwo : 2 ≤ message.length := le_trans (by decide) hlong
  obtain ⟨hquery,htake⟩ := take_of_transactionId hnumber htwo
  rw [dohOnce,readDohResponse_okHead hshort,bind_some]
  rw [if_pos ⟨rfl,hlong,hquery⟩,←htake,take_append_drop]

/-- Of a datagram with a message under the number of the query the message is taken. -/
theorem receiveAnswer_carried {datagram : Bytes} {left : ℕ}
    (hfits : datagram.length ≤ maxMessageBytes) (hunwrap : unwrap path datagram=some message)
    (hnumber : transactionId message=transactionId query) (rest : List Bytes) :
    receiveAnswer path query (left+1) (datagram::rest)=some message := by
  rw [receiveAnswer,take_of_length_le hfits,hunwrap]
  exact if_pos hnumber

/-- The relay's wrapping is taken off. -/
theorem unwrap_relayed (message : Bytes) : unwrap .tunnel (relayed message)=some message := by
  rw [unwrap,relayed,parseUdp,if_neg (by simp)]
  rfl

theorem relayed_length (message : Bytes) : (relayed message).length=message.length+10 := by
  rw [relayed,length_append,add_comm]
  rfl

variable {server : SmartDnsServer}

/-- The first datagram under the number of the query decides, unless it says that more is to be
had on a stream. -/
theorem exchange_plain {attempt : Attempt} (htransport : server.transport=.plain)
    (hready : attempt.ready=true)
    (hreceived : receiveAnswer path query datagramReceives attempt.datagrams=some message) :
    exchange path server query attempt=
      if isTruncated message then (reuse attempt (framed query)).or (some message)
      else some message := by
  obtain ⟨address,haddress⟩ := isSome_iff_exists.mp (server.literal htransport)
  rw [exchange,htransport,datagram,haddress]
  rw [bind_some,if_pos hready,hreceived,bind_some]

/-- A datagram without a stream behind it is handed over as it is. -/
theorem exchange_datagram {datagram : Bytes} (htransport : server.transport=.plain)
    (hfits : datagram.length ≤ maxMessageBytes) (hunwrap : unwrap path datagram=some message)
    (hnumber : transactionId message=transactionId query) :
    exchange path server query {Attempt.silent with datagrams := [datagram]}=some message := by
  rw [exchange_plain htransport rfl (receiveAnswer_carried hfits hunwrap hnumber [])]
  split <;> rfl

/-- What a server sends in a turn is handed over, whatever its transport. -/
theorem exchange_carrying (path : Path) (server : SmartDnsServer)
    (hcarries : server.transport.Carries message) (husable : isUsable query message=true) :
    exchange path server query (.carrying path server.transport message)=some message := by
  obtain ⟨hlong,hshort⟩ := hcarries
  obtain ⟨hresponse,hnumber,-⟩ := isUsable_iff.mp husable
  cases htransport : server.transport with
  | plain =>
    cases path with
    | direct => exact exchange_datagram htransport hshort rfl hnumber
    | tunnel =>
      simp only [Attempt.carrying]
      split
      · rename_i hfits
        refine exchange_datagram htransport ?_ (unwrap_relayed message) hnumber
        rwa [relayed_length]
      · rename_i hlarge
        have hheader : dnsHeaderBytes ≤ message.length := by
          unfold maxMessageBytes at hlarge
          unfold dnsHeaderBytes
          omega
        -- the datagram only says that there is more, and the message follows on the stream
        obtain ⟨first,second,rest,rfl⟩ := exists_two_bytes (le_trans (by decide) hheader)
        have hsame : transactionId [first,second,2]=transactionId query := by
          rw [←hnumber]
          rfl
        have hcut : receiveAnswer .tunnel query datagramReceives [relayed [first,second,2]]=
            some [first,second,2] := by
          refine receiveAnswer_carried ?_ (unwrap_relayed _) hsame []
          rw [relayed_length]
          change 3+10≤65535
          decide
        have htruncated : isTruncated [first,second,2]=true := by
          rw [isTruncated,if_neg (by simp)]
          change ((2 : UInt8) &&& 2 != 0)=true
          decide
        rw [exchange_plain htransport rfl hcut,if_pos htruncated,reuse]
        dsimp only [Attempt.silent]
        rw [bind_none,none_or,bind_some,
          framed_withLength hheader hshort hnumber,some_or]
  | dot =>
    rw [exchange,htransport]
    exact framed_withLength (hlong (by simp [htransport])) hshort hnumber
  | doh =>
    rw [exchange,htransport]
    exact dohOnce_okHead (hlong (by simp [htransport])) hshort hnumber

/-- A world in which one server of a resolver sends one message in its first turn. -/
def Resolver.onlyWorld (r : Resolver) (sender : ℕ) (message : Bytes) : World where
  closed := false
  start _ := 0
  attempts path turn := match r.servers[turn]? with
    | some server =>
      if path=r.path ∧ turn=sender then .carrying path server.transport message else .silent
    | none => .silent
  closedBetween := false

theorem exchange_silent (path : Path) (server : SmartDnsServer) (query : Bytes) :
    exchange path server query .silent=none := by
  have hdatagram : datagram path server query .silent=none := by
    rw [datagram]
    cases ipv4Bytes server.host <;> rfl
  rw [exchange,hdatagram]
  cases server.transport <;> rfl

/-- Nothing else is sent in that world. -/
theorem Resolver.onlyWorld_attempts (r : Resolver) (sender : ℕ) (message : Bytes)
    (h : ¬(path=r.path ∧ turn=sender)) :
    (r.onlyWorld sender message).attempts path turn=.silent := by
  simp only [Resolver.onlyWorld,if_neg h]
  cases r.servers[turn]? <;> rfl

theorem Resolver.onlyWorld_sender {sender : ℕ} (hserver : r.servers[sender]?=some server)
    (message : Bytes) :
    (r.onlyWorld sender message).attempts r.path sender=
      .carrying r.path server.transport message := by
  simp only [Resolver.onlyWorld,hserver,and_self,if_true]

section Sender

variable {r : Resolver} {sender : ℕ} {server : SmartDnsServer} {query message : Bytes}

theorem Resolver.onlyWorld_offers (hserver : r.servers[sender]?=some server)
    (hcarries : server.transport.Carries message) (husable : isUsable query message=true) :
    (r.onlyWorld sender message).Offers r query (·=message) := by
  intro path turn other hother said hsaid
  by_cases h : path=r.path ∧ turn=sender
  · obtain ⟨rfl,rfl⟩ := h
    cases hserver.symm.trans hother
    rw [Resolver.onlyWorld_sender hserver,exchange_carrying r.path server hcarries husable] at hsaid
    exact (some.inj hsaid).symm
  · rw [r.onlyWorld_attempts sender message h,exchange_silent] at hsaid
    cases hsaid

/-- A turn of that world is in time. -/
theorem Resolver.onlyWorld_open (r : Resolver) (sender : ℕ) (message : Bytes) (path : Path)
    (turn : ℕ) : ((r.onlyWorld sender message).attempts path turn).closed=false ∧
      ((r.onlyWorld sender message).attempts path turn).time=0 := by
  simp only [Resolver.onlyWorld]
  split
  · split
    · unfold Attempt.carrying
      split
      · exact ⟨rfl,rfl⟩
      · split <;> exact ⟨rfl,rfl⟩
      · exact ⟨rfl,rfl⟩
      · exact ⟨rfl,rfl⟩
    · exact ⟨rfl,rfl⟩
  · exact ⟨rfl,rfl⟩

/-- The servers before the one that sends are asked in vain. -/
theorem resolveOn_sender {path : Path} {deadline turn : ℕ} {attempts : ℕ → Attempt}
    {servers : List SmartDnsServer}
    (hturn : ∀ i, (attempts i).closed=false ∧ (attempts i).time=0)
    (hdeadline : 0<deadline) (hserver : servers[sender]?=some server)
    (hsilent : ∀ i<turn+sender, attempts i=.silent)
    (hsaid : exchange path server query (attempts (turn+sender))=some message)
    (husable : isUsable query message=true) :
    resolveOn path query deadline attempts turn servers=some message := by
  induction servers generalizing turn sender with
  | nil => cases hserver
  | cons first rest ih =>
    rw [resolveOn,(hturn turn).1,(hturn turn).2,if_neg (by decide),
      if_neg (not_le.mpr hdeadline)]
    cases sender with
    | zero =>
      cases hserver
      rw [add_zero] at hsaid
      rw [hsaid]
      exact if_pos husable
    | succ sender =>
      rw [hsilent turn (by omega),exchange_silent]
      refine ih hserver ?_ ?_
      · intro i hi
        exact hsilent i (by omega)
      · rwa [add_right_comm,add_assoc]

/-- The resolver hands on the message of that world if it is usable. -/
theorem Resolver.resolve_onlyWorld (hserver : r.servers[sender]?=some server)
    (hcarries : server.transport.Carries message) (husable : isUsable query message=true) :
    (r.resolve (r.onlyWorld sender message) query).2=some message := by
  have hfirst : resolveOn r.path query ((r.onlyWorld sender message).start r.path+primaryBudget)
      ((r.onlyWorld sender message).attempts r.path) 0 r.servers=some message := by
    have hdeadline : 0<(r.onlyWorld sender message).start r.path+primaryBudget :=
      Nat.lt_add_left _ (by decide)
    refine resolveOn_sender (r.onlyWorld_open sender message r.path) hdeadline hserver ?_ ?_ husable
    · intro i hi
      exact r.onlyWorld_attempts sender message fun h => by omega
    · rw [zero_add,Resolver.onlyWorld_sender hserver]
      exact exchange_carrying r.path server hcarries husable
  have hopen : ¬((r.onlyWorld sender message).closed=true ∨ r.servers=[]) := by
    rintro (h | h)
    · cases h
    · rw [h] at hserver
      cases hserver
  unfold Resolver.resolve
  dsimp only
  rw [if_neg hopen,hfirst]

end Sender

/-- A server that is asked over HTTP. -/
def sampleServer : SmartDnsServer := ⟨.doh,"dns.example".toList,by decide⟩

/-- A resolver with that server. -/
def sampleResolver : Resolver := ⟨[sampleServer],true,.tunnel,0⟩

end MsnGuard.SmartDnsResolver
