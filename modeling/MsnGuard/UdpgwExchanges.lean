import MsnGuard.FiniteTables
import MsnGuard.IpAddresses
import MsnGuard.OctetsVarint
import MsnGuard.TransitionRuns

/-!
# DNS queries over one gateway channel

Any number of queries share one stream to a UDP gateway. A query has a number and a slot in its
frame, and an entry in a table under its number, which is taken out by the reader, by the query
when it ends and by whoever finds the channel broken.
-/

namespace MsnGuard.UdpgwExchanges

open RustText IpAddresses TransitionRuns FiniteTables
open OctetsVarint (beBytes beValue)

/-- The longest DNS message. -/
def maxDns : ℕ := 32768

/-- As many queries may be pending. -/
def maxPending : ℕ := 512

/-- The number of slots. -/
def dnsSlots : ℕ := 8

/-- The flag of a frame without a message. -/
def keepaliveFlag : UInt8 := 1

/-- The flag of a query for the resolver of the exit. -/
def dnsFlag : UInt8 := 4

/-- The flag of a frame with an IPv6 address. -/
def ipv6Flag : UInt8 := 8

/-- The frame of a query: its length, flags, slot, resolver and port, and the message
under the number of the query. -/
def dnsFrame (slot id : ℕ) (query : Bytes) (resolver : Option Ipv4Addr) : Bytes :=
  (beBytes 2 (9+query.length)).reverse++[if resolver.isSome then 0 else dnsFlag] ++
    (beBytes 2 slot).reverse++beBytes 4 (resolver.elim 0 (·.toNat))++beBytes 2 53 ++
    beBytes 2 id++query.drop 2

/-- The slot, the number and the message of a frame that is a reply. -/
def dnsReply (frame : Bytes) : Option (ℕ × ℕ × Bytes) :=
  match frame with
  | flags::low::high::_ =>
    if flags &&& keepaliveFlag≠0 ∨ flags &&& ~~~(15 : UInt8)≠0 then none
    else
      let offset := if flags &&& ipv6Flag≠0 then 21 else 9
      let payload := frame.drop offset
      if frame.length<offset+12 ∨ maxDns<frame.length-offset then none
      else if payload.getD 2 0 &&& 0x80=0 then none
      else some (beValue [high,low],beValue (payload.take 2),payload)
  | _ => none

/-- What a query has been handed. -/
inductive Inbox where
  | waiting
  | delivered (payload : Bytes)
  | failed (e : String)
  /-- The entry was taken out without a word. -/
  | dropped
  deriving DecidableEq

/-- Where the writing of a frame stands. -/
inductive WriteAt where
  | entering
  /-- Waiting for the stream. -/
  | queued
  /-- The stream is ours; is the channel still alive? -/
  | locked
  | writing
  /-- The channel is given up, as often as it says; the mark comes before the entries. -/
  | failing (e : String) (left : ℕ) (marked : Bool)
  deriving DecidableEq

/-- Where a query stands. -/
inductive Stage where
  | write (place : WriteAt)
  | awaiting
  /-- Nobody waits for the query any more and its frame is half written. -/
  | cancelling (marked : Bool)
  /-- The entry is taken out next; a query nobody waits for has no result. -/
  | leaving (result : Option (Except String Bytes))

/-- A query under way. -/
structure Exchange where
  /-- The query as it came. -/
  query : Bytes
  /-- The resolver it is for. -/
  resolver : Option Ipv4Addr
  /-- The number in its frame. -/
  id : ℕ
  /-- The slot in its frame. -/
  slot : ℕ
  /-- Where it stands. -/
  stage : Stage
  /-- What it has been handed. -/
  inbox : Inbox

/-- Who may have the stream to write. -/
inductive Agent where
  | exchange (x : ℕ)
  | keeper
  deriving DecidableEq

/-- The task that keeps the stream alive. -/
inductive Keeper where
  | sleeping
  | write (place : WriteAt)
  | ended

/-- The task that reads replies. -/
inductive Reader where
  /-- Is the channel still alive? -/
  | looking
  | reading
  | closing (marked : Bool)
  | ended

/-- A channel with the queries on it. -/
structure Channel where
  /-- The number given last. -/
  nextId : ℕ
  /-- The slot given last. -/
  nextSlot : ℕ
  /-- For each number in use, its slot and its query. -/
  entries : Table (ℕ × ℕ)
  /-- Is the channel still used? -/
  alive : Bool
  /-- Who has the stream. -/
  writer : Option Agent
  /-- The queries under way. -/
  exchanges : ℕ → Option Exchange
  /-- How many there have been. -/
  nextExchange : ℕ
  /-- The task that keeps the stream alive. -/
  keeper : Keeper
  /-- The task that reads replies. -/
  reader : Reader

/-- What can be seen of a channel. -/
inductive Event where
  | asked (x : ℕ) (query : Bytes) (resolver : Option Ipv4Addr)
  | sent (x : ℕ) (frame : Bytes)
  | received (frame : Bytes)
  | returned (x : ℕ) (result : Except String Bytes)
  | cancelled (x : ℕ)
  /-- The entries have been cleared. -/
  | invalidated

/-- The next number that is not in use, if it is found in as many tries. -/
def freshId (entries : Table (ℕ × ℕ)) : ℕ → ℕ → Option ℕ
  | 0,_ => none
  | tries+1,id =>
    if entries.lookup ((id+1) % 65536)=none then some ((id+1) % 65536)
    else freshId entries tries ((id+1) % 65536)

/-- The error of a channel that is not used any more. -/
def closedError : String := "Psiphon UDPGW channel closed"

namespace Channel

/-- A new channel. -/
def new : Channel := ⟨0,0,∅,true,none,fun _ => none,0,.sleeping,.looking⟩

/-- A query goes on elsewhere. -/
def setStage (c : Channel) (x : ℕ) (stage : Stage) : Channel :=
  {c with
    exchanges := Function.update c.exchanges x
      ((c.exchanges x).map fun e => {e with stage := stage})}

/-- Take out the entry of a number and tell its query. -/
def resolve (c : Channel) (id : ℕ) (inbox : Inbox) : Channel :=
  match c.entries.lookup id with
  | none => c
  | some (_,x) =>
    {c with
      entries := c.entries.erase id
      exchanges := Function.update c.exchanges x
        ((c.exchanges x).map fun e => {e with inbox := inbox})}

/-- Take out all entries and tell their queries. -/
def drain (c : Channel) : Channel :=
  {c with
    entries := ∅
    exchanges := fun x => (c.exchanges x).map fun e =>
      if c.entries.entries.any (fun entry => entry.2.2 == x) then
        {e with inbox := .failed closedError}
      else e}

/-- Let go of the stream. -/
def release (c : Channel) (agent : Agent) : Channel :=
  if c.writer=some agent then {c with writer := none} else c

/-- The channel is not used any more. -/
def mark (c : Channel) : Channel := {c with alive := false}

/-- A reply is handed to the query it is for. -/
def deliver (c : Channel) (frame : Bytes) : Channel :=
  match dnsReply frame with
  | none => c
  | some (slot,id,payload) =>
    if (c.entries.lookup id).any (fun entry => entry.1 == slot) then
      c.resolve id (.delivered payload)
    else c

end Channel

/-- What wakes the writing of a frame. -/
inductive WriteInput where
  | go
  | written
  | broken (e : String)
  | expired

/-- Writing goes on, or it is over. -/
abbrev Written := WriteAt ⊕ Except String Unit

/-- One step of writing a frame. -/
def writeStep (c : Channel) (agent : Agent) :
    WriteAt → WriteInput → Option (Channel × Written × List Event)
  | .entering,.go =>
    if c.alive then some (c,.inl .queued,[]) else some (c,.inr (.error closedError),[])
  | .queued,.go =>
    if c.writer=none then some ({c with writer := some agent},.inl .locked,[]) else none
  | .queued,.expired => some (c,.inl (.failing "Psiphon UDPGW write timeout" 1 false),[])
  | .locked,.go =>
    if c.alive then some (c,.inl .writing,[])
    else some (c.release agent,.inl (.failing closedError 1 false),[])
  | .writing,.written => some (c.release agent,.inr (.ok ()),[])
  -- the guard of a half written frame gives the channel up, and the write does so again
  | .writing,.broken e => some (c,.inl (.failing e 2 false),[])
  | .writing,.expired => some (c,.inl (.failing "Psiphon UDPGW write timeout" 2 false),[])
  | .failing e left false,.go => some (c.mark,.inl (.failing e left true),[])
  | .failing e left true,.go =>
    some (c.drain.release agent,
      if left≤1 then .inr (.error e) else .inl (.failing e (left-1) false),[.invalidated])
  | _,_ => none

/-- What wakes a query. -/
inductive Input where
  | write (i : WriteInput)
  /-- Something is there for it. -/
  | reply
  | expired
  /-- Nobody waits for it any more. -/
  | cancel
  | go

/-- The answer to a query: a message with the number the query came with. -/
def restore (query payload : Bytes) : Bytes := query.take 2++payload.drop 2

/-- What a query makes of what it was handed. -/
def Inbox.result (query : Bytes) : Inbox → Option (Except String Bytes)
  | .waiting => none
  | .delivered payload => some (.ok (restore query payload))
  | .failed e => some (.error e)
  | .dropped => some (.error "Psiphon DNS query cancelled")

namespace Channel

/-- One step of a query. -/
def exchangeStep (c : Channel) (x : ℕ) (e : Exchange) :
    Stage → Input → Option (Channel × List Event)
  | .write place,.write i =>
    match writeStep c (.exchange x) place i with
    | none => none
    | some (c',.inl place',events) => some (c'.setStage x (.write place'),events)
    | some (c',.inr (.error m),events) =>
      some (c'.setStage x (.leaving (some (.error m))),events)
    | some (c',.inr (.ok ()),events) =>
      some (c'.setStage x .awaiting,events++[.sent x (dnsFrame e.slot e.id e.query e.resolver)])
  | .write .queued,.cancel | .awaiting,.cancel => some (c.setStage x (.leaving none),[])
  | .write .writing,.cancel => some (c.setStage x (.cancelling false),[])
  | .awaiting,.reply =>
    (e.inbox.result e.query).map fun result => (c.setStage x (.leaving (some result)),[])
  | .awaiting,.expired =>
    some (c.setStage x (.leaving (some (.error "Psiphon DNS reply timeout"))),[])
  | .cancelling false,.go => some (c.mark.setStage x (.cancelling true),[])
  | .cancelling true,.go =>
    some ((c.drain.release (.exchange x)).setStage x (.leaving none),[.invalidated])
  | .leaving result,.go =>
    let c' := c.resolve e.id .dropped
    some ({c' with exchanges := Function.update c'.exchanges x none},
      [result.elim (.cancelled x) (.returned x)])
  | _,_ => none

/-- A query begins: it gets a number and a slot, unless too many are pending. -/
def start (c : Channel) (query : Bytes) (resolver : Option Ipv4Addr) :
    Option (Channel × List Event) :=
  let x := c.nextExchange
  if maxPending≤c.entries.entries.length then
    some ({c with nextExchange := x+1},
      [.asked x query resolver,.returned x (.error "Psiphon DNS query table full")])
  else
    (freshId c.entries 65536 c.nextId).map fun id =>
      let slot := c.nextSlot % dnsSlots+1
      ({c with
        nextId := id
        nextSlot := slot
        entries := c.entries.insert id (slot,x)
        nextExchange := x+1
        exchanges := Function.update c.exchanges x
          (some ⟨query,resolver,id,slot,.write .entering,.waiting⟩)},[.asked x query resolver])

/-- One step of the task that keeps the stream alive. -/
def keeperStep (c : Channel) : Keeper → WriteInput → Option (Channel × List Event)
  | .sleeping,.go => some ({c with keeper := .write .entering},[])
  | .write place,i =>
    (writeStep c .keeper place i).map fun (c',written,events) =>
      ({c' with keeper := match written with
          | .inl place' => .write place'
          | .inr (.ok ()) => .sleeping
          | .inr (.error _) => .ended},events)
  | _,_ => none

end Channel

/-- What the reader does. -/
inductive ReaderInput where
  | frame (bytes : Bytes)
  /-- The stream has failed, or the channel is given up. -/
  | stop
  | go

/-- One step of the reader. -/
def Channel.readerStep (c : Channel) : Reader → ReaderInput → Option (Channel × List Event)
  | .looking,.go => some ({c with reader := if c.alive then .reading else .closing false},[])
  | .reading,.frame bytes =>
    if 3≤bytes.length ∧ bytes.length≤23+maxDns then
      some ({c.deliver bytes with reader := .looking},[.received bytes])
    else some ({c with reader := .closing false},[])
  | .reading,.stop => some ({c with reader := .closing false},[])
  | .closing false,.go => some ({c.mark with reader := .closing true},[])
  | .closing true,.go => some ({c.drain with reader := .ended},[.invalidated])
  | _,_ => none

/-- What may happen next. -/
inductive Action where
  | start (query : Bytes) (resolver : Option Ipv4Addr)
  | exchange (x : ℕ) (input : Input)
  | keeper (input : WriteInput)
  | reader (input : ReaderInput)

/-- One step of the whole; nothing when something has to wait. -/
def Channel.exec (c : Channel) : Action → Option (Channel × List Event)
  | .start query resolver => c.start query resolver
  | .exchange x input =>
    match c.exchanges x with
    | none => none
    | some e => c.exchangeStep x e e.stage input
  | .keeper input => c.keeperStep c.keeper input
  | .reader input => c.readerStep c.reader input

/-- A query has at least the two bytes of its number. -/
def Action.allowed : Action → Bool
  | .start query _ => decide (2≤query.length)
  | _ => true

/-- Queries, replies and failures in any order. -/
def machine : Machine Channel Action Event where
  start c := c=Channel.new
  allowed _ a := a.allowed=true
  exec := Channel.exec

end MsnGuard.UdpgwExchanges
