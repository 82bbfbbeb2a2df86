import MsnGuard.FiniteTables
import MsnGuard.SmartDnsMessages
import MsnGuard.TransitionRuns

/-!
# The DNS front

A query is answered by a policy, from a cache or by a worker that asks a resolver. The workers
share one socket: each sends its query under a number of its own and takes the next datagram
that comes in, whichever it is. The answers for addresses are kept with the lifetime the
resolver gave them.
-/

namespace MsnGuard.SmartDnsFront

open RustText IpAddresses SmartDnsMessages TransitionRuns FiniteTables

/-- The largest datagram that is taken in. -/
def udpBuffer : ℕ := 4096

/-- How many seconds an answer without a record is kept. -/
def nodataTtl : ℕ := 30

/-- The port of the resolver. -/
def dnsPort : ℕ := 53

/-- The resolver that is asked. -/
def currentResolver : IpAddr := .v4 (ipv4OfOctets 1 1 1 1)

/-- An address with the lifetime it came with. -/
structure CachedAnswer where
  /-- The four bytes of the address. -/
  address : Bytes
  /-- The lifetime as a signed number. -/
  ttlSeconds : BitVec 32
  /-- The time in milliseconds from which it is not used any more. -/
  expiresAt : ℤ

/-- Is the address still used? -/
def CachedAnswer.isLive (cached : CachedAnswer) (now : ℕ) : Bool :=
  decide ((now : ℤ)<cached.expiresAt)

/-- A query with a worker. -/
structure Task where
  /-- The query as it came. -/
  query : Bytes
  /-- The name it asks for. -/
  name : Bytes
  /-- The type it asks for. -/
  type : ℕ
  /-- The association on which the worker has sent it and waits for a datagram. -/
  asking : Option ℕ

/-- The front with its workers and their socket. -/
structure Front where
  /-- The time in milliseconds. -/
  now : ℕ
  /-- Addresses by the name in lower case. -/
  nameCache : Bytes → Option CachedAnswer
  /-- Until when a name has no record of a type. -/
  nodataCache : Bytes × ℕ → Option ℕ
  /-- The number given last. -/
  dnsSeq : ℕ
  /-- Which association the workers share. -/
  association : ℕ
  /-- The messages of which a reply can still come in. -/
  outstanding : List Bytes
  /-- The datagrams that have come in. -/
  buffer : List Bytes
  /-- The queries with a worker. -/
  tasks : Table Task
  /-- How many there have been. -/
  nextTask : ℕ

/-- What can be seen of the front. -/
inductive Event where
  /-- The policy answers. -/
  | replied (query reply : Bytes)
  /-- The cache answers. -/
  | hit (time : ℕ) (query reply : Bytes)
  | asked (datagram : Bytes)
  /-- A response is put into the cache. -/
  | learned (name : Bytes) (time : ℕ) (response : Bytes)
  /-- A response is handed to whoever asked. -/
  | relayed (query response : Bytes)
  /-- The encrypted resolvers have failed. -/
  | refused (query : Bytes)
  deriving DecidableEq

namespace Front

/-- The front at its start. -/
def new : Front := ⟨0,fun _ => none,fun _ => none,0,0,[],[],∅,0⟩

/-- A worker gets the query. -/
def enqueue (f : Front) (query name : Bytes) (type : ℕ) : Front :=
  {f with
    tasks := f.tasks.insert f.nextTask ⟨query,name,type,none⟩
    nextTask := f.nextTask+1}

/-- Answer from the cache, or get a worker. -/
def answerOrAsk (f : Front) (query name : Bytes) (type : ℕ) : Front × List Event :=
  match f.nameCache (lowercase name) with
  | some cached =>
    if type=qtypeA ∧ cached.isLive f.now then
      (f,[.hit f.now query (aAnswer query cached.address cached.ttlSeconds)])
    else (f.enqueue query name type,[])
  | none => (f.enqueue query name type,[])

/-- Answer by the policy, or go on. -/
def byPolicy (f : Front) (egressV4Only : Bool) (query name : Bytes) (type : ℕ) :
    Front × List Event :=
  if egressV4Only ∧ (type=qtypeAaaa ∨ type=qtypeHttps) then
    ({f with
      nodataCache := Function.update f.nodataCache (lowercase name,type)
        (some (f.now+nodataTtl*1000))},[.replied query (nodataAnswer query)])
  else f.answerOrAsk query name type

/-- A query comes in. -/
def handleDnsQuery (f : Front) (egressV4Only : Bool) (query : Bytes) : Front × List Event :=
  if query.length<12 then (f,[])
  else match queryName query with
    | none => (f,[])
    | some name =>
      let type := queryType query
      match f.nodataCache (lowercase name,type) with
      | some marked =>
        if f.now < marked then (f,[.replied query (nodataAnswer query)])
        else {f with
            nodataCache := Function.update f.nodataCache (lowercase name,type) none}.byPolicy
          egressV4Only query name type
      | none => f.byPolicy egressV4Only query name type

/-- The address of a response is put into the cache. -/
def learn (f : Front) (name response : Bytes) : Front × List Event :=
  match parseFirstA response with
  | some (address,ttl) =>
    ({f with
      nameCache := Function.update f.nameCache (lowercase name)
        (some ⟨address,ttl,f.now+ttl.toInt*1000⟩)},
      [.learned (lowercase name) f.now response])
  | none => (f,[])

/-- A response is handed over; one for an address goes through the cache. -/
def deliver (f : Front) (task : Task) (response : Bytes) : Front × List Event :=
  if task.type=qtypeA then
    let (f',events) := f.learn task.name response
    (f',events++[.relayed task.query response])
  else (f,[.relayed task.query response])

/-- The worker of a query is done. -/
def finish (f : Front) (x : ℕ) : Front := {f with tasks := f.tasks.erase x}

/-- A worker sends its query, unless there is no association or the socket fails. -/
def ask (f : Front) (x : ℕ) (task : Task) (opened sent : Bool) : Front × List Event :=
  let token := (f.dnsSeq+1) % 65536
  let request := rewriteId task.query token
  if opened then
    if sent then
      ({f with
        dnsSeq := f.dnsSeq+1
        outstanding := f.outstanding++[request]
        tasks := f.tasks.insert x {task with asking := some f.association}},
        [.asked (encapsulate currentResolver dnsPort request)])
    else ({f with dnsSeq := f.dnsSeq+1}.finish x,[])
  else (f.finish x,[])

/-- A worker takes the datagram that is next. -/
def receive (f : Front) (x : ℕ) (task : Task) : Option (Front × List Event) :=
  match f.buffer with
  | [] => none
  | datagram::rest =>
    let f' := {f with buffer := rest}.finish x
    match decapsulate (datagram.take udpBuffer) with
    | none => some (f',[])
    | some response =>
      if response.length<12 then some (f',[])
      else some (f'.deliver task (restoreId task.query response))

/-- The association is closed, and the next worker opens another. -/
def close (f : Front) : Front :=
  {f with
    association := f.association+1
    outstanding := []
    buffer := []}

/-- The encrypted resolvers answer a worker, or fail. -/
def resolved (f : Front) (x : ℕ) (task : Task) : Option Bytes → Front × List Event
  | none => (f.finish x,[.refused task.query])
  | some answer => (f.finish x).deliver task answer

end Front

/-- What may happen next. -/
inductive Action where
  | advance (milliseconds : ℕ)
  | query (egressV4Only : Bool) (bytes : Bytes)
  | ask (x : ℕ) (opened sent : Bool)
  /-- A datagram comes in that answers a message. -/
  | arrive (request datagram : Bytes)
  /-- A message or its reply is lost. -/
  | lose (request : Bytes)
  | receive (x : ℕ)
  /-- A worker has waited long enough, or its association is closed. -/
  | expire (x : ℕ)
  | resolved (x : ℕ) (answer : Option Bytes)
  /-- The association has been idle. -/
  | close
  /-- The front is stopped and started, with nothing in its caches. -/
  | clear

/-- One step of the front; a worker asks the socket or the encrypted resolvers. -/
def Front.exec (encrypted : Bool) (f : Front) : Action → Option (Front × List Event)
  | .advance milliseconds => some ({f with now := f.now+milliseconds},[])
  | .query egressV4Only bytes => some (f.handleDnsQuery egressV4Only bytes)
  | .ask x opened sent =>
    (f.tasks.lookup x).bind fun task =>
      if task.asking.isSome ∨ encrypted then none else some (f.ask x task opened sent)
  | .arrive request datagram =>
    some ({f with
      outstanding := f.outstanding.erase request
      buffer := f.buffer++[datagram]},[])
  | .lose request => some ({f with outstanding := f.outstanding.erase request},[])
  | .receive x =>
    (f.tasks.lookup x).bind fun task =>
      if task.asking=some f.association then f.receive x task else none
  | .expire x =>
    (f.tasks.lookup x).bind fun task => if task.asking.isSome then some (f.finish x,[]) else none
  | .resolved x answer =>
    (f.tasks.lookup x).bind fun task =>
      if encrypted then some (f.resolved x task answer) else none
  | .close => some (f.close,[])
  | .clear => some ({f.close with nameCache := fun _ => none, nodataCache := fun _ => none},[])

/-- Queries, replies, losses and the passing of time in any order. -/
def machine (encrypted : Bool) : Machine Front Action Event where
  start f := f=Front.new
  allowed _ _ := True
  exec := Front.exec encrypted

end MsnGuard.SmartDnsFront
