import MsnGuard.FiniteTables
import MsnGuard.SmartDnsMessages
import MsnGuard.TransitionRuns
import MsnGuard.UdpgwFrames

/-!
# The datagram gateway with a shared channel for DNS

The device sends its datagrams over one stream at a time. A DNS query among them gets a number
of the front's own, waits in a table and goes to one resolver and then to another. Every other
flow has an association. The tables and the channels are fields of the front, which every stream
sets when it begins and clears when it ends.
-/

namespace MsnGuard.ShardFront

open RustText IpAddresses FiniteTables TransitionRuns UdpgwFrames SmartDnsMessages
open OctetsVarint (beBytes)

/-- As many associations and as many queries may be kept. -/
def maxAssociations : ℕ := 192

/-- How long an association may be idle, in milliseconds. -/
def udpIdleTimeout : ℕ := 60000

/-- After this many milliseconds a query goes to the next resolver. -/
def dnsRetry : ℕ := 1200

/-- After this many milliseconds a query is given up. -/
def dnsPendingTtl : ℕ := 5000

/-- The longest datagram that is sent. -/
def udpMaxPayload : ℕ := 500

/-- The longest datagram that is received. -/
def udpBuffer : ℕ := 4096

/-- The resolvers. -/
def dnsUpstreams : List IpAddr := [.v4 (ipv4OfOctets 1 1 1 1),.v4 (ipv4OfOctets 8 8 8 8)]

/-- The resolver with an index. -/
def dnsUpstream (index : ℕ) : IpAddr :=
  dnsUpstreams.getD (index % dnsUpstreams.length) (.v4 (ipv4OfOctets 1 1 1 1))

/-- What a query is and stays. -/
structure Asked where
  /-- The stream it came from. -/
  stream : ℕ
  conid : ℕ
  isIpv6 : Bool
  clientAddress : Bytes
  originalId : ℕ
  /-- The number that was drawn for it. -/
  seq : ℕ
  /-- The message, with its token for an identifier. -/
  query : Bytes

/-- What a query is known by on the channels. -/
def Asked.token (q : Asked) : ℕ := q.seq % 65536

/-- A query that waits for an answer. -/
structure DnsPending where
  asked : Asked
  sentAt : ℕ
  tried : ℕ
  /-- The resolver that was asked first. -/
  order : ℕ

/-- The sockets of an association or of a channel. -/
structure Link where
  /-- The stream it was opened for. -/
  stream : ℕ
  lastUsed : ℕ
  isOpen : Bool

/-- What is set up and cleared for a stream. -/
inductive Chore where
  | closeAssociations
  | clearAssociations
  | output
  | lock
  | forget
  | closeChannels
  | clearChannels
  deriving DecidableEq

/-- Where the thread of a stream stands. -/
inductive Phase where
  | starting (chore : Chore)
  | reading
  /-- A query is about to get its number. -/
  | drawing (conid : ℕ) (isIpv6 : Bool) (d : Datagram)
  | checking (x : ℕ)
  /-- The oldest query gives way. -/
  | evicting (x token : ℕ)
  | storing (x : ℕ)
  | asking (x : ℕ)
  /-- A datagram of some length is for a flow. -/
  | looking (conid size : ℕ)
  | absent (conid size : ℕ)
  | opening (conid size : ℕ)
  | keeping (conid a size : ℕ)
  | sending (conid a size : ℕ)
  | ending (chore : Chore)
  | ended
  deriving DecidableEq

/-- The front. -/
structure Front where
  now : ℕ
  running : Bool
  dnsSeq : ℕ
  dnsPreferred : ℕ
  /-- All queries there have been. -/
  queries : Table DnsPending
  nextQuery : ℕ
  /-- Which query has a token. -/
  dnsPending : Table ℕ
  /-- The queries that have been taken, with their replies, by whoever took them. -/
  claims : Table (ℕ × Bytes)
  /-- The tokens of queries that are to be given up. -/
  expiring : List ℕ
  /-- The queries that are to go to the next resolver, with the times they were looked at. -/
  resending : List (ℕ × ℕ)
  /-- The channels of the resolvers. -/
  dnsChannels : Table ℕ
  associations : Table ℕ
  /-- All associations and channels there have been. -/
  links : Table Link
  nextLink : ℕ
  /-- The flows whose associations have been closed and are to be removed. -/
  reaping : List ℕ
  /-- The stream that replies are written to. -/
  udpgwOut : Option ℕ
  /-- The stream whose lock they are written under. -/
  udpgwLock : Option ℕ
  streams : Table Phase
  nextStream : ℕ

/-- A query as it came, with the number that was drawn for it. -/
structure Submission where
  conid : ℕ
  isIpv6 : Bool
  d : Datagram
  seq : ℕ
  deriving DecidableEq

/-- What a query is known by on the channels. -/
def Submission.token (s : Submission) : ℕ := s.seq % 65536

/-- What can be seen of the front. -/
inductive Event where
  /-- A query of the device gets a number. -/
  | submitted (x : ℕ) (s : Submission)
  /-- A query waits, in the place of another one if that has the same token. -/
  | stored (x : ℕ) (replaced : Option ℕ)
  /-- A datagram leaves on a channel. -/
  | asked (x : ℕ) (datagram : Bytes)
  /-- A reply takes its query from the table. -/
  | claimed (x : ℕ) (reply : Bytes)
  /-- A frame is written to a stream. -/
  | written (x : ℕ) (reply : Bytes) (stream : ℕ) (frame : Bytes)
  /-- The end of a stream clears something that some streams had. -/
  | tornDown (stream : ℕ) (chore : Chore) (lost : List ℕ)
  deriving DecidableEq

/-- What the thread of a stream may do. -/
inductive ReaderInput where
  | frame (body : Bytes)
  | go
  /-- The far side may agree to a channel, and sending may succeed. -/
  | ask (agreed sent : Bool)
  /-- The far side may agree to an association. -/
  | opened (agreed : Bool)
  | send (sent : Bool)
  /-- The stream is over. -/
  | down

/-- What may happen next. -/
inductive Action where
  | advance (milliseconds : ℕ)
  | start
  | stop
  | streamUp
  | reader (r : ℕ) (input : ReaderInput)
  /-- A channel is opened in advance, and a query of the front's own is sent on it. -/
  | warm (r index : ℕ) (agreed : Bool)
  | probe (index : ℕ)
  /-- A datagram arrives on a channel, and the reply in it is written. -/
  | reply (p index : ℕ) (packet : Bytes)
  | write (p : ℕ)
  /-- A query is looked at, and given up or sent again. -/
  | look (token captured : ℕ)
  | expire (token : ℕ)
  | resend (x captured : ℕ) (agreed sent : Bool)
  /-- A channel or an association is over. -/
  | channelEnds (index c : ℕ)
  | associationEnds (conid a : ℕ)
  /-- Something comes back on an association. -/
  | receive (a : ℕ)
  /-- An association is looked at, and closed and removed if it was idle. -/
  | reap (conid : ℕ)
  | remove (conid : ℕ)

namespace Front

/-- Change the sockets of an association or a channel. -/
def modifyLink (f : Front) (a : ℕ) (change : Link → Link) : Front :=
  match f.links.lookup a with
  | some link => {f with links := f.links.insert a (change link)}
  | none => f

/-- Close an association or a channel. -/
def close (f : Front) (a : ℕ) : Front := f.modifyLink a fun link => {link with isOpen := false}

/-- Close several. -/
def closeAll (f : Front) (table : Table ℕ) : Front :=
  table.entries.foldl (fun g e => g.close e.2) f

/-- Open an association or a channel for a stream. -/
def openLink (f : Front) (stream : ℕ) : Front :=
  {f with
    links := f.links.insert f.nextLink ⟨stream,f.now,true⟩
    nextLink := f.nextLink+1}

/-- Is an association or a channel open? -/
def live (f : Front) (a : ℕ) : Bool := (f.links.lookup a).any (·.isOpen)

/-- The streams that have the associations or channels of a table. -/
def linkOwners (f : Front) (table : Table ℕ) : List ℕ :=
  table.entries.filterMap fun e => (f.links.lookup e.2).map (·.stream)

/-- The streams that have queries in the table. -/
def queryOwners (f : Front) : List ℕ :=
  f.dnsPending.entries.filterMap fun e => (f.queries.lookup e.2).map (·.asked.stream)

/-- The thread of a stream goes on. -/
def goOn (f : Front) (r : ℕ) (phase : Phase) : Front :=
  {f with streams := f.streams.insert r phase}

/-- Change when a query was sent and to whom. -/
def modifyQuery (f : Front) (x : ℕ) (change : DnsPending → DnsPending) : Front :=
  match f.queries.lookup x with
  | some q => {f with queries := f.queries.insert x {change q with asked := q.asked}}
  | none => f

/-- The channel of a resolver, opened for a stream if there is none. -/
def dnsChannel (f : Front) (stream index : ℕ) (agreed : Bool) : Front × Option ℕ :=
  match (f.dnsChannels.lookup index).filter f.live with
  | some c => (f,some c)
  | none =>
    if agreed then
      ({f.openLink stream with dnsChannels := f.dnsChannels.insert index f.nextLink},
        some f.nextLink)
    else (f,none)

/-- Send a query to a resolver. -/
def sendDnsQuery (f : Front) (stream x index : ℕ) (query : Bytes) (agreed sent : Bool) :
    Front × List Event :=
  let opened := f.dnsChannel stream index agreed
  match opened.2 with
  | none => (opened.1,[])
  | some c =>
    if udpMaxPayload<query.length then (opened.1,[])
    else if sent && opened.1.live c then
      (opened.1.modifyLink c fun link => {link with lastUsed := f.now},
        [.asked x (encapsulate (dnsUpstream index) 53 query)])
    else
      match opened.1.dnsChannels.lookup index with
      | some c' => ({opened.1 with dnsChannels := opened.1.dnsChannels.erase index}.close c',[])
      | none => (opened.1,[])

/-- A query gets a number and a token. -/
def draw (f : Front) (r conid : ℕ) (isIpv6 : Bool) (d : Datagram) : Front × List Event :=
  let seq := f.dnsSeq+1
  let token := seq % 65536
  let asked : Asked :=
    {stream := r
     conid
     isIpv6
     clientAddress := d.address
     originalId := word d.payload 0
     seq
     query := beBytes 2 token++d.payload.drop 2}
  ({f with
      dnsSeq := seq
      queries := f.queries.insert f.nextQuery ⟨asked,f.now,1,0⟩
      nextQuery := f.nextQuery+1}.goOn r (.checking f.nextQuery),
    [.submitted f.nextQuery ⟨conid,isIpv6,d,seq⟩])

/-- A query is submitted, unless it is too short for one. -/
def submitDnsQuery (f : Front) (r conid : ℕ) (isIpv6 : Bool) (d : Datagram) : Front × List Event :=
  if d.payload.length<12 then (f.goOn r .reading,[]) else f.draw r conid isIpv6 d

/-- When a query was last sent. -/
def sentAt (f : Front) (x : ℕ) : ℕ := ((f.queries.lookup x).map (·.sentAt)).getD 0

/-- The token of the query that was sent least recently. -/
def oldest (f : Front) : Option ℕ :=
  (f.dnsPending.entries.argmin fun e => f.sentAt e.2).map (·.1)

/-- Is there room for one more query? -/
def check (f : Front) (r x : ℕ) : Front :=
  if maxAssociations≤f.dnsPending.entries.length then
    -- A reply may take the oldest query before it is removed.
    match f.oldest with
    | some token => f.goOn r (.evicting x token)
    | none => f.goOn r (.storing x)
  else f.goOn r (.storing x)

/-- A query begins to wait. -/
def store (f : Front) (r x : ℕ) (q : DnsPending) : Front × List Event :=
  ({f with dnsPending := f.dnsPending.insert q.asked.token x}.goOn r (.asking x),
    [.stored x (f.dnsPending.lookup q.asked.token)])

/-- A query goes to the preferred resolver first. -/
def ask (f : Front) (r x : ℕ) (q : DnsPending) (agreed sent : Bool) : Front × List Event :=
  let ordered := f.modifyQuery x fun q => {q with order := f.dnsPreferred}
  let asked := ordered.sendDnsQuery r x f.dnsPreferred q.asked.query agreed sent
  (asked.1.goOn r .reading,asked.2)

/-- Remove a flow, and close its association. -/
def removeAndClose (f : Front) (conid : ℕ) : Front :=
  match f.associations.lookup conid with
  | some a => {f with associations := f.associations.erase conid}.close a
  | none => f

/-- A frame arrives. -/
def takeFrame (f : Front) (r : ℕ) (body : Bytes) : Front :=
  match parseFrame body with
  | none => f
  | some frame =>
    let freed := if frame.rebind then f.removeAndClose frame.conid else f
    match frame.datagram with
    | none => freed
    | some d =>
      if frame.dns ∨ d.port=53 then freed.goOn r (.drawing frame.conid frame.isIpv6 d)
      else freed.goOn r (.looking frame.conid d.payload.length)

/-- When an association was used last. -/
def lastUsed (f : Front) (a : ℕ) : ℕ := ((f.links.lookup a).map (·.lastUsed)).getD 0

/-- Make room for one more association. -/
def makeRoom (f : Front) : Front :=
  if maxAssociations≤f.associations.entries.length then
    match (f.associations.entries.argmin fun e => f.lastUsed e.2).map (·.1) with
    | some conid => f.removeAndClose conid
    | none => f
  else f

/-- Send a datagram. A long one ends its flow, and so does a failure. -/
def sendOn (f : Front) (conid a size : ℕ) (sent : Bool) : Front :=
  let used := f.modifyLink a fun link => {link with lastUsed := f.now}
  if udpMaxPayload<size then
    {used.close a with associations := f.associations.erase conid}
  else if sent && f.live a then used
  else used.removeAndClose conid

/-- A stream begins: one thing after the other is set up for it. -/
def setUp (f : Front) (r : ℕ) : Chore → Front
  | .closeAssociations => (f.closeAll f.associations).goOn r (.starting .clearAssociations)
  | .clearAssociations => {f with associations := ∅}.goOn r (.starting .output)
  | .output => {f with udpgwOut := some r}.goOn r (.starting .lock)
  | .lock => {f with udpgwLock := some r}.goOn r (.starting .forget)
  | .forget => {f with dnsPending := ∅}.goOn r .reading
  -- The channels are left as they are.
  | .closeChannels | .clearChannels => f.goOn r .reading

/-- A stream ends: one thing after the other is cleared. -/
def tearDown (f : Front) (r : ℕ) : Chore → Front × List ℕ
  | .closeAssociations =>
    ((f.closeAll f.associations).goOn r (.ending .clearAssociations),f.linkOwners f.associations)
  | .clearAssociations =>
    ({f with associations := ∅}.goOn r (.ending .output),f.linkOwners f.associations)
  | .output => ({f with udpgwOut := none}.goOn r (.ending .lock),f.udpgwOut.toList)
  | .lock => ({f with udpgwLock := none}.goOn r (.ending .forget),f.udpgwLock.toList)
  | .forget => ({f with dnsPending := ∅}.goOn r (.ending .closeChannels),f.queryOwners)
  | .closeChannels =>
    ((f.closeAll f.dnsChannels).goOn r (.ending .clearChannels),f.linkOwners f.dnsChannels)
  | .clearChannels => ({f with dnsChannels := ∅}.goOn r .ended,f.linkOwners f.dnsChannels)

/-- The thread of a stream takes a step. -/
def readerStep (f : Front) (r : ℕ) : Phase → ReaderInput → Option (Front × List Event)
  | .starting chore,.go => some (f.setUp r chore,[])
  | .reading,.frame body => some (f.takeFrame r body,[])
  | .reading,.down => some (f.goOn r (.ending .closeAssociations),[])
  | .drawing conid isIpv6 d,.go => some (f.submitDnsQuery r conid isIpv6 d)
  | .checking x,.go => some (f.check r x,[])
  | .evicting x token,.go =>
    some ({f with dnsPending := f.dnsPending.erase token}.goOn r (.storing x),[])
  | .storing x,.go => (f.queries.lookup x).map fun q => f.store r x q
  | .asking x,.ask agreed sent => (f.queries.lookup x).map fun q => f.ask r x q agreed sent
  | .looking conid size,.go =>
    match f.associations.lookup conid with
    | some a => some (f.goOn r (.sending conid a size),[])
    | none => some (f.goOn r (.absent conid size),[])
  | .absent conid size,.go => some (f.makeRoom.goOn r (.opening conid size),[])
  | .opening conid size,.opened agreed =>
    if agreed then some ((f.openLink r).goOn r (.keeping conid f.nextLink size),[])
    else some (f.goOn r .reading,[])
  | .keeping conid a size,.go =>
    let kept := {f with associations := f.associations.insert conid a}
    some (kept.goOn r (.sending conid a size),[])
  | .sending conid a size,.send sent => some ((f.sendOn conid a size sent).goOn r .reading,[])
  | .ending chore,.go =>
    let torn := f.tearDown r chore
    some (torn.1,[.tornDown r chore torn.2])
  | _,_ => none

/-- A datagram arrives on the channel of a resolver. -/
def takeReply (f : Front) (p index : ℕ) (packet : Bytes) : Front × List Event :=
  match decapsulate (packet.take udpBuffer) with
  | none => (f,[])
  | some payload =>
    if payload.length<12 then (f,[])
    else
      match f.dnsPending.lookup (word payload 0) with
      | none => (f,[])
      | some x =>
        -- Looking up and removing is one step, so that no other reply finds the query.
        ({f with
            dnsPending := f.dnsPending.erase (word payload 0)
            dnsPreferred := index
            claims := f.claims.insert p (x,payload)},[.claimed x payload])

/-- A reply is written, with the identifier of its query restored. -/
def writeReply (f : Front) (p x : ℕ) (payload : Bytes) (q : Asked) : Front × List Event :=
  let done := {f with claims := f.claims.erase p}
  match f.udpgwOut,f.udpgwLock with
  | some stream,some _ =>
    (done,[.written x payload stream
      (replyFrame q.conid q.isIpv6 q.clientAddress (beBytes 2 q.originalId++payload.drop 2))])
  | _,_ => (done,[])

/-- A query is looked at, at a time that was taken before. -/
def look (f : Front) (token captured : ℕ) : Front :=
  match f.dnsPending.lookup token with
  | none => f
  | some x =>
    match f.queries.lookup x with
    | none => f
    | some q =>
      if q.sentAt+dnsPendingTtl<captured then {f with expiring := token::f.expiring}
      else if q.sentAt+dnsRetry<captured ∧ q.tried<dnsUpstreams.length then
        {f with resending := (x,captured)::f.resending}
      else f

/-- A query goes to the next resolver. -/
def resend (f : Front) (x captured : ℕ) (q : DnsPending) (agreed sent : Bool) :
    Front × List Event :=
  let index := (q.order+q.tried) % dnsUpstreams.length
  let again := {f with resending := f.resending.erase (x,captured)}.modifyQuery x fun q =>
    {q with
      tried := q.tried+1
      sentAt := captured}
  again.sendDnsQuery q.asked.stream x index q.asked.query agreed sent

/-- Close an association that was idle. -/
def reap (f : Front) (conid : ℕ) : Front :=
  match f.associations.lookup conid with
  | some a =>
    if f.lastUsed a+udpIdleTimeout<f.now then
      {f.close a with reaping := conid::f.reaping}
    else f
  | none => f

/-- One step. -/
def exec (f : Front) : Action → Option (Front × List Event)
  | .advance milliseconds => some ({f with now := f.now+milliseconds},[])
  | .start => some ({f with running := true},[])
  | .stop =>
    some (if f.running then
      {f.closeAll f.dnsChannels with
        running := false
        dnsPending := ∅
        dnsChannels := ∅}
      else f,[])
  | .streamUp =>
    some ({f with
      streams := f.streams.insert f.nextStream (.starting .closeAssociations)
      nextStream := f.nextStream+1},[])
  | .reader r input => (f.streams.lookup r).bind fun phase => f.readerStep r phase input
  | .warm r index agreed =>
    if (f.streams.lookup r).isSome then some ((f.dnsChannel r index agreed).1,[]) else none
  | .probe index =>
    some (if (f.dnsChannels.lookup index).isSome then {f with dnsSeq := f.dnsSeq+1} else f,[])
  | .reply p index packet =>
    if (f.claims.lookup p).isSome then none else some (f.takeReply p index packet)
  | .write p => (f.claims.lookup p).bind fun claim =>
    (f.queries.lookup claim.1).map fun q => f.writeReply p claim.1 claim.2 q.asked
  | .look token captured => if captured≤f.now then some (f.look token captured,[]) else none
  | .expire token =>
    if f.expiring.contains token then
      some ({f with
        dnsPending := f.dnsPending.erase token
        expiring := f.expiring.erase token},[])
    else none
  | .resend x captured agreed sent =>
    if f.resending.contains (x,captured) then
      (f.queries.lookup x).map fun q => f.resend x captured q agreed sent
    else none
  | .channelEnds index c =>
    some ({f with
      dnsChannels := if f.dnsChannels.lookup index=some c then f.dnsChannels.erase index
        else f.dnsChannels}.close c,[])
  | .associationEnds conid a =>
    some ({f with
      associations := if f.associations.lookup conid=some a then f.associations.erase conid
        else f.associations}.close a,[])
  | .receive a => some (f.modifyLink a fun link => {link with lastUsed := f.now},[])
  | .reap conid => some (f.reap conid,[])
  | .remove conid =>
    if f.reaping.contains conid then
      some ({f with
        associations := f.associations.erase conid
        reaping := f.reaping.erase conid},[])
    else none

end Front

/-- The front with its streams, channels and timers in any order. It may have drawn numbers
and learned a resolver before. -/
def machine : Machine Front Action Event where
  start f := ∃ seq preferred, f=⟨0,false,seq,preferred,∅,0,∅,∅,[],[],∅,∅,∅,0,[],none,none,∅,0⟩
  allowed _ _ := True
  exec := Front.exec

end MsnGuard.ShardFront
