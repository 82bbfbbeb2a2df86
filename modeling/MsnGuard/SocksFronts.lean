import MsnGuard.BufferedReads
import MsnGuard.SmartDnsRelays

/-!
# The four SOCKS fronts

Each front of the app reads a SOCKS5 greeting and a request through a buffer and answers some
requests itself. All others it hands on to a listener behind it. What it writes, whose names it
looks up and which bytes reach the service behind the request is its outcome.
-/

namespace MsnGuard.SocksFronts

open RustText IpAddresses BufferedReads
open OctetsVarint (beBytes beValue)
open SmartDnsRelays (replyFailure)

/-- The buffer of a buffered input stream. -/
def bufferSize : ℕ := 8192

/-- The buffer of a relay. -/
def relayBuffer : ℕ := 32*1024

/-- An input stream with its buffer. -/
abbrev Source := Buffered UInt8

/-- What the platform makes of addresses and names. -/
structure Platform where
  /-- The text of an IPv6 address. -/
  ipv6Text : Ipv6Addr → Text
  /-- The address that a text stands for by itself. -/
  literal : Text → Option IpAddr
  /-- Dotted decimal texts do. -/
  literal_ipv4 : ∀ a, literal (ipv4Text a)=some (.v4 a)
  /-- What the resolver of the device answers for a name. -/
  resolve : Text → Option IpAddr

/-- The address of a host, and the names that had to be looked up for it. -/
def Platform.getByName (p : Platform) (host : Text) : Option IpAddr × List Text :=
  match p.literal host with
  | some address => (some address,[])
  | none => (p.resolve host,[host])

/-- A platform that reads the usual texts of addresses and whose resolver knows no name. -/
def plainPlatform : Platform where
  ipv6Text _ := "::".toList
  literal := parseIpAddr
  literal_ipv4 := parseIpAddr_text
  resolve _ := none

/-- Where a request is to go. -/
inductive Destination where
  | ipv4 (address : Ipv4Addr)
  | ipv6 (address : Ipv6Addr)
  | domain (name : Text)

/-- The destination as the fronts pass it on. -/
def Platform.host (p : Platform) : Destination → Text
  | .ipv4 address => ipv4Text address
  | .ipv6 address => p.ipv6Text address
  | .domain name => name

/-- A request of a client. -/
structure Request where
  command : Option UInt8
  destination : Destination
  port : ℕ

/-- The text of ASCII bytes. -/
def asciiText (bytes : Bytes) : Text :=
  bytes.map fun b => if b.toNat<128 then Char.ofNat b.toNat else Char.ofNat 0xFFFD

/-- The ASCII bytes of a text. -/
def asciiBytes (text : Text) : Bytes :=
  text.map fun c => if c.toNat<128 then UInt8.ofNat c.toNat else 63

/-- A byte of the port; the end of the stream counts as ones. -/
def portByte (b : Option UInt8) : ℕ := (b.map UInt8.toNat).getD 255

/-- A request has been granted. -/
def replySuccess : Bytes := [5,0,0,1,0,0,0,0,0,0]

section Handshake

/-- Read the greeting. Some fronts want a method, and one that they know. What is written
before the connection is closed is the error. -/
def greetWith (least : ℕ) (accepts : Bytes → Bool) (s : Source) : Except (List Bytes) Source :=
  let version := s.read bufferSize
  if version.1≠some 5 then .error []
  else
    let methodCount := version.2.read bufferSize
    match methodCount.1 with
    | none => .error []
    | some count =>
      if count.toNat<least then .error []
      else match methodCount.2.readFully bufferSize count.toNat with
        | none => .error []
        | some (methods,rest) => if accepts methods then .ok rest else .error [[5,0xFF]]

/-- Read the address type and the address. -/
def readDestination (s : Source) : Except (List Bytes) (Destination × Source) :=
  let addressType := s.read bufferSize
  if addressType.1=some 1 then
    match addressType.2.readFully bufferSize 4 with
    | none => .error []
    | some (bytes,rest) => .ok (.ipv4 (BitVec.ofNat 32 (beValue bytes)),rest)
  else if addressType.1=some 4 then
    match addressType.2.readFully bufferSize 16 with
    | none => .error []
    | some (bytes,rest) => .ok (.ipv6 (BitVec.ofNat 128 (beValue bytes)),rest)
  else if addressType.1=some 3 then
    let length := addressType.2.read bufferSize
    match length.1 with
    | none => .error []
    | some count =>
      if count.toNat=0 then .error []
      else match length.2.readFully bufferSize count.toNat with
        | none => .error []
        | some (bytes,rest) => .ok (.domain (asciiText bytes),rest)
  else .error [replyFailure 1]

/-- Read the request. -/
def readRequest (s : Source) : Except (List Bytes) (Request × Source) :=
  let version := s.read bufferSize
  if version.1≠some 5 then .error []
  else
    let command := version.2.read bufferSize
    let reserved := command.2.read bufferSize
    match readDestination reserved.2 with
    | .error replies => .error replies
    | .ok (destination,rest) =>
      let high := rest.read bufferSize
      let low := high.2.read bufferSize
      .ok (⟨command.1,destination,portByte high.1*256+portByte low.1⟩,low.2)

end Handshake

/-- What serves a request, and the bytes of the client that it gets. -/
inductive Service where
  /-- The listener behind the front. -/
  | upstream (delivered : Bytes)
  /-- The front's own gateway for datagrams. -/
  | udpgw (delivered : Bytes)
  /-- The front's own DNS server. -/
  | dns (delivered : Bytes)
  /-- A UDP session. -/
  | udpAssociate
  deriving DecidableEq

/-- What a front does for a client. -/
structure Outcome where
  /-- What it writes to the client. -/
  replies : List Bytes
  /-- What it writes to the listener before the connection is copied. -/
  sent : List Bytes
  /-- The names it looks up. -/
  lookups : List Text
  service : Option Service

/-- Does the text look like an address? -/
def isIpLiteral (host : Text) : Bool :=
  host.contains ':' ||
    (decide ((splitAny (· == '.') host).length=4) &&
      (splitAny (· == '.') host).all fun part =>
        decide (1≤part.length ∧ part.length≤3) && part.all (isDigit 10))

/-- A request for an address. -/
def addressRequest (command : UInt8) (address : IpAddr) (port : ℕ) : Bytes :=
  let bytes := match address with
    | .v4 a => 1::beBytes 4 a.toNat
    | .v6 a => 4::beBytes 16 a.toNat
  [5,command,0]++bytes++beBytes 2 port

/-- A request for a name. -/
def nameRequest (command : UInt8) (host : Text) (port : ℕ) : Bytes :=
  [5,command,0,3,UInt8.ofNat (asciiBytes host).length]++asciiBytes host++beBytes 2 port

/-- How a front writes a request anew: the request, unless that fails, and the names it looks
up for that. -/
abbrev Builder := Platform → UInt8 → Text → ℕ → Option Bytes × List Text

/-- Skip the address of the listener's answer, unless the stream ends before. -/
def skipBoundAddress (s : Source) : Option Source :=
  let addressType := s.read bufferSize
  let address :=
    if addressType.1=some 1 then (addressType.2.readFully bufferSize 4).map (·.2)
    else if addressType.1=some 4 then (addressType.2.readFully bufferSize 16).map (·.2)
    else if addressType.1=some 3 then
      let length := addressType.2.read bufferSize
      (length.2.readFully bufferSize ((length.1.map UInt8.toNat).getD 0)).map (·.2)
    else some addressType.2
  (address.bind fun rest => rest.readFully bufferSize 2).map (·.2)

/-- Read the listener's answer to a request; what is written to the client when it is not
granted is the error. -/
def readGrant (skip : Source → Option Source) (s : Source) : Except (List Bytes) Unit :=
  let version := s.read bufferSize
  if version.1≠some 5 then .error [replyFailure 1]
  else
    let reply := version.2.read bufferSize
    let reserved := reply.2.read bufferSize
    match skip reserved.2 with
    | none => .error []
    | some _ =>
      if reply.1≠some 0 then .error [replyFailure (reply.1.getD 255)] else .ok ()

/-- Hand a request on to the listener. It may not be there; otherwise all it sends is given.
After the handshake the client's bytes are read from the socket itself. -/
def relay (build : Builder) (skip : Source → Option Source) (p : Platform)
    (upstream : Option Bytes) (host : Text) (port : ℕ) (s : Source) : Outcome :=
  match upstream with
  | none => ⟨[replyFailure 1],[],[],none⟩
  | some bytes =>
    let version := (⟨bytes,[]⟩ : Source).read bufferSize
    let method := version.2.read bufferSize
    if version.1≠some 5 ∨ method.1≠some 0 then ⟨[replyFailure 1],[[5,1,0]],[],none⟩
    else
      let built := build p 1 host port
      match built.1 with
      | none => ⟨[],[[5,1,0]],built.2,none⟩
      | some request =>
        match readGrant skip method.2 with
        | .error replies => ⟨replies,[[5,1,0],request],built.2,none⟩
        | .ok () =>
          -- The copy begins with the socket. What the buffer of the handshake holds stays there.
          ⟨[replySuccess],[[5,1,0],request],built.2,some (.upstream (pipe relayBuffer s.pieces))⟩

/-- The address and the port of the gateway for datagrams. -/
def udpgwHost : Text := "127.0.0.1".toList

/-- The port of the gateway for datagrams. -/
def udpgwPort : ℕ := 7300

/-- A front with a gateway for datagrams, which goes on with the buffered stream. -/
def answerWithGateway (refusal : UInt8) (build : Builder) (skip : Source → Option Source)
    (p : Platform) (upstream : Option Bytes) (request : Request) (s : Source) : Outcome :=
  if request.command≠some 1 then ⟨[replyFailure refusal],[],[],none⟩
  else if p.host request.destination=udpgwHost ∧ request.port=udpgwPort then
    ⟨[replySuccess],[],[],some (.udpgw s.pending)⟩
  else relay build skip p upstream (p.host request.destination) request.port s

namespace SmartDnsFront

/-- The resolver that the device asks. -/
def resolverHost : Text := "10.10.14.2".toList

/-- The networks that are not tunnelled. -/
def directNets : List (Ipv4Addr × ℕ) :=
  [(ipv4OfOctets 127 0 0 0,8),(ipv4OfOctets 10 0 0 0,8),(ipv4OfOctets 172 16 0 0,12),
    (ipv4OfOctets 192 168 0 0,16),(ipv4OfOctets 198 18 0 0,15)]

/-- Is an address in a network? -/
def inRange (address : Ipv4Addr) (net : Ipv4Addr × ℕ) : Bool :=
  let mask := if net.2=0 then 0 else BitVec.allOnes 32 <<< (32-net.2)
  address &&& mask == net.1 &&& mask

/-- Is a host in a network that is not tunnelled? The host is looked up for that. -/
def isDirect (p : Platform) (host : Text) : Bool × List Text :=
  let found := p.getByName host
  (match found.1 with
    | some (.v4 address) => directNets.any (inRange address)
    | _ => false,found.2)

/-- A request is written anew after its host has been looked up. -/
def buildRequest : Builder := fun p command host port =>
  let found := p.getByName host
  (match found.1.filter fun _ => isIpLiteral host with
    | some address => some (addressRequest command address port)
    | none => some (nameRequest command host port),found.2)

/-- Is a request one for the front's own DNS server? -/
def forDns (p : Platform) (host : Text) (port : ℕ) : Bool × List Text :=
  if port=53 then if host=resolverHost then (true,[]) else isDirect p host else (false,[])

/-- Connect to a host. The DNS server reads from the socket through a buffer of its own. -/
def connect (p : Platform) (upstream : Option Bytes) (host : Text) (port : ℕ) (s : Source) :
    Outcome :=
  let dns := forDns p host port
  if dns.1 then ⟨[replySuccess],[],dns.2,some (.dns (⟨[],s.pieces⟩ : Source).pending)⟩
  else
    let direct := isDirect p host
    if direct.1 then ⟨[replyFailure 1],[],dns.2++direct.2,none⟩
    else
      let relayed := relay buildRequest skipBoundAddress p upstream host port s
      {relayed with lookups := dns.2++direct.2++relayed.lookups}

/-- Answer a request. -/
def answer (p : Platform) (upstream : Option Bytes) (request : Request) (s : Source) : Outcome :=
  if request.command=some 1 then
    connect p upstream (p.host request.destination) request.port s
  else if request.command=some 3 then ⟨[],[],[],some .udpAssociate⟩
  else ⟨[replyFailure 1],[],[],none⟩

end SmartDnsFront

namespace WarpUdpgwFront

/-- A request is written anew for the address of its host. -/
def buildRequest : Builder := fun p command host port =>
  let found := p.getByName host
  (found.1.map fun address => addressRequest command address port,found.2)

/-- Skip the address of the listener's answer, as far as there is one. -/
def skipBoundAddress (s : Source) : Option Source :=
  let addressType := s.read bufferSize
  if addressType.1=some 4 then some (addressType.2.advance bufferSize (16+2))
  else if addressType.1=some 3 then
    let length := addressType.2.read bufferSize
    match length.1 with
    | some count => some (length.2.advance bufferSize (count.toNat+2))
    | none => some length.2
  else some (addressType.2.advance bufferSize (4+2))

/-- Answer a request. -/
def answer : Platform → Option Bytes → Request → Source → Outcome :=
  answerWithGateway 1 buildRequest skipBoundAddress

end WarpUdpgwFront

namespace ShardSocksFront

/-- A request is written anew after its host has been looked up. -/
def buildRequest : Builder := SmartDnsFront.buildRequest

/-- Answer a request. -/
def answer : Platform → Option Bytes → Request → Source → Outcome :=
  answerWithGateway 1 buildRequest skipBoundAddress

end ShardSocksFront

namespace TorSocksFront

/-- A request is written anew. Only what looks like an address is looked up. -/
def buildRequest : Builder := fun p command host port =>
  if isIpLiteral host then
    let found := p.getByName host
    (found.1.map fun address => addressRequest command address port,found.2)
  else (if (asciiBytes host).length≤255 then some (nameRequest command host port) else none,[])

/-- Answer a request. -/
def answer : Platform → Option Bytes → Request → Source → Outcome :=
  answerWithGateway 7 buildRequest skipBoundAddress

end TorSocksFront

/-- The fronts. -/
inductive Front where
  | smartDns
  | warp
  | shard
  | tor

namespace Front

/-- How a front greets. -/
def greet : Front → Source → Except (List Bytes) Source
  | .tor => greetWith 1 fun methods => methods.contains 0
  | _ => greetWith 0 fun _ => true

/-- The greeting and the request. -/
def handshake (f : Front) (s : Source) : Except (List Bytes) (Request × Source) :=
  match f.greet s with
  | .error replies => .error replies
  | .ok rest =>
    match readRequest rest with
    | .error replies => .error ([5,0]::replies)
    | .ok r => .ok r

/-- How a front answers a request. -/
def answer : Front → Platform → Option Bytes → Request → Source → Outcome
  | .smartDns => SmartDnsFront.answer
  | .warp => WarpUdpgwFront.answer
  | .shard => ShardSocksFront.answer
  | .tor => TorSocksFront.answer

/-- Serve a client whose bytes arrive in pieces. -/
def handleClient (f : Front) (p : Platform) (upstream : Option Bytes) (pieces : List Bytes) :
    Outcome :=
  match f.handshake ⟨[],pieces⟩ with
  | .error replies => ⟨replies,[],[],none⟩
  | .ok (request,s) =>
    let answered := f.answer p upstream request s
    {answered with replies := [5,0]::answered.replies}

end Front

end MsnGuard.SocksFronts
