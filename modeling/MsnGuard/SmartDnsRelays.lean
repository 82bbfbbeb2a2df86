import MsnGuard.SmartDnsFront

/-!
# The relay socket of a UDP session

A client that asks for a UDP session is told the port of a relay socket. A socket that has been
created is bound already, and a packet without an address goes out only on a connected socket.
The front binds the relay socket again, and its packets for the client have no address.
-/

namespace MsnGuard.SmartDnsRelays

open RustText IpAddresses SmartDnsMessages SmartDnsFront
open OctetsVarint (beBytes)

/-- A datagram socket of the platform. -/
structure DatagramSocket where
  /-- The port it is bound to. -/
  localPort : Option ℕ
  /-- Where it is connected to. -/
  remote : Option SocketAddr
  closed : Bool

/-- A packet, with or without an address. -/
structure DatagramPacket where
  data : Bytes
  address : Option SocketAddr

namespace DatagramSocket

/-- A new socket is bound to a free port, if there is one. -/
def create (free : Option ℕ) : Option DatagramSocket := free.map fun port => ⟨some port,none,false⟩

/-- Bind a socket to a free port. A socket is bound once. -/
def bind (s : DatagramSocket) (free : Option ℕ) : Option DatagramSocket :=
  if s.closed ∨ s.localPort.isSome then none
  else free.map fun port => {s with localPort := some port}

/-- Where a packet goes. Without an address it can only go where the socket is connected to. -/
def send (s : DatagramSocket) (packet : DatagramPacket) : Option SocketAddr :=
  if s.closed then none
  else match packet.address,s.remote with
    | some address,none => some address
    | some address,some remote => if address=remote then some address else none
    | none,remote => remote

end DatagramSocket

/-- A datagram that goes back, with the place the client was last heard from. -/
structure Sent where
  address : SocketAddr
  source : Option SocketAddr
  frame : Bytes

/-- What a session has shown. -/
structure Session where
  /-- The replies on the control connection. -/
  replies : List Bytes
  /-- The port of the relay socket. -/
  relayPort : Option ℕ
  /-- The datagrams to the client. -/
  sent : List Sent

/-- What reaches a session. -/
inductive Traffic where
  /-- A datagram of the client. -/
  | request (source : SocketAddr) (datagram : Bytes)
  /-- The answer to a DNS query of the client. -/
  | answer (reply : Bytes)
  /-- A datagram from the far side. -/
  | upstream (datagram : Bytes)

/-- A refusal. -/
def replyFailure (code : UInt8) : Bytes := [5,code,0,1,0,0,0,0,0,0]

/-- The port of a relay socket on the loopback. -/
def replyBound (port : ℕ) : Bytes := [5,0,0,1,127,0,0,1]++beBytes 2 port

/-- The address of the resolver that the device asks. -/
def resolverAddress : IpAddr := .v4 (ipv4OfOctets 10 10 14 2)

/-- Where a datagram of the client is to go, and what it holds. A name is looked up. -/
def parseUdpRequest (getByName : Bytes → Option IpAddr) (request : Bytes) :
    Option (IpAddr × ℕ × Bytes) :=
  if request.length<10 ∨ request.take 3≠[0,0,0] then none
  else match (request.getD 3 0).toNat with
    | 1 => some (.v4 (BitVec.ofNat 32 (OctetsVarint.beValue ((request.drop 4).take 4))),
        word request 8,request.drop 10)
    | 4 =>
      if request.length<22 then none
      else some (.v6 (BitVec.ofNat 128 (OctetsVarint.beValue ((request.drop 4).take 16))),
        word request 20,request.drop 22)
    | 3 =>
      let nameLength := (request.getD 4 0).toNat
      if request.length<5+nameLength+2 then none
      else (getByName ((request.drop 5).take nameLength)).map fun address =>
        (address,word request (5+nameLength),request.drop (7+nameLength))
    | _ => none

/-- A session while it is served. -/
structure Serving where
  relay : DatagramSocket
  /-- Where the client was last heard from. -/
  source : Option SocketAddr
  /-- What the client asked about last. -/
  clientAddress : IpAddr
  clientPort : ℕ
  sent : List Sent

namespace Serving

/-- A frame for the client leaves the relay socket, if it can. -/
def back (s : Serving) (frame : Bytes) : Serving :=
  {s with sent := s.sent++((s.relay.send ⟨frame,none⟩).map fun address =>
      (⟨address,s.source,frame⟩ : Sent)).toList}

/-- The answer to a DNS query goes back. -/
def sendToClient (s : Serving) (reply : Bytes) : Serving :=
  s.back (encapsulate resolverAddress dnsPort reply)

/-- A datagram from the far side goes back, as if from where the client asked. -/
def forwardToClient (s : Serving) (datagram : Bytes) : Serving :=
  match decapsulate (datagram.take udpBuffer) with
  | none => s
  | some payload => s.back (encapsulate s.clientAddress s.clientPort payload)

/-- A datagram of the client says what the client asks about. -/
def handleUdpRequest (getByName : Bytes → Option IpAddr) (s : Serving) (source : SocketAddr)
    (datagram : Bytes) : Serving :=
  let heard := {s with source := some source}
  match parseUdpRequest getByName (datagram.take udpBuffer) with
  | some (address,port,_::_) =>
    {heard with
      clientAddress := address
      clientPort := port}
  | _ => heard

/-- One more datagram. -/
def step (getByName : Bytes → Option IpAddr) (s : Serving) : Traffic → Serving
  | .request source datagram => s.handleUdpRequest getByName source datagram
  | .answer reply => s.sendToClient reply
  | .upstream datagram => s.forwardToClient datagram

end Serving

/-- The datagrams of a session, if the far side agrees to an association. -/
def serveUdpAssociate (getByName : Bytes → Option IpAddr) (opened : Bool) (relay : DatagramSocket)
    (traffic : List Traffic) : Serving :=
  (if opened then traffic else []).foldl (Serving.step getByName)
    ⟨relay,none,.v4 (ipv4OfOctets 127 0 0 1),0,[]⟩

/-- A client asks for a session. There may be a free port when the socket is created, and one
when it is bound. -/
def udpAssociate (created bound : Option ℕ) (getByName : Bytes → Option IpAddr) (opened : Bool)
    (traffic : List Traffic) : Session :=
  match (DatagramSocket.create created).bind (·.bind bound) with
  | none => ⟨[replyFailure 1],none,[]⟩
  | some relay =>
    ⟨[replyBound (relay.localPort.getD 0)],relay.localPort,
      (serveUdpAssociate getByName opened relay traffic).sent⟩

/-- The client is told the port of a relay socket, and what goes back goes where the client
was heard from. -/
structure Serves (session : Session) : Prop where
  success : ∃ port, session.relayPort=some port ∧ session.replies=[replyBound port]
  back : ∀ sent∈session.sent, sent.source=some sent.address

/-- A packet for the client does not leave a socket that is not connected. -/
theorem Serving.back_eq {s : Serving} (h : s.relay.remote=none) (frame : Bytes) :
    s.back frame=s := by
  have hnone : s.relay.send ⟨frame,none⟩=none := by
    unfold DatagramSocket.send
    rw [h]
    split <;> rfl
  rw [Serving.back,hnone,Option.map_none,Option.toList_none,List.append_nil]

/-- One datagram more sends nothing back, and leaves the socket as it is. -/
theorem Serving.step_eq {s : Serving} (h : s.relay.remote=none)
    (getByName : Bytes → Option IpAddr) (traffic : Traffic) :
    (s.step getByName traffic).relay=s.relay ∧ (s.step getByName traffic).sent=s.sent := by
  cases traffic with
  | request source datagram =>
    unfold Serving.step Serving.handleUdpRequest
    dsimp only
    split <;> exact ⟨rfl,rfl⟩
  | answer reply =>
    rw [Serving.step,Serving.sendToClient,Serving.back_eq h]
    exact ⟨rfl,rfl⟩
  | upstream datagram =>
    unfold Serving.step Serving.forwardToClient
    dsimp only
    split
    · exact ⟨rfl,rfl⟩
    · rw [Serving.back_eq h]
      exact ⟨rfl,rfl⟩

/-- Whatever a session takes in, nothing goes back to the client. -/
theorem foldl_step_sent {s : Serving} (h : s.relay.remote=none)
    (getByName : Bytes → Option IpAddr) (traffic : List Traffic) :
    (traffic.foldl (Serving.step getByName) s).sent=s.sent := by
  induction traffic generalizing s with
  | nil => rfl
  | cons first rest ih =>
    obtain ⟨hrelay,hsent⟩ := Serving.step_eq h getByName first
    rw [List.foldl_cons,ih (hrelay ▸ h),hsent]

/-- No client is ever served: it is refused, and even on a relay socket that was bound no
datagram would go back to it. -/
theorem udpAssociate_never_serves (port : ℕ) (bound : Option ℕ) (getByName : Bytes → Option IpAddr)
    (opened : Bool) (traffic : List Traffic) :
    (udpAssociate (some port) bound getByName opened traffic).replies=[replyFailure 1] ∧
      ¬Serves (udpAssociate (some port) bound getByName opened traffic) ∧
      (serveUdpAssociate getByName opened ⟨some port,none,false⟩ traffic).sent=[] := by
  -- the relay socket is bound when it is created, so that it cannot be bound
  refine ⟨rfl,?_,foldl_step_sent rfl getByName _⟩
  rintro ⟨⟨_,⟨⟩,_⟩,_⟩

/-- A client sends a datagram from port 50000. It has been refused, and a reply from the far
side would not reach it. -/
theorem udpAssociate_refused :
    ∃ traffic, traffic=[Traffic.request ⟨.v4 (ipv4OfOctets 127 0 0 1),50000⟩
        [0,0,0,1,9,9,9,9,1,187,42],
        .upstream [0,0,0,1,9,9,9,9,1,187,43]] ∧
      (udpAssociate (some 40000) (some 40001) (fun _ => none) true traffic).replies=
        [replyFailure 1] ∧
      ¬Serves (udpAssociate (some 40000) (some 40001) (fun _ => none) true traffic) ∧
      (serveUdpAssociate (fun _ => none) true ⟨some 40000,none,false⟩ traffic).sent.length=0 := by
  refine ⟨_,rfl,rfl,?_,by decide⟩
  rintro ⟨⟨_,⟨⟩,_⟩,_⟩

end MsnGuard.SmartDnsRelays
