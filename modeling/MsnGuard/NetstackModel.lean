import MsnGuard.BoundedChannels
import MsnGuard.FiniteTables
import MsnGuard.IpAddresses
import MsnGuard.TransitionRuns

/-!
# The user-space network stack

One task owns all sockets. In every turn of its loop it polls the interface, services the
connections, handles a deferred item and then waits for a packet, a command, an item or the
clock. Applications run beside it. The sockets belong to a package; what the task relies on is
stated with it.
-/

namespace MsnGuard.NetstackModel

open RustText IpAddresses BoundedChannels FiniteTables TransitionRuns

/-- The states of a TCP socket. -/
inductive TcpPhase where
  | closed
  | listen
  | synSent
  | synReceived
  | established
  | finWait1
  | finWait2
  | closeWait
  | closing
  | lastAck
  | timeWait
  deriving DecidableEq

/-- The connection has not been synchronized yet. -/
def TcpPhase.Opening (phase : TcpPhase) : Prop :=
  phase=.listen ∨ phase=.synSent ∨ phase=.synReceived

instance (phase : TcpPhase) : Decidable phase.Opening := inferInstanceAs (Decidable (_ ∨ _))

/-- The state after the application has closed its half. -/
def TcpPhase.afterClose : TcpPhase → TcpPhase
  | .listen | .synSent => .closed
  | .synReceived | .established => .finWait1
  | .closeWait => .lastAck
  | phase => phase

/-- Addresses and routes of the interface. -/
structure Iface where
  /-- The IPv4 address and the length of its network part. -/
  v4 : Option (Ipv4Addr × ℕ)
  /-- The IPv6 address and the length of its network part. -/
  v6 : Option (Ipv6Addr × ℕ)
  /-- The default IPv4 route. -/
  gateway4 : Option Ipv4Addr
  /-- The default IPv6 route. -/
  gateway6 : Option Ipv6Addr

/-- The socket package: what a TCP socket in state `σ` and a UDP socket in state
`υ` do, with the behaviour that the stack relies on. -/
structure SocketPackage (σ υ : Type) where
  /-- A socket that has begun to connect from a local port, or an error. -/
  connect : Iface → SocketAddr → ℕ → Except String σ
  /-- The state of the connection. -/
  state : σ → TcpPhase
  /-- Whether the transmit half is open and its buffer has room. -/
  canSend : σ → Bool
  /-- Offer bytes to the transmit buffer; the number taken, or an error. -/
  sendSlice : σ → Bytes → Option ℕ × σ
  /-- Close the transmit half. -/
  close : σ → σ
  /-- Drop the connection at once. -/
  abort : σ → σ
  /-- Whether received bytes are waiting. -/
  canRecv : σ → Bool
  /-- Take the first contiguous run of received bytes. -/
  recv : σ → Option Bytes × σ
  /-- The bytes received in order and not taken yet. -/
  recvQueue : σ → Bytes
  /-- A UDP socket bound to a local port, or an error. -/
  bind : ℕ → Except String υ
  /-- Whether a datagram is waiting. -/
  udpCanRecv : υ → Bool
  /-- Take the first datagram. -/
  udpRecv : υ → Option (SocketAddr × Bytes) × υ
  /-- Offer a datagram; whether it was taken is not reported. -/
  udpSendSlice : υ → Bytes → SocketAddr → υ
  /-- No more bytes are taken than were offered. -/
  sendSlice_le : ∀ s data n, (sendSlice s data).1=some n → n≤data.length
  /-- Sending does not change the state of the connection. -/
  state_sendSlice : ∀ s data, state (sendSlice s data).2=state s
  /-- Nothing is sent once the transmit half is closed. -/
  canSend_state : ∀ s, canSend s=true → state s=.established ∨ state s=.closeWait
  /-- Closing changes the state as TCP says. -/
  state_close : ∀ s, state (close s)=(state s).afterClose
  /-- Closing a connection that is over does nothing. -/
  close_over : ∀ s, state s=.closed ∨ state s=.timeWait → close s=s
  /-- An aborted connection is over. -/
  state_abort : ∀ s, state (abort s)=.closed
  /-- Taking received bytes does not change the state of the connection. -/
  state_recv : ∀ s, state (recv s).2=state s
  /-- Bytes are waiting when the receive buffer is not empty. -/
  canRecv_iff : ∀ s, canRecv s=true ↔ recvQueue s≠[]
  /-- Waiting bytes can be taken. -/
  recv_some : ∀ s, canRecv s=true → ∃ chunk, (recv s).1=some chunk ∧ chunk≠[]

/-- A socket of the set, with the local port it was given. -/
inductive Socket (σ υ : Type) where
  | tcp (sock : σ) (port : ℕ)
  | udp (sock : υ) (port : ℕ)

/-- Sizes and times that the program is configured with. -/
structure Config where
  /-- Capacity of every channel. -/
  appQueue : ℕ
  /-- Size of the receive buffer of a TCP socket. -/
  tcpRxBuf : ℕ
  /-- How long a connection may take to open. -/
  connectTimeout : ℕ
  /-- How long a connection may stay after its application is gone. -/
  orphanLinger : ℕ

/-- Chunks delivered to one application in one pass. -/
def MAX_RECV_CHUNKS : ℕ := 128

/-- Bytes that may wait for the transmit buffer of one connection. -/
def maxTcpPending (cfg : Config) : ℕ := max (min (cfg.tcpRxBuf*2) (2^64-1)) (64*1024)

/-- What the applications queue for the stack. -/
inductive DataIn where
  | tcp (id : ℕ) (data : Bytes)
  | tcpClose (id : ℕ)
  | udp (id : ℕ) (dst : SocketAddr) (data : Bytes)
  | udpClose (id : ℕ)
  deriving DecidableEq

/-- The connection that an item is for. -/
def DataIn.id : DataIn → ℕ
  | .tcp id _ => id
  | .tcpClose id => id
  | .udp id _ _ => id
  | .udpClose id => id

/-- The sending end of the answer to a request. -/
structure Oneshot where
  /-- Whether somebody still waits for the answer. -/
  rxAlive : Bool
  deriving DecidableEq

/-- A TCP connection as the stack keeps it. -/
structure TcpState where
  /-- Its socket. -/
  handle : ℕ
  /-- The channel to the application. -/
  toApp : Chan Bytes
  /-- Whether the receiver of that channel is still with the stack. -/
  fromStackRx : Bool
  /-- The answer to the request, until it has been given. -/
  connectResp : Option Oneshot
  /-- When the connection has to be open. -/
  connectDeadline : ℕ
  /-- Bytes from the application that the socket has not taken. -/
  pending : Bytes
  /-- Whether the connection has been open. -/
  established : Bool
  /-- Whether the application has closed its half. -/
  halfClosed : Bool
  /-- When the application was first found gone. -/
  orphanedAt : Option ℕ
  /-- Whether the next pass removes the connection. -/
  aborted : Bool

/-- The application holds the receiving half. -/
def TcpState.appHolds (st : TcpState) : Bool := !st.fromStackRx && st.toApp.rxAlive

/-- A UDP connection as the stack keeps it. -/
structure UdpState where
  /-- Its socket. -/
  handle : ℕ
  /-- The channel to the application. -/
  toApp : Chan (SocketAddr × Bytes)

/-- Requests to the stack. -/
inductive Cmd where
  | openTcp (dst : SocketAddr) (resp : Oneshot)
  | openUdp (resp : Oneshot)
  | setAddrs (v4 : Option (Ipv4Addr × ℕ)) (v6 : Option (Ipv6Addr × ℕ))

/-- What an observer of the stack sees. -/
inductive Event where
  /-- An item has entered the channel to the stack. -/
  | queued (item : DataIn)
  /-- A socket has taken bytes of a connection. -/
  | accepted (id : ℕ) (bytes : Bytes)
  /-- The transmit half of a connection is closed: whether the application holds
  the receiving half, and what is pending. -/
  | closing (id : ℕ) (appHolds : Bool) (pending : Bytes)
  /-- A TCP connection is removed: whether the application holds the receiving
  half, whether it was open, and the bytes in the receive buffer. -/
  | removed (id : ℕ) (appHolds established : Bool) (unread : Bytes)
  /-- A local port is used up, for the connection of the number if one is opened. -/
  | allocated (port : ℕ) (id : Option ℕ)
  /-- A request is answered with the number of a connection or an error. -/
  | answered (reply : Except String ℕ)
  deriving DecidableEq

/-- Where the task stands in its loop. -/
inductive Phase where
  | polling
  | servicingTcp (now : ℕ) (ids : List ℕ)
  | servicingUdp (ids : List ℕ)
  | draining
  | selecting
  | receiving
  | stopped
  deriving DecidableEq

/-- The state of the stack and of its channels. -/
structure NetStack (σ υ : Type) where
  /-- The interface. -/
  iface : Iface
  /-- The sockets by handle. -/
  sockets : Table (Socket σ υ)
  /-- TCP connections by number. -/
  tcpConns : Table TcpState
  /-- UDP connections by number. -/
  udpConns : Table UdpState
  /-- The number of the next connection. -/
  nextId : ℕ
  /-- The next local port. -/
  nextPort : ℕ
  /-- The channel from the applications. -/
  dataIn : Chan DataIn
  /-- Items that could not be handled yet. -/
  deferred : List DataIn
  /-- Where the loop stands. -/
  phase : Phase

/-- A network part of almost the whole address becomes one with room for a gateway. -/
def routablePrefixV4 (p : ℕ) : ℕ := if 31≤p then 24 else p

/-- A network part of almost the whole address becomes one with room for a gateway. -/
def routablePrefixV6 (p : ℕ) : ℕ := if 127≤p then 64 else p

/-- The gateway is the first host of the network, or the second if the address
is the first. -/
def gatewayV4 (ip : Ipv4Addr) : Ipv4Addr :=
  ipv4OfOctets (octet ip 0) (octet ip 1) (octet ip 2) (if octet ip 3=1 then 2 else 1)

/-- The gateway differs from the address in the last byte only. -/
def gatewayV6 (ip : Ipv6Addr) : Ipv6Addr :=
  BitVec.ofNat 128 (ip.toNat/256*256+(if ip.toNat % 256=1 then 2 else 1))

/-- Replace the addresses of the interface; a missing one leaves its route. -/
def applyAddrs (iface : Iface) (v4 : Option (Ipv4Addr × ℕ)) (v6 : Option (Ipv6Addr × ℕ)) : Iface where
  v4 := v4.map fun (ip,p) => (ip,routablePrefixV4 p)
  v6 := v6.map fun (ip,p) => (ip,routablePrefixV6 p)
  gateway4 := (v4.map fun (ip,_) => gatewayV4 ip).or iface.gateway4
  gateway6 := (v6.map fun (ip,_) => gatewayV6 ip).or iface.gateway6

/-- The port that follows. -/
def allocPort (port : ℕ) : ℕ := if 65000≤port then 49152 else port+1

section Tcp

variable {σ υ : Type} (pkg : SocketPackage σ υ)

/-- Give an open connection to the application that asked for it. If nobody
waits any more, the connection is dropped on the way: its receiver goes, and it
asks for its own closing. -/
def handOut (id : ℕ) (phase : TcpPhase) (st : TcpState) : TcpState × Bool × List Event :=
  if st.established=false ∧ (phase=.established ∨ phase=.closeWait) then
    match st.connectResp,st.fromStackRx with
    | some resp,true =>
      let st := {st with established := true,connectResp := none,fromStackRx := false}
      if resp.rxAlive then (st,false,[.answered (.ok id)])
      else ({st with toApp := st.toApp.dropReceiver},true,[.answered (.ok id)])
    | _,true =>
      ({st with established := true,connectResp := none,fromStackRx := false,
                toApp := st.toApp.dropReceiver},false,[])
    | _,false => ({st with established := true,connectResp := none},false,[])
  else (st,false,[])

/-- Offer the pending bytes to the socket and keep what it does not take. -/
def upload (id : ℕ) (st : TcpState) (sock : σ) : TcpState × σ × List Event :=
  if pkg.canSend sock=true ∧ st.pending≠[] then
    let (sent,sock) := pkg.sendSlice sock st.pending
    ({st with pending := st.pending.drop (sent.getD 0)},sock,
      [.accepted id (st.pending.take (sent.getD 0))])
  else (st,sock,[])

/-- Close the transmit half when the application has closed and nothing is pending. -/
def halfClose (id : ℕ) (st : TcpState) (sock : σ) : σ × List Event :=
  if st.halfClosed=true ∧ st.pending=[] then
    (pkg.close sock,[.closing id st.appHolds st.pending])
  else (sock,[])

/-- The channel, the socket and whether the application was found gone. -/
structure Delivery (α s : Type) where
  /-- The channel to the application. -/
  toApp : Chan α
  /-- The socket. -/
  sock : s
  /-- Whether the receiver was found dropped. -/
  appGone : Bool

/-- Pass received chunks on while there is room for them. The application may
act before every look at the channel. -/
def deliver (moves : ℕ → Moves) : ℕ → Chan Bytes → σ → Delivery Bytes σ
  | 0,toApp,sock => ⟨toApp,sock,false⟩
  | n+1,toApp,sock =>
    let toApp := toApp.after (moves (n+1))
    match toApp.tryReserve with
    | .full => ⟨toApp,sock,false⟩
    | .closed => ⟨toApp,sock,true⟩
    | .ready =>
      if pkg.canRecv sock=true then
        match pkg.recv sock with
        | (some chunk,sock) =>
          if chunk=[] then ⟨toApp,sock,false⟩ else deliver moves n (toApp.send chunk) sock
        | (none,sock) => ⟨toApp,sock,false⟩
      else ⟨toApp,sock,false⟩

/-- What a pass does to one connection: what it leaves of it, whether the
connection asks for its own closing, and what can be observed. -/
structure Served (σ : Type) where
  /-- The connection and its socket, unless both are removed. -/
  conn : Option (TcpState × σ)
  /-- Whether the connection was dropped on its way to the application. -/
  queuesClose : Bool
  /-- What can be observed. -/
  events : List Event

/-- The end of a pass: answer the peer's close and remove what is over. -/
def finishPass (id : ℕ) (st : TcpState) (sock : σ) : Option (TcpState × σ) × List Event :=
  let phase := pkg.state sock
  let (sock,closed) : σ × List Event :=
    if phase=.closeWait then (pkg.close sock,[.closing id st.appHolds st.pending]) else (sock,[])
  let st := if phase=.timeWait then {st with pending := []} else st
  if (phase=.closed ∨ phase=.timeWait) ∧ st.established=true then
    (none,closed++[.removed id st.appHolds st.established (pkg.recvQueue sock)])
  else (some (st,sock),closed)

/-- A connection whose application is gone lingers until its peer sends more or
its time is over; then it is aborted and removed in the next pass. -/
def orphanPass (cfg : Config) (now id : ℕ) (st : TcpState) (sock : σ) :
    Option (TcpState × σ) × List Event :=
  let orphanedAt := st.orphanedAt.getD now
  let st := {st with orphanedAt := some orphanedAt}
  if pkg.canRecv sock=true ∨ cfg.orphanLinger≤now-orphanedAt then
    let sock := if pkg.state sock=.closed then sock else pkg.abort sock
    (some ({st with aborted := true},sock),[])
  else
    let (conn,events) := finishPass pkg id st (pkg.close sock)
    (conn,.closing id st.appHolds st.pending::events)

/-- Deliver what has been received, then see whether the connection is over. The
application may act once more in between. -/
def deliverPass (cfg : Config) (now id : ℕ) (moves : ℕ → Moves) (st : TcpState) (sock : σ) :
    Option (TcpState × σ) × List Event :=
  let delivery := deliver pkg moves MAX_RECV_CHUNKS st.toApp sock
  let st := {st with toApp := delivery.toApp.after (moves 0)}
  if delivery.appGone then orphanPass pkg cfg now id st delivery.sock
  else finishPass pkg id st delivery.sock

/-- A pass over a connection that has been open: send, close, deliver, remove. -/
def openPass (cfg : Config) (now id : ℕ) (moves : ℕ → Moves) (st : TcpState) (sock : σ) :
    Option (TcpState × σ) × List Event :=
  let (st,sock,sent) := upload pkg id st sock
  let (sock,halved) := halfClose pkg id st sock
  let (conn,events) := deliverPass pkg cfg now id moves st sock
  (conn,sent++halved++events)

/-- Nobody waits for the answer any more. -/
def TcpState.abandoned (st : TcpState) : Bool :=
  match st.connectResp with
  | none => true
  | some resp => !resp.rxAlive

/-- A pass over a connection that is not open yet: it is removed when it is
refused, when nobody waits for it and when its time is over. -/
def openingPass (now id : ℕ) (st : TcpState) (sock : σ) : Option (TcpState × σ) × List Event :=
  let gone (reply : String) : Option (TcpState × σ) × List Event :=
    (none,(if st.connectResp.isSome then [.answered (.error reply)] else []) ++
      [.removed id st.appHolds st.established (pkg.recvQueue sock)])
  if pkg.state sock=.closed ∨ pkg.state sock=.timeWait then gone "connection refused"
  else if st.abandoned=true ∨ st.connectDeadline≤now then gone "connection timed out"
  else (some (st,sock),[])

/-- One connection in the pass over all of them. -/
def serviceConn (cfg : Config) (now id : ℕ) (moves : ℕ → Moves) (st : TcpState) (sock : σ) :
    Served σ :=
  let (st,queuesClose,answered) := handOut id (pkg.state sock) st
  let (conn,events) :=
    if st.established=false then openingPass pkg now id st sock
    else openPass pkg cfg now id moves st sock
  ⟨conn,queuesClose,answered++events⟩

end Tcp

section Udp

variable {σ υ : Type} (pkg : SocketPackage σ υ)

/-- Pass received datagrams on while there is room for them. The socket is only
looked up when there is, and its absence stops the program. -/
def deliverUdp (moves : ℕ → Moves) :
    ℕ → Chan (SocketAddr × Bytes) → Option υ → Option (Delivery (SocketAddr × Bytes) (Option υ))
  | 0,toApp,sock => some ⟨toApp,sock,false⟩
  | n+1,toApp,sock =>
    let toApp := toApp.after (moves (n+1))
    match toApp.tryReserve,sock with
    | .full,sock => some ⟨toApp,sock,false⟩
    | .closed,sock => some ⟨toApp,sock,true⟩
    | .ready,none => none
    | .ready,some sock =>
      if pkg.udpCanRecv sock=true then
        match pkg.udpRecv sock with
        | (some datagram,sock) => deliverUdp moves n (toApp.send datagram) (some sock)
        | (none,sock) => some ⟨toApp,some sock,false⟩
      else some ⟨toApp,some sock,false⟩

end Udp

namespace NetStack

variable {σ υ : Type} (pkg : SocketPackage σ υ) (cfg : Config)

/-- Put an item into the channel to the stack, if there is room. -/
def queueItem (s : NetStack σ υ) (item : DataIn) : NetStack σ υ × List Event :=
  if s.dataIn.queue.length<s.dataIn.capacity then
    ({s with dataIn := s.dataIn.send item},[.queued item])
  else (s,[])

/-- The TCP socket of a handle. Asking for one that is not there stops the program. -/
def tcpSocket (s : NetStack σ υ) (handle : ℕ) : Option (σ × ℕ) :=
  match s.sockets.lookup handle with
  | some (.tcp sock port) => some (sock,port)
  | _ => none

/-- The UDP socket of a handle. Asking for one that is not there stops the program. -/
def udpSocket (s : NetStack σ υ) (handle : ℕ) : Option (υ × ℕ) :=
  match s.sockets.lookup handle with
  | some (.udp sock port) => some (sock,port)
  | _ => none

/-- Take a socket out of the set; one that is not there stops the program. -/
def removeSocket (s : NetStack σ υ) (handle : ℕ) : Option (NetStack σ υ) :=
  match s.sockets.lookup handle with
  | some _ => some {s with sockets := s.sockets.erase handle}
  | none => none

/-- Received bytes of a socket that are lost when it is removed. -/
def unread (s : NetStack σ υ) (handle : ℕ) : Bytes :=
  match s.tcpSocket handle with
  | some (sock,_) => pkg.recvQueue sock
  | none => []

/-- One turn of the loop over the TCP connections. -/
def serviceTcp (s : NetStack σ υ) (now id : ℕ) (moves : ℕ → Moves) :
    Option (NetStack σ υ × List Event) :=
  match s.tcpConns.lookup id with
  | none => some (s,[])
  | some st =>
    if st.aborted=true then
      (s.removeSocket st.handle).map fun s' =>
        ({s' with tcpConns := s'.tcpConns.erase id},
          [.removed id st.appHolds st.established (s.unread pkg st.handle)])
    else
      match s.tcpSocket st.handle with
      | none => none
      | some (sock,port) =>
        let served := serviceConn pkg cfg now id moves st sock
        let (s,queued) := if served.queuesClose then s.queueItem (.tcpClose id) else (s,[])
        match served.conn with
        | some (st',sock') =>
          some ({s with tcpConns := s.tcpConns.insert id st',
                        sockets := s.sockets.insert st.handle (.tcp sock' port)},
            queued++served.events)
        | none =>
          some ({s with tcpConns := s.tcpConns.erase id,sockets := s.sockets.erase st.handle},
            queued++served.events)

/-- Put a UDP socket that was looked up back in its place. -/
def putUdp (s : NetStack σ υ) (handle : ℕ) (found : Option (υ × ℕ)) (sock : Option υ) :
    NetStack σ υ :=
  match sock,found with
  | some sock,some (_,port) => {s with sockets := s.sockets.insert handle (.udp sock port)}
  | _,_ => s

/-- One turn of the loop over the UDP connections. -/
def serviceUdp (s : NetStack σ υ) (id : ℕ) (moves : ℕ → Moves) :
    Option (NetStack σ υ × List Event) :=
  match s.udpConns.lookup id with
  | none => some (s,[])
  | some st =>
    let found := s.udpSocket st.handle
    match deliverUdp pkg moves MAX_RECV_CHUNKS st.toApp (found.map Prod.fst) with
    | none => none
    | some delivery =>
      let s : NetStack σ υ :=
        {s with udpConns := s.udpConns.insert id {st with toApp := delivery.toApp.after (moves 0)}}
      let s := s.putUdp st.handle found delivery.sock
      if delivery.appGone then
        (s.removeSocket st.handle).map fun s => ({s with udpConns := s.udpConns.erase id},[])
      else some (s,[])

/-- Handle an item, or return what has to be deferred. -/
def tryHandleData (s : NetStack σ υ) (item : DataIn) : Option (NetStack σ υ × Option DataIn) :=
  match item with
  | .tcp id data =>
    match s.tcpConns.lookup id with
    | none => some (s,none)
    | some st =>
      let space := maxTcpPending cfg-st.pending.length
      if maxTcpPending cfg ≤ st.pending.length then some (s,some (.tcp id data))
      else if data.length ≤ space then
        some ({s with tcpConns := s.tcpConns.insert id {st with pending := st.pending++data}},none)
      else
        some ({s with tcpConns :=
          s.tcpConns.insert id {st with pending := st.pending++data.take space}},
          some (.tcp id (data.drop space)))
  | .tcpClose id =>
    match s.tcpConns.lookup id with
    | none => some (s,none)
    | some st => some ({s with tcpConns := s.tcpConns.insert id {st with halfClosed := true}},none)
  | .udp id dst data =>
    match s.udpConns.lookup id with
    | none => some (s,none)
    | some st =>
      match s.udpSocket st.handle with
      | none => none
      | some (sock,port) =>
        some ({s with sockets :=
          s.sockets.insert st.handle (.udp (pkg.udpSendSlice sock data dst) port)},none)
  | .udpClose id =>
    match s.udpConns.lookup id with
    | none => some (s,none)
    | some st => (s.removeSocket st.handle).map fun s =>
        ({s with udpConns := s.udpConns.erase id},none)

/-- Carry out a request. The socket set chooses the handle of a new socket. -/
def handleCmd (s : NetStack σ υ) (cmd : Cmd) (handle clock : ℕ) : NetStack σ υ × List Event :=
  match cmd with
  | .openTcp dst resp =>
    let port := s.nextPort
    let s := {s with nextPort := allocPort port}
    match pkg.connect s.iface dst port with
    | .error e => (s,[.allocated port none,.answered (.error ("connect: " ++ e))])
    | .ok sock =>
      let id := s.nextId
      ({s with sockets := s.sockets.insert handle (.tcp sock port),nextId := id+1,
               tcpConns := s.tcpConns.insert id
                ⟨handle,.empty cfg.appQueue,true,some resp,clock+cfg.connectTimeout,[],false,false,
                  none,false⟩},
        [.allocated port (some id)])
  | .openUdp resp =>
    let port := s.nextPort
    let s := {s with nextPort := allocPort port}
    match pkg.bind port with
    | .error e => (s,[.allocated port none,.answered (.error ("bind: " ++ e))])
    | .ok sock =>
      let id := s.nextId
      let toApp : Chan (SocketAddr × Bytes) := .empty cfg.appQueue
      let s := {s with sockets := s.sockets.insert handle (.udp sock port),nextId := id+1,
                       udpConns := s.udpConns.insert id
                        ⟨handle,if resp.rxAlive then toApp else toApp.dropReceiver⟩}
      let (s,queued) := if resp.rxAlive then (s,[]) else s.queueItem (.udpClose id)
      (s,.allocated port (some id)::.answered (.ok id)::queued)
  | .setAddrs v4 v6 => ({s with iface := applyAddrs s.iface (v4.or s.iface.v4) (v6.or s.iface.v6)},[])

/-- What the task itself does next, with the outcomes that it does not decide. -/
inductive StackAction (σ υ : Type) where
  /-- Poll the interface and start the pass over the TCP connections. -/
  | poll (sockets : Table (Socket σ υ)) (now : ℕ) (ids : List ℕ)
  /-- Service the next TCP connection. -/
  | serviceTcp (moves : ℕ → Moves)
  /-- Start the pass over the UDP connections. -/
  | beginUdp (ids : List ℕ)
  /-- Service the next UDP connection. -/
  | serviceUdp (moves : ℕ → Moves)
  /-- Start to handle deferred items. -/
  | beginDrain
  /-- Handle the first deferred item, or go on to wait. -/
  | drain
  /-- Packets have arrived. -/
  | inbound
  /-- A request has arrived. -/
  | command (cmd : Cmd) (handle clock : ℕ)
  /-- An item has arrived. -/
  | data
  /-- Look for another item. -/
  | tryRecv
  /-- The clock has run out. -/
  | sleep
  /-- The other end of the packets or requests is gone. -/
  | stop

/-- Handle an item; what comes back is deferred at the given place. -/
def handleOrDefer (s : NetStack σ υ) (item : DataIn) (defer : List DataIn → DataIn → List DataIn) :
    Option (NetStack σ υ × Bool) :=
  (s.tryHandleData pkg cfg item).map fun (s,back) =>
    match back with
    | none => (s,true)
    | some item => ({s with deferred := defer s.deferred item},false)

/-- A step of the task. A step that does not fit the place in the loop does nothing. -/
def stackStep (s : NetStack σ υ) (a : StackAction σ υ) : Option (NetStack σ υ × List Event) :=
  match s.phase,a with
  | .polling,.poll sockets now ids =>
    some ({s with sockets := sockets,phase := .servicingTcp now ids},[])
  | .servicingTcp now (id::ids),.serviceTcp moves =>
    serviceTcp pkg cfg {s with phase := .servicingTcp now ids} now id moves
  | .servicingTcp _ [],.beginUdp ids => some ({s with phase := .servicingUdp ids},[])
  | .servicingUdp (id::ids),.serviceUdp moves =>
    serviceUdp pkg {s with phase := .servicingUdp ids} id moves
  | .servicingUdp [],.beginDrain => some ({s with phase := .draining},[])
  | .draining,.drain =>
    match s.deferred with
    | [] => some ({s with phase := .selecting},[])
    | item::rest =>
      (handleOrDefer pkg cfg {s with deferred := rest} item fun rest item => item::rest).map
        fun (s,handled) => (if handled then s else {s with phase := .selecting},[])
  | .selecting,.inbound => some ({s with phase := .polling},[])
  | .selecting,.command cmd handle clock =>
    some (handleCmd pkg cfg {s with phase := .polling} cmd handle clock)
  | .selecting,.data =>
    match s.deferred,s.dataIn.queue with
    | [],item::_ =>
      (handleOrDefer pkg cfg {s with dataIn := s.dataIn.read 1} item
        fun rest item => rest++[item]).map
        fun (s,handled) => ({s with phase := if handled then .receiving else .polling},[])
    | _,_ => some (s,[])
  | .receiving,.tryRecv =>
    match s.deferred,s.dataIn.queue with
    | [],item::_ =>
      (handleOrDefer pkg cfg {s with dataIn := s.dataIn.read 1} item
        fun rest item => rest++[item]).map
        fun (s,_) => (s,[])
    | _,_ => some ({s with phase := .polling},[])
  | .selecting,.sleep => some ({s with phase := .polling},[])
  | .selecting,.stop => some ({s with phase := .stopped},[])
  | _,_ => some (s,[])

/-- What the applications do beside the task. -/
inductive AppAction where
  /-- Queue an item. -/
  | queue (item : DataIn)
  /-- Read a chunk from a TCP connection. -/
  | read (id : ℕ)
  /-- Drop the receiving half of a TCP connection. -/
  | dropReceiver (id : ℕ)
  /-- Stop waiting for a TCP connection. -/
  | dropResp (id : ℕ)
  /-- Read a datagram. -/
  | readUdp (id : ℕ)
  /-- Drop the receiving half of a UDP connection. -/
  | dropUdpReceiver (id : ℕ)

/-- Change a TCP connection that is still there. -/
def modifyTcp (s : NetStack σ υ) (id : ℕ) (f : TcpState → TcpState) : NetStack σ υ :=
  match s.tcpConns.lookup id with
  | none => s
  | some st => {s with tcpConns := s.tcpConns.insert id (f st)}

/-- Change a UDP connection that is still there. -/
def modifyUdp (s : NetStack σ υ) (id : ℕ) (f : UdpState → UdpState) : NetStack σ υ :=
  match s.udpConns.lookup id with
  | none => s
  | some st => {s with udpConns := s.udpConns.insert id (f st)}

/-- A step of an application. It reads and drops only what it has been given. -/
def appStep (s : NetStack σ υ) (a : AppAction) : NetStack σ υ × List Event :=
  match a with
  | .queue item => s.queueItem item
  | .read id => (s.modifyTcp id fun st =>
      if st.fromStackRx then st else {st with toApp := st.toApp.read 1},[])
  | .dropReceiver id => (s.modifyTcp id fun st =>
      if st.fromStackRx then st else {st with toApp := st.toApp.dropReceiver},[])
  | .dropResp id => (s.modifyTcp id fun st =>
      {st with connectResp := st.connectResp.map fun _ => ⟨false⟩},[])
  | .readUdp id => (s.modifyUdp id fun st => {st with toApp := st.toApp.read 1},[])
  | .dropUdpReceiver id => (s.modifyUdp id fun st => {st with toApp := st.toApp.dropReceiver},[])

/-- A step of the task or of an application. -/
inductive Action (σ υ : Type) where
  | stack (a : StackAction σ υ)
  | app (a : AppAction)

/-- A step of the whole system; nothing results when the program stops with an error. -/
def exec (s : NetStack σ υ) : Action σ υ → Option (NetStack σ υ × List Event)
  | .stack a => s.stackStep pkg cfg a
  | .app a => some (s.appStep a)

/-- Polling changes the inside of a socket only, and a connection that has been
open does not begin to open again. -/
def SocketEvolves (before after : Option (Socket σ υ)) : Prop :=
  match before,after with
  | none,none => True
  | some (.tcp a p),some (.tcp b q) =>
    p=q ∧ ((pkg.state b).Opening → (pkg.state a).Opening)
  | some (.udp _ p),some (.udp _ q) => p=q
  | _,_ => False

/-- An application queues items only for connections that it has been given. -/
def Issued (s : NetStack σ υ) (item : DataIn) : Prop :=
  item.id<s.nextId ∧ ∀ st, s.tcpConns.lookup item.id=some st → st.established=true

/-- What the surroundings of the task may do. Polling evolves the sockets, a pass
visits every connection once, and a new socket gets a handle that is not in use. -/
def Allowed (s : NetStack σ υ) : Action σ υ → Prop
  | .stack (.poll sockets _ ids) =>
    (∀ h, SocketEvolves pkg (s.sockets.lookup h) (sockets.lookup h)) ∧ ids.Perm s.tcpConns.keys
  | .stack (.beginUdp ids) => ids.Perm s.udpConns.keys
  | .stack (.command _ handle _) => s.sockets.lookup handle=none
  | .app (.queue item) => s.Issued item
  | _ => True

/-- The stack before its first turn. -/
def spawn (v4 : Option (Ipv4Addr × ℕ)) (v6 : Option (Ipv6Addr × ℕ)) : NetStack σ υ where
  iface := applyAddrs ⟨none,none,none,none⟩ v4 v6
  sockets := ∅
  tcpConns := ∅
  udpConns := ∅
  nextId := 1
  nextPort := 49152
  dataIn := .empty cfg.appQueue
  deferred := []
  phase := .polling

/-- The network stack and the applications as one machine. -/
def machine : Machine (NetStack σ υ) (Action σ υ) Event where
  start s := ∃ v4 v6, s=spawn cfg v4 v6
  allowed := Allowed pkg
  exec := exec pkg cfg

end NetStack

end MsnGuard.NetstackModel
