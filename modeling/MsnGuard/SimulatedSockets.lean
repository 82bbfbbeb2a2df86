import MsnGuard.NetstackSteps

/-!
# A small socket package

Sockets with a receive buffer that is handed out at once and a transmit buffer
of fixed room. They obey the laws of the package and are enough to run the
stack: a single connection is opened, polled and serviced.
-/

namespace MsnGuard.SimulatedSockets

open RustText IpAddresses BoundedChannels FiniteTables TransitionRuns NetstackModel NetStack

/-- A TCP socket. -/
structure SimTcp where
  /-- State of the connection. -/
  phase : TcpPhase
  /-- Received bytes. -/
  rx : Bytes
  /-- Free bytes of the transmit buffer. -/
  room : ℕ
  deriving DecidableEq

/-- Bytes of a transmit buffer. -/
def tcpTxBuf : ℕ := 128*1024

/-- The number of bytes taken from an offer. -/
def SimTcp.takes (s : SimTcp) (data : Bytes) : Option ℕ :=
  if s.phase=.established ∨ s.phase=.closeWait then some (min data.length s.room) else none

/-- The package of simulated sockets. -/
def simPackage : SocketPackage SimTcp Unit where
  connect _ dst _ := if dst.port=0 then .error "Unaddressable" else .ok ⟨.synSent,[],tcpTxBuf⟩
  state s := s.phase
  canSend s := decide ((s.phase=.established ∨ s.phase=.closeWait) ∧ 0<s.room)
  sendSlice s data := (s.takes data,{s with room := s.room-(s.takes data).getD 0})
  close s := {s with phase := s.phase.afterClose}
  abort s := {s with phase := .closed}
  canRecv s := decide (s.rx≠[])
  recv s := (some s.rx,{s with rx := []})
  recvQueue s := s.rx
  bind _ := .ok ()
  udpCanRecv _ := false
  udpRecv s := (none,s)
  udpSendSlice s _ _ := s
  sendSlice_le s data n h := by
    dsimp only [SimTcp.takes] at h
    split at h
    · cases h
      exact Nat.min_le_left _ _
    · cases h
  state_sendSlice _ _ := rfl
  canSend_state s h := by
    rw [decide_eq_true_eq] at h
    exact h.1
  state_close _ := rfl
  close_over s h := by
    rcases s with ⟨phase,rx,room⟩
    rcases h with h | h <;> (dsimp only at h; rw [h]; rfl)
  state_abort _ := rfl
  state_recv _ := rfl
  canRecv_iff _ := decide_eq_true_iff
  recv_some s h := ⟨s.rx,rfl,of_decide_eq_true h⟩

/-- The smallest configuration of the program. -/
def simConfig : Config := ⟨128,512*1024,30000,10000⟩

/-- The stack with simulated sockets. -/
abbrev simMachine := machine simPackage simConfig

/-- An interface with one address. -/
def simIface : Iface := applyAddrs ⟨none,none,none,none⟩ (some (ipv4OfOctets 172 16 0 2,32)) none

/-- A stack with a single TCP connection. -/
def solo (st : TcpState) (sock : SimTcp) (dataIn : Chan DataIn) (phase : Phase) :
    NetStack SimTcp Unit where
  iface := simIface
  sockets := AList.singleton 0 (.tcp sock 49152)
  tcpConns := AList.singleton 1 st
  udpConns := ∅
  nextId := 2
  nextPort := 49153
  dataIn := dataIn
  deferred := []
  phase := phase

/-- A connection that has just been requested. -/
def requested : TcpState := ⟨0,.empty 128,true,some ⟨true⟩,30000,[],false,false,none,false⟩

/-- A connection that has been handed to its application. -/
def opened (pending : Bytes) : TcpState :=
  ⟨0,.empty 128,false,none,30000,pending,true,false,none,false⟩

/-- An application that only looks on. -/
def still : ℕ → Moves := fun _ => ⟨0,false⟩

/-- An address to connect to. -/
def peer : SocketAddr := ⟨.v4 (ipv4OfOctets 93 184 216 34),443⟩

instance (before after : Option (Socket SimTcp Unit)) :
    Decidable (SocketEvolves simPackage before after) := by
  unfold SocketEvolves
  split <;> infer_instance

/-- Whether the surroundings may do something. -/
def passes (s : NetStack SimTcp Unit) : Action SimTcp Unit → Bool
  | .stack (.poll sockets _ ids) =>
    (s.sockets.keys++sockets.keys).all (fun h =>
      decide (SocketEvolves simPackage (s.sockets.lookup h) (sockets.lookup h))) &&
    decide (ids.Perm s.tcpConns.keys)
  | .stack (.beginUdp ids) => decide (ids.Perm s.udpConns.keys)
  | .stack (.command _ handle _) => (s.sockets.lookup handle).isNone
  | .app (.queue item) =>
    decide (item.id<s.nextId) && (s.tcpConns.lookup item.id).all (·.established)
  | _ => true

theorem allowed_of_passes {s : NetStack SimTcp Unit} {a : Action SimTcp Unit}
    (h : passes s a=true) : Allowed simPackage s a := by
  unfold passes at h
  split at h
  · rename_i sockets now ids
    rw [Bool.and_eq_true,List.all_eq_true,decide_eq_true_eq] at h
    refine ⟨fun k => ?_,h.2⟩
    by_cases hk : k∈s.sockets.keys++sockets.keys
    · exact of_decide_eq_true (h.1 k hk)
    · rw [List.mem_append,not_or] at hk
      rw [AList.lookup_eq_none.mpr hk.1,AList.lookup_eq_none.mpr hk.2]
      trivial
  · rw [decide_eq_true_eq] at h
    exact h
  · exact Option.isNone_iff_eq_none.mp h
  · rw [Bool.and_eq_true,decide_eq_true_eq] at h
    refine ⟨h.1,fun st hst => ?_⟩
    rw [hst] at h
    exact h.2
  · unfold Allowed
    split
    all_goals first | trivial | grind

theorem passes_always (t : List Event) (s : NetStack SimTcp Unit) (a : Action SimTcp Unit)
    (h : passes s a=true) : simMachine.allowed s a ∧ always t s a :=
  ⟨allowed_of_passes h,trivial⟩

/-- The connection that is serviced next, with its socket. -/
def served (s : NetStack SimTcp Unit) : Option (TcpState × SimTcp) :=
  match s.phase with
  | .servicingTcp _ (id::_) => (s.tcpConns.lookup id).bind fun st =>
      (s.tcpSocket st.handle).map fun (sock,_) => (st,sock)
  | _ => none

theorem served_eq {s : NetStack SimTcp Unit} {now id port : ℕ} {ids : List ℕ} {st : TcpState}
    {sock : SimTcp} (hphase : s.phase=.servicingTcp now (id::ids))
    (hst : s.tcpConns.lookup id=some st) (hsock : s.sockets.lookup st.handle=some (.tcp sock port)) :
    served s=some (st,sock) := by
  simp [served,hphase,hst,tcpSocket,hsock]

/-- The start of the stack. -/
def simStart : NetStack SimTcp Unit := spawn simConfig (some (ipv4OfOctets 172 16 0 2,32)) none

theorem sim_start : simMachine.start simStart := ⟨_,_,rfl⟩

/-- The end of a turn of the loop that has no UDP connection to service. -/
def endTurn : List (Action SimTcp Unit) :=
  [.stack (.beginUdp []),.stack .beginDrain,.stack .drain]

/-- A turn of the loop with a single connection whose socket has become another. -/
def turn (sock : SimTcp) (now : ℕ) : List (Action SimTcp Unit) :=
  [.stack (.poll (AList.singleton 0 (.tcp sock 49152)) now [1]),.stack (.serviceTcp still)]++endTurn

/-- The first turn of the stack, and a request. -/
def request (cmd : Cmd) : List (Action SimTcp Unit) :=
  .stack (.poll ∅ 0 [])::endTurn++[.stack (.command cmd 0 0)]

/-- A connection is requested and opens. -/
def opening : List (Action SimTcp Unit) :=
  request (.openTcp peer ⟨true⟩)++turn ⟨.established,[],tcpTxBuf⟩ 1

/-- An application queues bytes for the connection. -/
def queueing (data : Bytes) : List (Action SimTcp Unit) :=
  [.app (.queue (.tcp 1 data)),.stack .data,.stack .tryRecv]

end MsnGuard.SimulatedSockets
