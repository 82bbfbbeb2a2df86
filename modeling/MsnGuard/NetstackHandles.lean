import MsnGuard.HandleRegistry
import MsnGuard.SimulatedSockets

/-!
# Connections and sockets correspond

The connections of the stack are the owners and its sockets the resources of a registry. Every
step leaves the registry as it is, adds a new connection with a fresh socket, or removes a
connection together with its socket.
-/

namespace MsnGuard.NetstackHandles

open RustText IpAddresses BoundedChannels FiniteTables HandleRegistry TransitionRuns Option Function
open NetstackModel NetStack NetstackPasses NetstackSteps SimulatedSockets

variable {σ υ : Type} (pkg : SocketPackage σ υ) (cfg : Config)

/-- The protocol of a connection or a socket. -/
inductive Proto where
  | tcp
  | udp
  deriving DecidableEq

/-- Protocol and local port of a socket. -/
def shape : Socket σ υ → Proto × ℕ
  | .tcp _ port => (.tcp,port)
  | .udp _ port => (.udp,port)

/-- The owners of both protocols. -/
def owners (tcp udp : ℕ → Option ℕ) : Proto × ℕ → Option ℕ
  | (.tcp,id) => tcp id
  | (.udp,id) => udp id

theorem owners_updateTcp (tcp udp : ℕ → Option ℕ) (id : ℕ) (h : Option ℕ) :
    owners (update tcp id h) udp=update (owners tcp udp) (.tcp,id) h := by
  funext ⟨p,i⟩
  cases p <;> simp [owners,update_apply]

theorem owners_updateUdp (tcp udp : ℕ → Option ℕ) (id : ℕ) (h : Option ℕ) :
    owners tcp (update udp id h)=update (owners tcp udp) (.udp,id) h := by
  funext ⟨p,i⟩
  cases p <;> simp [owners,update_apply]

/-- The connections of a state with their sockets. -/
def registry (s : NetStack σ υ) : Registry (Proto × ℕ) ℕ (Proto × ℕ) where
  owner := owners (view TcpState.handle s.tcpConns) (view UdpState.handle s.udpConns)
  live := view shape s.sockets

/-- A connection uses a socket of its own protocol. -/
def SameProto (k l : Proto × ℕ) : Prop := k.1=l.1

variable {s s' : NetStack σ υ}

/-- States with the same connections and sockets. -/
theorem registry_congr (htcp : view TcpState.handle s'.tcpConns=view TcpState.handle s.tcpConns)
    (hudp : view UdpState.handle s'.udpConns=view UdpState.handle s.udpConns)
    (hlive : view shape s'.sockets=view shape s.sockets) : registry s'=registry s := by
  rw [registry,registry,htcp,hudp,hlive]

/-- The use that a step makes of the port counter: for every port, the number of
the connection that is opened with it, if one is. -/
def allocations (events : List Event) : List (Option ℕ) :=
  events.filterMap fun
    | .allocated _ id => some id
    | _ => none

theorem allocations_append (events more : List Event) :
    allocations (events++more)=allocations events++allocations more :=
  List.filterMap_append

theorem allocations_ofPass {id : ℕ} {events : List Event} (h : ∀ e∈events, OfPass id e) :
    allocations events=[] := by
  rw [allocations,List.filterMap_eq_nil_iff]
  intro e he
  have hp := h e he
  cases e <;> first | rfl | exact hp.elim

/-- A request that opens a socket of a protocol. -/
def Opens (s : NetStack σ υ) (a : Action σ υ) (p : Proto) : Prop :=
  match a,p with
  | .stack (.command (.openTcp dst _) _ _),.tcp =>
    ∃ sock, pkg.connect s.iface dst s.nextPort=.ok sock
  | .stack (.command (.openUdp _) _ _),.udp => ∃ sock, pkg.bind s.nextPort=.ok sock
  | _,_ => False

/-- What a step does to the registry and the counters. -/
inductive Moved (s : NetStack σ υ) (a : Action σ υ) (s' : NetStack σ υ) : List (Option ℕ) → Prop
  /-- Nothing. -/
  | stay : registry s'=registry s → s'.nextId=s.nextId → s'.nextPort=s.nextPort → Moved s a s' []
  /-- It uses up a port without opening a socket. -/
  | burn : registry s'=registry s → s'.nextId=s.nextId → s'.nextPort=allocPort s.nextPort →
      Moved s a s' [none]
  /-- It opens a socket for a new connection. -/
  | opened {p : Proto} {h : ℕ} : Opens pkg s a p → (registry s).live h=none →
      registry s'=(registry s).add (p,s.nextId) h (p,s.nextPort) → s'.nextId=s.nextId+1 →
      s'.nextPort=allocPort s.nextPort → Moved s a s' [some s.nextId]
  /-- It removes a connection and its socket. -/
  | removed {k : Proto × ℕ} {h : ℕ} : (registry s).owner k=some h →
      registry s'=(registry s).release k h → s'.nextId=s.nextId → s'.nextPort=s.nextPort →
      Moved s a s' []

section Parts

variable {s : NetStack σ υ}
variable {id handle : ℕ} {s' : NetStack σ υ} {a : Action σ υ} {used : List (Option ℕ)}
  {new : List Event} {sockets : Table (Socket σ υ)}

theorem owner_tcp {st : TcpState} (h : s.tcpConns.lookup id=some st) :
    (registry s).owner (.tcp,id)=some st.handle := view_of_lookup h

theorem owner_udp {st : UdpState} (h : s.udpConns.lookup id=some st) :
    (registry s).owner (.udp,id)=some st.handle := view_of_lookup h

theorem allocations_queued {item : DataIn} {dataIn : Chan DataIn} {events : List Event}
    (h : Queued s item dataIn events) : allocations events=[] := by
  rcases h with ⟨-,-,rfl⟩ | ⟨-,rfl⟩ <;> rfl

/-- The loop, the items and the channel do not matter before a step. -/
theorem Moved.before {dataIn : Chan DataIn} {deferred : List DataIn} {phase : Phase}
    (h : Moved pkg {s with dataIn := dataIn,deferred := deferred,phase := phase} a s' used) :
    Moved pkg s a s' used := by
  cases h with
  | stay h1 h2 h3 => exact .stay h1 h2 h3
  | burn h1 h2 h3 => exact .burn h1 h2 h3
  | opened ho h1 h2 h3 h4 => exact .opened ho h1 h2 h3 h4
  | removed h1 h2 h3 h4 => exact .removed h1 h2 h3 h4

/-- The loop and the items do not matter after a step. -/
theorem Moved.after {deferred : List DataIn} {phase : Phase} (h : Moved pkg s a s' used) :
    Moved pkg s a {s' with deferred := deferred,phase := phase} used := by
  cases h with
  | stay h1 h2 h3 => exact .stay h1 h2 h3
  | burn h1 h2 h3 => exact .burn h1 h2 h3
  | opened ho h1 h2 h3 h4 => exact .opened ho h1 h2 h3 h4
  | removed h1 h2 h3 h4 => exact .removed h1 h2 h3 h4

/-- A TCP connection with its socket is taken out of the tables. -/
theorem registry_eraseTcp (htcp : s'.tcpConns=s.tcpConns.erase id)
    (hudp : s'.udpConns=s.udpConns) (hlive : s'.sockets=s.sockets.erase handle) :
    registry s'=(registry s).release (.tcp,id) handle := by
  rw [registry,htcp,hudp,hlive,view_erase,view_erase,owners_updateTcp]
  rfl

/-- A UDP connection with its socket is taken out of the tables. -/
theorem registry_eraseUdp (htcp : s'.tcpConns=s.tcpConns)
    (hudp : s'.udpConns=s.udpConns.erase id) (hlive : s'.sockets=s.sockets.erase handle) :
    registry s'=(registry s).release (.udp,id) handle := by
  rw [registry,htcp,hudp,hlive,view_erase,view_erase,owners_updateUdp]
  rfl

theorem visited_moved {now : ℕ} {moves : ℕ → Moves} (h : Visited pkg cfg s id moves now s' new) :
    Moved pkg s a s' (allocations new) := by
  cases h with
  | missing _ => exact .stay rfl rfl rfl
  | aborted hst _ => exact .removed (owner_tcp hst) (registry_eraseTcp rfl rfl rfl) rfl rfl
  | @kept st st' sock _ _ _ _ hst _ hsock hqueued hconn =>
    have hspec := serviceConn_spec pkg cfg now id moves st sock
    have hkeep := hspec.keeps _ _ hconn
    rw [allocations_append,allocations_queued hqueued,allocations_ofPass hspec.events]
    exact .stay (registry_congr (view_insert_same hst hkeep.handle) rfl
      (view_insert_same hsock rfl)) rfl rfl
  | @removed st sock _ _ _ hst _ _ hqueued _ =>
    have hspec := serviceConn_spec pkg cfg now id moves st sock
    rw [allocations_append,allocations_queued hqueued,allocations_ofPass hspec.events]
    exact .removed (owner_tcp hst) (registry_eraseTcp rfl rfl rfl) rfl rfl

/-- Delivery keeps the socket, and needs no other one. -/
theorem deliverUdp_some (moves : ℕ → Moves) (n : ℕ) (toApp : Chan (SocketAddr × Bytes)) (sock : υ) :
    ∃ delivery sock', deliverUdp pkg moves n toApp (some sock)=some delivery ∧
      delivery.sock=some sock' := by
  induction n generalizing toApp sock with
  | zero => exact ⟨_,sock,rfl,rfl⟩
  | succ n ih =>
    unfold deliverUdp
    dsimp only
    split
    · exact ⟨_,sock,rfl,rfl⟩
    · exact ⟨_,sock,rfl,rfl⟩
    · rename_i hsock
      cases hsock
    · rename_i hsock
      cases hsock
      split
      · split
        · exact ih _ _
        · exact ⟨_,_,rfl,rfl⟩
      · exact ⟨_,_,rfl,rfl⟩

/-- A UDP socket that was looked up keeps its protocol and port. -/
theorem view_sockets
    (h : sockets=s.sockets ∨ ∃ sock sock' port, s.sockets.lookup handle=some (.udp sock port) ∧
      sockets=s.sockets.insert handle (.udp sock' port)) :
    view shape sockets=view shape s.sockets := by
  rcases h with heq | ⟨sock,sock',port,hsock,heq⟩
  · rw [heq]
  · rw [heq]
    exact view_insert_same hsock rfl

theorem UdpVisited.moved {s' : NetStack σ υ} {a : Action σ υ} {id : ℕ} (h : UdpVisited s id s') :
    Moved pkg s a s' [] := by
  cases h with
  | missing _ => exact .stay rfl rfl rfl
  | kept hst hsockets =>
    exact .stay (registry_congr rfl (view_insert_same hst rfl) (view_sockets hsockets)) rfl rfl
  | @removed st toApp sockets hst hsockets =>
    have hsame : view UdpState.handle (s.udpConns.insert id {st with toApp := toApp})=
        view UdpState.handle s.udpConns := view_insert_same hst rfl
    refine .removed (owner_udp hst) ?_ rfl rfl
    rw [registry,view_erase,view_erase,view_sockets hsockets,owners_updateUdp,hsame]
    rfl

theorem Handled.moved {s' : NetStack σ υ} {a : Action σ υ} {item : DataIn} {back : Option DataIn}
    (h : Handled cfg s item s' back) : Moved pkg s a s' [] := by
  cases h with
  | tcpMissing _ | tcpFull _ _ | closeMissing _ | udpMissing _ | udpCloseMissing _ =>
    exact .stay rfl rfl rfl
  | tcpTaken hst _ _ | closed hst =>
    exact .stay (registry_congr (view_insert_same hst rfl) rfl rfl) rfl rfl
  | udpSent _ hsock => exact .stay (registry_congr rfl rfl (view_insert_same hsock rfl)) rfl rfl
  | udpClosed hst => exact .removed (owner_udp hst) (registry_eraseUdp rfl rfl rfl) rfl rfl

theorem Commanded.moved {s' : NetStack σ υ} {cmd : Cmd} {handle clock : ℕ} {new : List Event}
    (h : Commanded pkg cfg s cmd handle clock s' new) (hfree : s.sockets.lookup handle=none) :
    Moved pkg s (.stack (.command cmd handle clock)) s' (allocations new) := by
  have hlive : (registry s).live handle=none := view_eq_none.mpr hfree
  cases h with
  | refused e => exact .burn rfl rfl rfl
  | openedTcp hconnect =>
    refine @Moved.opened _ _ _ _ _ _ .tcp handle ⟨_,hconnect⟩ hlive ?_ rfl rfl
    rw [registry,view_insert,view_insert,owners_updateTcp]
    rfl
  | @openedUdp _ _ _ _ _ _ queued hbind hqueued =>
    have hused : allocations (.allocated s.nextPort (some s.nextId)::.answered (.ok s.nextId)::queued)=
        [some s.nextId] := by
      change some s.nextId::allocations queued=_
      rw [allocations_queued hqueued]
    rw [hused]
    refine @Moved.opened _ _ _ _ _ _ .udp handle ⟨_,hbind⟩ hlive ?_ rfl rfl
    rw [registry,view_insert,view_insert,owners_updateUdp]
    rfl
  | addressed iface => exact .stay rfl rfl rfl

/-- Polling keeps protocol and port of every socket. -/
theorem view_shape_evolves {sockets' : Table (Socket σ υ)}
    (h : ∀ k, SocketEvolves pkg (sockets.lookup k) (sockets'.lookup k)) :
    view shape sockets'=view shape sockets := by
  funext k
  have hk := h k
  unfold SocketEvolves at hk
  rw [view,view]
  split at hk
  · rename_i hold hnew
    rw [hold,hnew]
  · rename_i hold hnew
    rw [hold,hnew,map_some,map_some,shape,shape,hk.1]
  · rename_i hold hnew
    rw [hold,hnew,map_some,map_some,shape,shape,hk]
  · exact hk.elim

/-- Every step moves the registry in one of the ways. -/
theorem effect_moved (h : Effect pkg cfg s a s' new) : Moved pkg s a s' (allocations new) := by
  cases h with
  | wait p => exact .stay rfl rfl rfl
  | poll p hevolve => exact .stay (registry_congr rfl rfl (view_shape_evolves pkg hevolve)) rfl rfl
  | tcp _ hstep => exact (visited_moved pkg cfg hstep).before pkg
  | udp hvisit => exact (UdpVisited.moved pkg hvisit).before pkg
  | deferred _ hhandled | received _ _ hhandled =>
    exact ((Handled.moved pkg cfg hhandled).before pkg).after pkg
  | command hfree hcommand => exact (Commanded.moved pkg cfg hcommand hfree).before pkg
  | queue _ hqueued =>
    rw [allocations_queued hqueued]
    exact .stay rfl rfl rfl
  | modifyTcp id hf =>
    unfold modifyTcp
    split
    · exact .stay rfl rfl rfl
    · rename_i st hst
      exact .stay (registry_congr (view_insert_same hst (hf.handle st)) rfl rfl) rfl rfl
  | modifyUdp id hf =>
    unfold modifyUdp
    split
    · exact .stay rfl rfl rfl
    · rename_i st hst
      exact .stay (registry_congr rfl (view_insert_same hst (hf st)) rfl) rfl rfl

end Parts

/-- The invariant: handles and sockets correspond, and numbers are not given twice. -/
structure HandlesOk (s : NetStack σ υ) : Prop where
  /-- The registry is exact. -/
  exact : (registry s).Exact SameProto
  /-- The number of the next connection is free. -/
  fresh : ∀ k h, (registry s).owner k=some h → k.2<s.nextId

theorem handlesOk_spawn (v4 : Option (Ipv4Addr × ℕ)) (v6 : Option (Ipv6Addr × ℕ)) :
    HandlesOk (spawn cfg v4 v6 : NetStack σ υ) := by
  have howner : ∀ k, (registry (spawn cfg v4 v6 : NetStack σ υ)).owner k=none := by
    intro k
    rcases k with ⟨p,id⟩
    cases p <;> rfl
  have hlive : ∀ h, (registry (spawn cfg v4 v6 : NetStack σ υ)).live h=none := fun _ => rfl
  refine ⟨⟨?_,?_,?_⟩,?_⟩
  · intro k h hk
    rw [howner] at hk
    cases hk
  · intro h l hl
    rw [hlive] at hl
    cases hl
  · intro k k' h hk
    rw [howner] at hk
    cases hk
  · intro k h hk
    rw [howner] at hk
    cases hk

/-- A number that has not been given has no connection. -/
theorem HandlesOk.next_free (hs : HandlesOk s) (p : Proto) :
    (registry s).owner (p,s.nextId)=none := by
  rw [eq_none_iff_forall_ne_some]
  intro h hk
  have hlt := hs.fresh _ h hk
  omega

/-- Every step of the stack is a step of the registry. -/
theorem HandlesOk.registry_step {a : Action σ υ} {used : List (Option ℕ)} (hs : HandlesOk s)
    (h : Moved pkg s a s' used) : Registry.Step SameProto (registry s) (registry s') := by
  cases h with
  | stay hreg _ _ | burn hreg _ _ => exact hreg ▸ .stay
  | opened _ hlive hreg _ _ => exact hreg ▸ .add (hs.next_free _) hlive rfl
  | removed howner hreg _ _ => exact hreg ▸ .release howner

theorem HandlesOk.moved {s s' : NetStack σ υ} {a : Action σ υ} {used : List (Option ℕ)}
    (hs : HandlesOk s) (h : Moved pkg s a s' used) : HandlesOk s' := by
  refine ⟨hs.exact.step (hs.registry_step pkg h),?_⟩
  intro k handle hk
  cases h with
  | stay hreg hid _ | burn hreg hid _ =>
    rw [hreg] at hk
    rw [hid]
    exact hs.fresh k handle hk
  | @opened p h' _ hlive hreg hid _ =>
    rw [hreg,Registry.add_owner] at hk
    rw [hid]
    by_cases heq : k=(p,s.nextId)
    · rw [heq]
      exact Nat.lt_succ_self _
    · rw [update_of_ne heq] at hk
      exact Nat.lt_succ_of_lt (hs.fresh k handle hk)
  | @removed k' h' howner hreg hid _ =>
    rw [hreg,Registry.release_owner] at hk
    rw [hid]
    by_cases heq : k=k'
    · rw [heq,update_self] at hk
      cases hk
    · rw [update_of_ne heq] at hk
      exact hs.fresh k handle hk

/-- Along every run, handles and sockets correspond. -/
theorem handlesOk_of_run {cond : List Event → NetStack σ υ → Action σ υ → Prop} {t : List Event}
    (h : (machine pkg cfg).Run cond t s) : HandlesOk s := by
  refine Machine.Run.invariant (fun _ s => HandlesOk s) ?_ ?_ h
  · intro s hs
    rcases hs with ⟨v4,v6,rfl⟩
    exact handlesOk_spawn cfg v4 v6
  · intro t s a s' new hok ha _ he
    exact hok.moved pkg (effect_moved pkg cfg (exec_effect pkg cfg ha he))

section Total

variable {s : NetStack σ υ}

/-- The socket of a TCP connection is there and is a TCP socket. -/
theorem HandlesOk.tcpSocket (hs : HandlesOk s) {id : ℕ} {st : TcpState}
    (h : s.tcpConns.lookup id=some st) : ∃ sock port,
      s.sockets.lookup st.handle=some (.tcp sock port) := by
  rcases hs.exact.live_of_owner _ _ (owner_tcp h) with ⟨l,hlive,hkind⟩
  rcases view_eq_some.mp hlive with ⟨socket,hlookup,rfl⟩
  cases socket with
  | tcp sock port => exact ⟨sock,port,hlookup⟩
  | udp sock port => cases hkind

/-- The socket of a UDP connection is there and is a UDP socket. -/
theorem HandlesOk.udpSocket (hs : HandlesOk s) {id : ℕ} {st : UdpState}
    (h : s.udpConns.lookup id=some st) : ∃ sock port,
      s.sockets.lookup st.handle=some (.udp sock port) := by
  rcases hs.exact.live_of_owner _ _ (owner_udp h) with ⟨l,hlive,hkind⟩
  rcases view_eq_some.mp hlive with ⟨socket,hlookup,rfl⟩
  cases socket with
  | tcp sock port => cases hkind
  | udp sock port => exact ⟨sock,port,hlookup⟩

theorem removeSocket_of_lookup {handle : ℕ} {socket : Socket σ υ}
    (h : s.sockets.lookup handle=some socket) :
    s.removeSocket handle=some {s with sockets := s.sockets.erase handle} := by
  unfold removeSocket
  rw [h]

section

variable (hs : HandlesOk s)

include hs

theorem serviceTcp_total (now id : ℕ) (moves : ℕ → Moves) :
    (serviceTcp pkg cfg s now id moves).isSome=true := by
  unfold serviceTcp
  cases hst : s.tcpConns.lookup id with
  | none => rfl
  | some st =>
    rcases hs.tcpSocket hst with ⟨sock,port,hlookup⟩
    have hfound : s.tcpSocket st.handle=some (sock,port) := by
      unfold NetStack.tcpSocket
      rw [hlookup]
    dsimp only
    rw [removeSocket_of_lookup hlookup,hfound]
    split
    · rfl
    · dsimp only
      split <;> rfl

theorem serviceUdp_total (id : ℕ) (moves : ℕ → Moves) :
    (serviceUdp pkg s id moves).isSome=true := by
  unfold serviceUdp
  cases hst : s.udpConns.lookup id with
  | none => rfl
  | some st =>
    rcases hs.udpSocket hst with ⟨sock,port,hlookup⟩
    have hfound : s.udpSocket st.handle=some (sock,port) := by
      unfold NetStack.udpSocket
      rw [hlookup]
    rcases deliverUdp_some pkg moves MAX_RECV_CHUNKS st.toApp sock with ⟨delivery,sock',hd,hsock⟩
    dsimp only
    rw [hfound,map_some,hd]
    dsimp only
    rw [hsock]
    dsimp only [putUdp]
    split
    · rw [removeSocket_of_lookup (AList.lookup_insert _)]
      rfl
    · rfl

theorem tryHandleData_total (item : DataIn) :
    (tryHandleData pkg cfg s item).isSome=true := by
  unfold tryHandleData
  cases item with
  | tcp id data =>
    dsimp only
    split
    · rfl
    · split_ifs <;> rfl
  | tcpClose id =>
    dsimp only
    split <;> rfl
  | udp id dst data =>
    dsimp only
    cases hst : s.udpConns.lookup id with
    | none => rfl
    | some st =>
      rcases hs.udpSocket hst with ⟨sock,port,hlookup⟩
      have hfound : s.udpSocket st.handle=some (sock,port) := by
        unfold NetStack.udpSocket
        rw [hlookup]
      dsimp only
      rw [hfound]
      rfl
  | udpClose id =>
    dsimp only
    cases hst : s.udpConns.lookup id with
    | none => rfl
    | some st =>
      rcases hs.udpSocket hst with ⟨sock,port,hlookup⟩
      dsimp only
      rw [removeSocket_of_lookup hlookup]
      rfl

/-- The invariant does not look at the loop, the items and the channel. -/
theorem HandlesOk.frame (dataIn : Chan DataIn) (deferred : List DataIn) (phase : Phase) :
    HandlesOk {s with dataIn := dataIn,deferred := deferred,phase := phase} := ⟨hs.exact,hs.fresh⟩

theorem handleOrDefer_total (item : DataIn)
    (defer : List DataIn → DataIn → List DataIn) :
    (handleOrDefer pkg cfg s item defer).isSome=true := by
  unfold handleOrDefer
  rw [isSome_map]
  exact tryHandleData_total pkg cfg hs item

/-- No step of the stack stops the program. -/
theorem exec_total (a : Action σ υ) : (exec pkg cfg s a).isSome=true := by
  cases a with
  | app a => rfl
  | stack a =>
    unfold exec stackStep
    dsimp only
    split
    · rfl
    · exact serviceTcp_total pkg cfg (hs.frame _ _ _) _ _ _
    · rfl
    · exact serviceUdp_total pkg (hs.frame _ _ _) _ _
    · rfl
    · split
      · rfl
      · rw [isSome_map]
        exact handleOrDefer_total pkg cfg (hs.frame _ _ _) _ _
    · rfl
    · rfl
    · split
      · rw [isSome_map]
        exact handleOrDefer_total pkg cfg (hs.frame _ _ _) _ _
      · rfl
    · split
      · rw [isSome_map]
        exact handleOrDefer_total pkg cfg (hs.frame _ _ _) _ _
      · rfl
    · rfl
    · rfl
    · rfl

end

end Total

/-- The handle that a connection of a protocol stores. -/
def handleOf (s : NetStack σ υ) : Proto × ℕ → Option ℕ
  | (.tcp,id) => (s.tcpConns.lookup id).map TcpState.handle
  | (.udp,id) => (s.udpConns.lookup id).map UdpState.handle

theorem handleOf_eq (s : NetStack σ υ) (k : Proto × ℕ) : handleOf s k=(registry s).owner k := by
  rcases k with ⟨p,id⟩
  cases p <;> rfl

/-- In every reachable state the handles of the connections are pairwise
distinct, they are exactly the handles of the sockets, every connection has a
socket of its protocol, and whatever happens next does not stop the program. -/
theorem handles_exact {t : List Event} {s : NetStack σ υ} (h : (machine pkg cfg).Run always t s) :
    (∀ k k' handle, handleOf s k=some handle → handleOf s k'=some handle → k=k') ∧
      (∀ handle, (s.sockets.lookup handle).isSome=true ↔ ∃ k, handleOf s k=some handle) ∧
      (∀ id st, s.tcpConns.lookup id=some st →
        ∃ sock port, s.sockets.lookup st.handle=some (.tcp sock port)) ∧
      (∀ id st, s.udpConns.lookup id=some st →
        ∃ sock port, s.sockets.lookup st.handle=some (.udp sock port)) ∧
      ∀ a, (exec pkg cfg s a).isSome=true := by
  have hs := handlesOk_of_run pkg cfg h
  refine ⟨?_,?_,fun id st => hs.tcpSocket,fun id st => hs.udpSocket,exec_total pkg cfg hs⟩
  · intro k k' handle hk hk'
    rw [handleOf_eq] at hk hk'
    exact hs.exact.injective k k' handle hk hk'
  · intro handle
    constructor
    · intro hlive
      rcases Option.isSome_iff_exists.mp hlive with ⟨socket,hlookup⟩
      rcases hs.exact.owner_of_live handle _ (view_of_lookup hlookup) with ⟨k,hk⟩
      exact ⟨k,by rw [handleOf_eq]; exact hk⟩
    · intro howner
      rcases howner with ⟨k,hk⟩
      rw [handleOf_eq] at hk
      rcases hs.exact.live_of_owner k handle hk with ⟨l,hlive,-⟩
      rcases view_eq_some.mp hlive with ⟨socket,hlookup,-⟩
      rw [hlookup]
      rfl

/-- A connection has been requested: its handle is the only one, and the stack
goes on whatever happens. -/
theorem handles_exact_requested :
    handleOf (solo requested ⟨.synSent,[],tcpTxBuf⟩ (.empty 128) .polling) (.tcp,1)=some 0 ∧
      (∀ k, handleOf (solo requested ⟨.synSent,[],tcpTxBuf⟩ (.empty 128) .polling) k=some 0 →
        k=(.tcp,1)) ∧
      ∀ a, (exec simPackage simConfig
        (solo requested ⟨.synSent,[],tcpTxBuf⟩ (.empty 128) .polling) a).isSome=true := by
  have hrun : simMachine.Run always [.allocated 49152 (some 1)]
      (solo requested ⟨.synSent,[],tcpTxBuf⟩ (.empty 128) .polling) :=
    (Machine.Run.start sim_start).replay passes_always (request (.openTcp peer ⟨true⟩)) rfl
  have hexact := handles_exact simPackage simConfig hrun
  exact ⟨rfl,fun k hk => hexact.1 k (.tcp,1) 0 hk rfl,hexact.2.2.2.2⟩

end MsnGuard.NetstackHandles
