import MsnGuard.NetstackPasses

/-!
# What a step of the network stack can do

Every step of the machine moves on in the loop, polls, services one connection,
handles one waiting item, carries out a request, or is a move of an application.
The invariants of the stack are proved from this list, not from the loop.
-/

namespace MsnGuard.NetstackSteps

open RustText IpAddresses BoundedChannels FiniteTables NetstackModel NetStack List Option

variable {σ υ : Type} (pkg : SocketPackage σ υ) (cfg : Config)
variable {handle port id : ℕ} {moves : ℕ → Moves} {new : List Event} {item : DataIn}
  {handled : Bool}

/-- An item has entered the channel, or there was no room for it. -/
def Queued (s : NetStack σ υ) (item : DataIn) (dataIn : Chan DataIn) (events : List Event) : Prop :=
  (s.dataIn.queue.length<s.dataIn.capacity ∧ dataIn=s.dataIn.send item ∧
    events=[.queued item]) ∨ (dataIn=s.dataIn ∧ events=[])

theorem queueItem_queued (s : NetStack σ υ) (item : DataIn) : ∃ dataIn events,
    s.queueItem item=({s with dataIn := dataIn},events) ∧ Queued s item dataIn events := by
  unfold queueItem
  split
  · rename_i hroom
    exact ⟨_,_,rfl,.inl ⟨hroom,rfl,rfl⟩⟩
  · exact ⟨_,_,rfl,.inr ⟨rfl,rfl⟩⟩

variable {s : NetStack σ υ}

theorem lookup_of_tcpSocket {sock : σ} (h : s.tcpSocket handle=some (sock,port)) :
    s.sockets.lookup handle=some (.tcp sock port) := by
  unfold tcpSocket at h
  split at h
  · cases h
    assumption
  · cases h

theorem lookup_of_udpSocket {sock : υ} (h : s.udpSocket handle=some (sock,port)) :
    s.sockets.lookup handle=some (.udp sock port) := by
  unfold udpSocket at h
  split at h
  · cases h
    assumption
  · cases h

variable {s' : NetStack σ υ}

theorem removeSocket_eq_some (h : s.removeSocket handle=some s') :
    s'={s with sockets := s.sockets.erase handle} := by
  unfold removeSocket at h
  split at h
  · exact (some.inj h).symm
  · cases h

/-- What becomes of a connection and its socket after a pass. -/
inductive Visited (s : NetStack σ υ) (id : ℕ) (moves : ℕ → Moves) (now : ℕ) :
    NetStack σ υ → List Event → Prop
  /-- There is no such connection. -/
  | missing : s.tcpConns.lookup id=none → Visited s id moves now s []
  /-- It was aborted before and is removed. -/
  | aborted {st : TcpState} : s.tcpConns.lookup id=some st → st.aborted=true →
      Visited s id moves now
        {s with sockets := s.sockets.erase st.handle,tcpConns := s.tcpConns.erase id}
        [.removed id st.appHolds st.established (s.unread pkg st.handle)]
  /-- It is serviced and stays. -/
  | kept {st st' : TcpState} {sock sock' : σ} {port : ℕ} {dataIn : Chan DataIn}
      {queued : List Event} : s.tcpConns.lookup id=some st → st.aborted=false →
      s.sockets.lookup st.handle=some (.tcp sock port) → Queued s (.tcpClose id) dataIn queued →
      (serviceConn pkg cfg now id moves st sock).conn=some (st',sock') →
      Visited s id moves now
        {s with dataIn := dataIn,tcpConns := s.tcpConns.insert id st',
                sockets := s.sockets.insert st.handle (.tcp sock' port)}
        (queued++(serviceConn pkg cfg now id moves st sock).events)
  /-- It is serviced and removed. -/
  | removed {st : TcpState} {sock : σ} {port : ℕ} {dataIn : Chan DataIn} {queued : List Event} :
      s.tcpConns.lookup id=some st → st.aborted=false →
      s.sockets.lookup st.handle=some (.tcp sock port) → Queued s (.tcpClose id) dataIn queued →
      (serviceConn pkg cfg now id moves st sock).conn=none →
      Visited s id moves now
        {s with dataIn := dataIn,tcpConns := s.tcpConns.erase id,
                sockets := s.sockets.erase st.handle}
        (queued++(serviceConn pkg cfg now id moves st sock).events)

theorem serviceTcp_visited {now : ℕ} (h : serviceTcp pkg cfg s now id moves=some (s',new)) :
    Visited pkg cfg s id moves now s' new := by
  unfold serviceTcp at h
  split at h
  · rename_i hmissing
    cases h
    exact .missing hmissing
  rename_i st hst
  split at h
  · rename_i haborted
    rw [map_eq_some_iff] at h
    rcases h with ⟨s₁,hremove,heq⟩
    cases heq
    rw [removeSocket_eq_some hremove]
    exact .aborted hst haborted
  rename_i hrunning
  split at h
  · cases h
  rename_i sock port hsock
  have halive : st.aborted=false := Bool.eq_false_of_not_eq_true hrunning
  have hlookup := lookup_of_tcpSocket hsock
  dsimp only at h
  have hqueue : ∃ dataIn events,
      (if (serviceConn pkg cfg now id moves st sock).queuesClose=true then
        s.queueItem (.tcpClose id) else (s,[]))=({s with dataIn := dataIn},events) ∧
      Queued s (.tcpClose id) dataIn events := by
    split
    · exact queueItem_queued s _
    · exact ⟨_,_,rfl,.inr ⟨rfl,rfl⟩⟩
  rcases hqueue with ⟨dataIn,events,heq,hqueued⟩
  rw [heq] at h
  dsimp only at h
  split at h
  · rename_i st' sock' hconn
    cases h
    exact .kept hst halive hlookup hqueued hconn
  · rename_i hconn
    cases h
    exact .removed hst halive hlookup hqueued hconn

/-- What becomes of a UDP connection and its socket after a pass. -/
inductive UdpVisited (s : NetStack σ υ) (id : ℕ) : NetStack σ υ → Prop
  /-- There is no such connection. -/
  | missing : s.udpConns.lookup id=none → UdpVisited s id s
  /-- It is serviced and stays; its socket has been looked up or not. -/
  | kept {st : UdpState} {toApp : Chan (SocketAddr × Bytes)} {sockets : Table (Socket σ υ)} :
      s.udpConns.lookup id=some st →
      (sockets=s.sockets ∨ ∃ sock sock' port, s.sockets.lookup st.handle=some (.udp sock port) ∧
        sockets=s.sockets.insert st.handle (.udp sock' port)) →
      UdpVisited s id {s with udpConns := s.udpConns.insert id {st with toApp := toApp},
                              sockets := sockets}
  /-- It is serviced and removed. -/
  | removed {st : UdpState} {toApp : Chan (SocketAddr × Bytes)} {sockets : Table (Socket σ υ)} :
      s.udpConns.lookup id=some st →
      (sockets=s.sockets ∨ ∃ sock sock' port, s.sockets.lookup st.handle=some (.udp sock port) ∧
        sockets=s.sockets.insert st.handle (.udp sock' port)) →
      UdpVisited s id {s with udpConns := (s.udpConns.insert id {st with toApp := toApp}).erase id,
                              sockets := sockets.erase st.handle}

/-- Putting a UDP socket back changes only the sockets. -/
theorem putUdp_eq (s : NetStack σ υ) (handle : ℕ) (sock : Option υ) : ∃ sockets,
    s.putUdp handle (s.udpSocket handle) sock={s with sockets := sockets} ∧
      (sockets=s.sockets ∨ ∃ sock sock' port, s.sockets.lookup handle=some (.udp sock port) ∧
        sockets=s.sockets.insert handle (.udp sock' port)) := by
  unfold putUdp
  split
  · rename_i sock' old port hfound
    exact ⟨_,rfl,.inr ⟨old,sock',port,lookup_of_udpSocket hfound,rfl⟩⟩
  · exact ⟨_,rfl,.inl rfl⟩

theorem serviceUdp_visited (h : serviceUdp pkg s id moves=some (s',new)) :
    UdpVisited s id s' ∧ new=[] := by
  unfold serviceUdp at h
  split at h
  · rename_i hmissing
    cases h
    exact ⟨.missing hmissing,rfl⟩
  rename_i st hst
  dsimp only at h
  split at h
  · cases h
  rename_i delivery _
  set kept : UdpState := {st with toApp := delivery.toApp.after (moves 0)} with hkept
  set s₁ : NetStack σ υ := {s with udpConns := s.udpConns.insert id kept} with hs₁
  rcases putUdp_eq s₁ st.handle delivery.sock with ⟨sockets,heq,hsockets⟩
  have hput : s₁.putUdp st.handle (s.udpSocket st.handle) delivery.sock=
      {s₁ with sockets := sockets} := heq
  rw [hput] at h
  split at h
  · rw [map_eq_some_iff] at h
    rcases h with ⟨s₂,hremove,hboth⟩
    rw [←(Prod.mk.inj hboth).1,←(Prod.mk.inj hboth).2,removeSocket_eq_some hremove]
    exact ⟨.removed hst hsockets,rfl⟩
  · have hboth := Prod.mk.inj (some.inj h)
    rw [←hboth.1,←hboth.2]
    exact ⟨.kept hst hsockets,rfl⟩

/-- What becomes of an item: the state after it, and what has to be deferred. -/
inductive Handled (s : NetStack σ υ) : DataIn → NetStack σ υ → Option DataIn → Prop
  /-- Bytes for a connection that is gone are dropped. -/
  | tcpMissing {i : ℕ} {data : Bytes} : s.tcpConns.lookup i=none → Handled s (.tcp i data) s none
  /-- No more bytes may be pending. -/
  | tcpFull {i : ℕ} {data : Bytes} {st : TcpState} : s.tcpConns.lookup i=some st →
      maxTcpPending cfg ≤ st.pending.length → Handled s (.tcp i data) s (some (.tcp i data))
  /-- Bytes become pending, and a rest that does not fit is deferred. -/
  | tcpTaken {i : ℕ} {taken rest : Bytes} {back : Option DataIn} {st : TcpState} :
      s.tcpConns.lookup i=some st → (st.pending++taken).length ≤ maxTcpPending cfg →
      (rest=[] ∧ back=none) ∨ back=some (.tcp i rest) →
      Handled s (.tcp i (taken++rest))
        {s with tcpConns := s.tcpConns.insert i {st with pending := st.pending++taken}} back
  /-- The close of a connection that is gone does nothing. -/
  | closeMissing {i : ℕ} : s.tcpConns.lookup i=none → Handled s (.tcpClose i) s none
  /-- The application has closed its half. -/
  | closed {i : ℕ} {st : TcpState} : s.tcpConns.lookup i=some st → Handled s (.tcpClose i)
        {s with tcpConns := s.tcpConns.insert i {st with halfClosed := true}} none
  /-- A datagram of a connection that is gone is dropped. -/
  | udpMissing {i : ℕ} {dst : SocketAddr} {data : Bytes} : s.udpConns.lookup i=none →
      Handled s (.udp i dst data) s none
  /-- A datagram is offered to its socket. -/
  | udpSent {i : ℕ} {dst : SocketAddr} {data : Bytes} {st : UdpState} {sock sock' : υ} {port : ℕ} :
      s.udpConns.lookup i=some st → s.sockets.lookup st.handle=some (.udp sock port) →
      Handled s (.udp i dst data)
        {s with sockets := s.sockets.insert st.handle (.udp sock' port)} none
  /-- The close of a UDP connection that is gone does nothing. -/
  | udpCloseMissing {i : ℕ} : s.udpConns.lookup i=none → Handled s (.udpClose i) s none
  /-- A UDP connection is closed and removed. -/
  | udpClosed {i : ℕ} {st : UdpState} : s.udpConns.lookup i=some st → Handled s (.udpClose i)
        {s with sockets := s.sockets.erase st.handle,udpConns := s.udpConns.erase i} none

theorem tryHandleData_handled {back : Option DataIn}
    (h : tryHandleData pkg cfg s item=some (s',back)) : Handled cfg s item s' back := by
  cases item with
  | tcp i data =>
    simp only [tryHandleData] at h
    split at h
    · rename_i hmissing
      cases h
      exact .tcpMissing hmissing
    rename_i st hst
    split_ifs at h with hfull hfits
    · cases h
      exact .tcpFull hst hfull
    · cases h
      have hle : (st.pending++data).length ≤ maxTcpPending cfg := by
        rw [length_append]
        omega
      have htaken := @Handled.tcpTaken _ _ cfg s i data [] none st hst hle (.inl ⟨rfl,rfl⟩)
      rw [append_nil] at htaken
      exact htaken
    · cases h
      have hle : (st.pending++data.take (maxTcpPending cfg-st.pending.length)).length ≤
          maxTcpPending cfg := by
        rw [length_append,length_take]
        omega
      have htaken := @Handled.tcpTaken _ _ cfg s i _ (data.drop (maxTcpPending cfg-st.pending.length))
        _ st hst hle (.inr rfl)
      rw [take_append_drop] at htaken
      exact htaken
  | tcpClose i =>
    simp only [tryHandleData] at h
    split at h
    · rename_i hmissing
      cases h
      exact .closeMissing hmissing
    · rename_i st hst
      cases h
      exact .closed hst
  | udp i dst data =>
    simp only [tryHandleData] at h
    split at h
    · rename_i hmissing
      cases h
      exact .udpMissing hmissing
    rename_i st hst
    split at h
    · cases h
    · rename_i sock port hsock
      cases h
      exact .udpSent hst (lookup_of_udpSocket hsock)
  | udpClose i =>
    simp only [tryHandleData] at h
    split at h
    · rename_i hmissing
      cases h
      exact .udpCloseMissing hmissing
    · rename_i st hst
      rw [map_eq_some_iff] at h
      rcases h with ⟨s₁,hremove,heq⟩
      cases heq
      rw [removeSocket_eq_some hremove]
      exact .udpClosed hst

/-- What becomes of a request. -/
inductive Commanded (s : NetStack σ υ) : Cmd → ℕ → ℕ → NetStack σ υ → List Event → Prop
  /-- A socket cannot be opened; its port is used up. -/
  | refused {cmd : Cmd} {handle clock : ℕ} (e : String) : Commanded s cmd handle clock
      {s with nextPort := allocPort s.nextPort}
      [.allocated s.nextPort none,.answered (.error e)]
  /-- A TCP connection is requested. -/
  | openedTcp {dst : SocketAddr} {resp : Oneshot} {handle clock : ℕ} {sock : σ} :
      pkg.connect s.iface dst s.nextPort=.ok sock →
      Commanded s (.openTcp dst resp) handle clock
        {s with sockets := s.sockets.insert handle (.tcp sock s.nextPort),nextId := s.nextId+1,
                nextPort := allocPort s.nextPort,
                tcpConns := s.tcpConns.insert s.nextId
                  ⟨handle,.empty cfg.appQueue,true,some resp,clock+cfg.connectTimeout,[],false,false,
                    none,false⟩}
        [.allocated s.nextPort (some s.nextId)]
  /-- A UDP connection is opened; its own close may be queued at once. -/
  | openedUdp {resp : Oneshot} {handle clock : ℕ} {sock : υ} {toApp : Chan (SocketAddr × Bytes)}
      {dataIn : Chan DataIn} {queued : List Event} : pkg.bind s.nextPort=.ok sock →
      Queued s (.udpClose s.nextId) dataIn queued →
      Commanded s (.openUdp resp) handle clock
        {s with sockets := s.sockets.insert handle (.udp sock s.nextPort),nextId := s.nextId+1,
                nextPort := allocPort s.nextPort,dataIn := dataIn,
                udpConns := s.udpConns.insert s.nextId ⟨handle,toApp⟩}
        (.allocated s.nextPort (some s.nextId)::.answered (.ok s.nextId)::queued)
  /-- The addresses are replaced. -/
  | addressed {cmd : Cmd} {handle clock : ℕ} (iface : Iface) :
      Commanded s cmd handle clock {s with iface := iface} []

theorem handleCmd_commanded (s : NetStack σ υ) (cmd : Cmd) (handle clock : ℕ) :
    Commanded pkg cfg s cmd handle clock (handleCmd pkg cfg s cmd handle clock).1
      (handleCmd pkg cfg s cmd handle clock).2 := by
  cases cmd with
  | openTcp dst resp =>
    simp only [handleCmd]
    split
    · exact .refused _
    · rename_i sock hconnect
      exact .openedTcp hconnect
  | openUdp resp =>
    simp only [handleCmd]
    split
    · exact .refused _
    · rename_i sock hbind
      split
      · exact .openedUdp hbind (.inr ⟨rfl,rfl⟩)
      · unfold queueItem
        split
        · rename_i hroom
          exact .openedUdp hbind (.inl ⟨hroom,rfl,rfl⟩)
        · exact .openedUdp hbind (.inr ⟨rfl,rfl⟩)
  | setAddrs v4 v6 => exact .addressed _

/-- A move of an application on a TCP connection: it reads, drops its receiver or
stops waiting. -/
structure AppMove (f : TcpState → TcpState) : Prop where
  /-- The socket stays. -/
  handle : ∀ st, (f st).handle=st.handle
  /-- The pending bytes stay. -/
  pending : ∀ st, (f st).pending=st.pending
  /-- Only the stack opens the connection. -/
  established : ∀ st, (f st).established=st.established
  /-- Only the stack closes the application's half. -/
  halfClosed : ∀ st, (f st).halfClosed=st.halfClosed
  /-- Only the stack aborts the connection. -/
  aborted : ∀ st, (f st).aborted=st.aborted
  /-- A receiver does not come back. -/
  rxAlive : ∀ st, (f st).toApp.rxAlive=true → st.toApp.rxAlive=true
  /-- Only the stack takes the responder. -/
  connectResp : ∀ st, (f st).connectResp.isSome=st.connectResp.isSome
  /-- Only the stack gives the receiver away. -/
  fromStackRx : ∀ st, (f st).fromStackRx=st.fromStackRx

/-- What a step does. -/
inductive Effect (s : NetStack σ υ) : Action σ υ → NetStack σ υ → List Event → Prop
  /-- It moves on in the loop, or does nothing. -/
  | wait {a : Action σ υ} (p : Phase) : Effect s a {s with phase := p} []
  /-- It polls. -/
  | poll {a : Action σ υ} {sockets : Table (Socket σ υ)} (p : Phase) :
      (∀ h, SocketEvolves pkg (s.sockets.lookup h) (sockets.lookup h)) →
      Effect s a {s with sockets := sockets,phase := p} []
  /-- It services a TCP connection. -/
  | tcp {now id : ℕ} {ids : List ℕ} {moves : ℕ → Moves} {p : Phase} {s' : NetStack σ υ}
      {new : List Event} : s.phase=.servicingTcp now (id::ids) →
      Visited pkg cfg {s with phase := p} id moves now s' new →
      Effect s (.stack (.serviceTcp moves)) s' new
  /-- It services a UDP connection. -/
  | udp {a : Action σ υ} {id : ℕ} {p : Phase} {s' : NetStack σ υ} :
      UdpVisited {s with phase := p} id s' → Effect s a s' []
  /-- It handles the first deferred item. -/
  | deferred {a : Action σ υ} {item : DataIn} {rest : List DataIn} {back : Option DataIn}
      {p : Phase} {s' : NetStack σ υ} : s.deferred=item::rest →
      Handled cfg {s with deferred := rest} item s' back →
      Effect s a {s' with deferred := back.toList++s'.deferred,phase := p} []
  /-- It handles the first item of the channel; none is deferred. -/
  | received {a : Action σ υ} {item : DataIn} {rest : List DataIn} {back : Option DataIn}
      {p : Phase} {s' : NetStack σ υ} : s.deferred=[] → s.dataIn.queue=item::rest →
      Handled cfg {s with dataIn := s.dataIn.read 1} item s' back →
      Effect s a {s' with deferred := s'.deferred++back.toList,phase := p} []
  /-- It carries out a request. -/
  | command {cmd : Cmd} {handle clock : ℕ} {p : Phase} {s' : NetStack σ υ} {new : List Event} :
      s.sockets.lookup handle=none →
      Commanded pkg cfg {s with phase := p} cmd handle clock s' new →
      Effect s (.stack (.command cmd handle clock)) s' new
  /-- An application queues an item. -/
  | queue {a : Action σ υ} {item : DataIn} {dataIn : Chan DataIn} {new : List Event} :
      s.Issued item → Queued s item dataIn new → Effect s a {s with dataIn := dataIn} new
  /-- An application moves on a TCP connection. -/
  | modifyTcp {a : Action σ υ} {f : TcpState → TcpState} (id : ℕ) : AppMove f →
      Effect s a (s.modifyTcp id f) []
  /-- An application moves on a UDP connection. -/
  | modifyUdp {a : Action σ υ} {f : UdpState → UdpState} (id : ℕ) :
      (∀ st, (f st).handle=st.handle) → Effect s a (s.modifyUdp id f) []

/-- A handled item, or its deferred rest. -/
theorem handleOrDefer_eq_some {defer : List DataIn → DataIn → List DataIn}
    (h : handleOrDefer pkg cfg s item defer=some (s',handled)) :
    ∃ s₁ back, tryHandleData pkg cfg s item=some (s₁,back) ∧
      s'={s₁ with deferred := back.elim s₁.deferred (defer s₁.deferred)} ∧
      (handled=true ↔ back=none) := by
  unfold handleOrDefer at h
  rw [map_eq_some_iff] at h
  rcases h with ⟨⟨s₁,back⟩,htry,heq⟩
  refine ⟨s₁,back,htry,?_⟩
  cases back with
  | none | some item =>
    rw [Prod.mk.injEq] at heq
    exact ⟨heq.1.symm,by simp [←heq.2]⟩

variable {a : Action σ υ}

/-- A step without effect on the connections. -/
theorem effect_wait {p : Phase}
    (h : some (({s with phase := p} : NetStack σ υ),([] : List Event))=some (s',new)) :
    Effect pkg cfg s a s' new := by
  cases h
  exact .wait p

/-- The first item of the channel is handled when none is deferred. -/
theorem effect_received {rest : List DataIn} (hd : s.deferred=[])
    (hq : s.dataIn.queue=item::rest)
    (h : handleOrDefer pkg cfg {s with dataIn := s.dataIn.read 1} item
      (fun rest item => rest++[item])=some (s',handled)) (p : Phase) :
    Effect pkg cfg s a {s' with phase := p} [] := by
  rcases handleOrDefer_eq_some pkg cfg h with ⟨s₁,back,htry,rfl,-⟩
  have hback : back.elim s₁.deferred (fun item => s₁.deferred++[item])=
      s₁.deferred++back.toList := by
    cases back <;> simp
  rw [hback]
  exact .received hd hq (tryHandleData_handled pkg cfg htry)

/-- Every step of the task has one of the effects. -/
theorem stackStep_effect {a : StackAction σ υ} (ha : Allowed pkg s (.stack a))
    (h : stackStep pkg cfg s a=some (s',new)) : Effect pkg cfg s (.stack a) s' new := by
  unfold stackStep at h
  split at h
  · cases h
    exact .poll _ ha.1
  · rename_i hphase
    exact .tcp hphase (serviceTcp_visited pkg cfg h)
  · exact effect_wait pkg cfg h
  · rcases serviceUdp_visited pkg h with ⟨hvisit,rfl⟩
    exact .udp hvisit
  · exact effect_wait pkg cfg h
  · split at h
    · exact effect_wait pkg cfg h
    · rename_i item rest hdeferred
      rw [map_eq_some_iff] at h
      rcases h with ⟨⟨s₂,handled⟩,hhandle,heq⟩
      rcases handleOrDefer_eq_some pkg cfg hhandle with ⟨s₁,back,htry,rfl,hhandled⟩
      have hback : back.elim s₁.deferred (fun item => item::s₁.deferred)=
          back.toList++s₁.deferred := by
        cases back <;> simp
      rw [hback] at heq
      rw [Prod.mk.injEq] at heq
      rcases heq with ⟨rfl,rfl⟩
      have hp : (if handled=true then
            ({s₁ with deferred := back.toList++s₁.deferred} : NetStack σ υ)
          else {s₁ with deferred := back.toList++s₁.deferred,phase := .selecting})=
          {s₁ with deferred := back.toList++s₁.deferred,
                   phase := if handled=true then s₁.phase else .selecting} := by
        split <;> rfl
      rw [hp]
      exact .deferred hdeferred (tryHandleData_handled pkg cfg htry)
  · exact effect_wait pkg cfg h
  · rename_i cmd handle clock hphase
    have heq := some.inj h
    rw [show s'=(handleCmd pkg cfg {s with phase := .polling} cmd handle clock).1 by rw [heq],
      show new=(handleCmd pkg cfg {s with phase := .polling} cmd handle clock).2 by rw [heq]]
    exact .command ha (handleCmd_commanded pkg cfg _ _ _ _)
  · split at h
    · rename_i item rest hdeferred hqueue
      rw [map_eq_some_iff] at h
      rcases h with ⟨⟨s₂,handled⟩,hhandle,heq⟩
      cases heq
      exact effect_received pkg cfg hdeferred hqueue hhandle _
    · exact effect_wait pkg cfg h
  · split at h
    · rename_i item rest hdeferred hqueue
      rw [map_eq_some_iff] at h
      rcases h with ⟨⟨s₂,handled⟩,hhandle,heq⟩
      cases heq
      exact effect_received pkg cfg hdeferred hqueue hhandle s'.phase
    · exact effect_wait pkg cfg h
  · exact effect_wait pkg cfg h
  · exact effect_wait pkg cfg h
  · exact effect_wait pkg cfg h

/-- Every step of an application has one of the effects. -/
theorem appStep_effect {a : AppAction} (ha : Allowed pkg s (.app a)) :
    Effect pkg cfg s (.app a) (s.appStep a).1 (s.appStep a).2 := by
  cases a with
  | queue item =>
    rcases queueItem_queued s item with ⟨dataIn,events,heq,hqueued⟩
    rw [appStep,heq]
    exact .queue ha hqueued
  | read id =>
    refine .modifyTcp id ?_
    constructor <;> intro st <;> split <;> first | rfl | exact fun h => h
  | dropReceiver id =>
    refine .modifyTcp id ?_
    constructor <;> intro st <;> split <;> first | rfl | exact fun h => h | simp [Chan.dropReceiver]
  | dropResp id =>
    refine .modifyTcp id ?_
    constructor <;> intro st <;> first | rfl | exact fun h => h | exact isSome_map
  | readUdp id | dropUdpReceiver id => exact .modifyUdp id fun _ => rfl

/-- Every step has one of the effects. -/
theorem exec_effect (ha : Allowed pkg s a) (h : exec pkg cfg s a=some (s',new)) :
    Effect pkg cfg s a s' new := by
  cases a with
  | stack a => exact stackStep_effect pkg cfg ha h
  | app a =>
    have heq := some.inj h
    rw [show s'=(s.appStep a).1 by rw [heq],show new=(s.appStep a).2 by rw [heq]]
    exact appStep_effect pkg cfg ha

/-- An event that no pass over a TCP connection causes. -/
def Outside : Event → Prop
  | .accepted _ _ => False
  | .closing _ _ _ => False
  | .removed _ _ _ _ => False
  | _ => True

theorem Queued.outside {dataIn : Chan DataIn} {events : List Event}
    (h : Queued s item dataIn events) : ∀ e∈events, Outside e := by
  rcases h with ⟨-,-,rfl⟩ | ⟨-,rfl⟩ <;> simp [Outside]

theorem Commanded.outside {cmd : Cmd} {clock : ℕ} (h : Commanded pkg cfg s cmd handle clock s' new) :
    ∀ e∈new, Outside e := by
  cases h with
  | refused e | openedTcp _ => simp [Outside]
  | openedUdp _ hqueued =>
    intro e hmem
    rcases mem_cons.mp hmem with rfl | hmem
    · trivial
    rcases mem_cons.mp hmem with rfl | hmem
    · trivial
    exact hqueued.outside e hmem
  | addressed iface => simp

/-- Only the pass over a TCP connection takes bytes, closes or removes it. -/
theorem effect_outside (h : Effect pkg cfg s a s' new) :
    (∃ moves now id ids p, a=.stack (.serviceTcp moves) ∧ s.phase=.servicingTcp now (id::ids) ∧
      Visited pkg cfg {s with phase := p} id moves now s' new) ∨ ∀ e∈new, Outside e := by
  cases h with
  | tcp hphase hvisit => exact .inl ⟨_,_,_,_,_,rfl,hphase,hvisit⟩
  | command _ hcommand => exact .inr (hcommand.outside pkg cfg)
  | queue _ hqueued => exact .inr hqueued.outside
  | _ => exact .inr (by simp)

/-- A property of events that passes over TCP connections keep, and that the
events of all other steps have, holds of everything that a step adds. -/
theorem effect_events {good : Event → Prop} (hother : ∀ e, Outside e → good e)
    (haborted : ∀ id st, s.tcpConns.lookup id=some st → st.aborted=true →
      good (.removed id st.appHolds st.established (s.unread pkg st.handle)))
    (hserved : ∀ moves now id ids st sock port, a=.stack (.serviceTcp moves) →
      s.phase=.servicingTcp now (id::ids) → s.tcpConns.lookup id=some st → st.aborted=false →
      s.sockets.lookup st.handle=some (.tcp sock port) →
      ∀ e∈(serviceConn pkg cfg now id moves st sock).events, good e)
    (h : Effect pkg cfg s a s' new) : ∀ e∈new, good e := by
  rcases effect_outside pkg cfg h with ⟨moves,now,id,ids,p,rfl,hphase,hvisit⟩ | hout
  · have hpass : ∀ {queued : List Event} {dataIn : Chan DataIn} {st : TcpState} {sock : σ} {port : ℕ},
        Queued {s with phase := p} (.tcpClose id) dataIn queued → s.tcpConns.lookup id=some st →
        st.aborted=false → s.sockets.lookup st.handle=some (.tcp sock port) →
        ∀ e∈queued++(serviceConn pkg cfg now id moves st sock).events, good e := by
      intro queued dataIn st sock port hq hst halive hsock e hmem
      rcases mem_append.mp hmem with hmem | hmem
      · exact hother e (hq.outside e hmem)
      · exact hserved moves now id ids st sock port rfl hphase hst halive hsock e hmem
    cases hvisit with
    | missing _ => simp
    | aborted hst hab =>
      intro e hmem
      rw [mem_singleton.mp hmem]
      exact haborted id _ hst hab
    | kept hst halive hsock hq _ | removed hst halive hsock hq _ => exact hpass hq hst halive hsock
  · intro e hmem
    exact hother e (hout e hmem)

end MsnGuard.NetstackSteps
