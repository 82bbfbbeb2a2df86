import MsnGuard.NetstackConnections

/-!
# Received bytes when a connection is removed

An open connection is removed in the pass that finds its socket over, right after the delivery
loop of that pass. The loop stops when the channel to the application is full and after a fixed
number of chunks; what is then still in the receive buffer is lost.
-/

namespace MsnGuard.NetstackRemoval

open RustText BoundedChannels TransitionRuns NetstackModel NetStack
open NetstackPasses NetstackSteps NetstackHandles NetstackConnections SimulatedSockets

variable {σ υ : Type} (pkg : SocketPackage σ υ) (cfg : Config)
variable {n : ℕ} {toApp : Chan Bytes} {t : List Event}

/-- An open connection whose application holds the receiving half is removed with
an empty receive buffer only. -/
def RemovesDrained : Event → Prop
  | .removed _ true true unread => unread=[]
  | _ => True

/-- Taking at most a number of chunks empties the receive buffer. -/
def Drains : ℕ → σ → Prop
  | 0,sock => pkg.recvQueue sock=[]
  | n+1,sock => pkg.recvQueue sock=[] ∨ Drains n (pkg.recv sock).2

/-- The connection is over. -/
def Over (sock : σ) : Prop := pkg.state sock=.closed ∨ pkg.state sock=.timeWait

variable {sock : σ}

theorem Drains.tail (h : Drains pkg n sock) (hwait : pkg.recvQueue sock≠[]) :
    ∃ m, n=m+1 ∧ Drains pkg m (pkg.recv sock).2 := by
  cases n with
  | zero => exact absurd h hwait
  | succ m => exact ⟨m,rfl,h.resolve_left hwait⟩

/-- The delivery loop empties the receive buffer when its chunks are not more than
the turns of the loop and fit into the channel. -/
theorem deliver_drains {moves : ℕ → Moves} {m : ℕ} (hdrains : Drains pkg m sock) (hturns : m≤n)
    (hroom : m≤toApp.room) (halive : (deliver pkg moves n toApp sock).toApp.rxAlive=true) :
    pkg.recvQueue (deliver pkg moves n toApp sock).sock=[] := by
  induction n generalizing m toApp sock with
  | zero =>
    have hm : m=0 := by omega
    rw [hm] at hdrains
    exact hdrains
  | succ n ih =>
    rcases deliver_turn pkg moves n toApp sock with ⟨heq,hready⟩ | ⟨chunk,hready,hwait,heq⟩
    · rw [heq] at halive ⊢
      by_contra hwait
      rcases hdrains.tail pkg hwait with ⟨k,hk,-⟩
      -- A stop with bytes waiting means a full channel, but the application has
      -- only made room since.
      have hfull : ¬(toApp.after (moves (n+1))).tryReserve=.ready := fun h => hwait (hready h)
      have hmore := @Chan.room_after _ toApp _ (Chan.rxAlive_of_after halive).2
      have hspace : (toApp.after (moves (n+1))).queue.length <
          (toApp.after (moves (n+1))).capacity := by
        unfold Chan.room at hmore hroom
        omega
      exact hfull (Chan.ready_iff.mpr ⟨halive,hspace⟩)
    · rw [heq] at halive ⊢
      rcases hdrains.tail pkg hwait with ⟨k,hk,hrest⟩
      have hspace := (Chan.ready_iff.mp hready).2
      have hsent := Chan.room_send hspace chunk
      have hbefore := deliver_rxAlive pkg halive
      rw [Chan.rxAlive_send] at hbefore
      have hmore := @Chan.room_after _ toApp _ (Chan.rxAlive_of_after hbefore).2
      exact ih hrest (by omega) (by omega) halive

section Passes

variable {id : ℕ} {st : TcpState} {sock : σ}
variable {now : ℕ} {moves : ℕ → Moves}

theorem deliverPass_removes (h : Over pkg sock → st.appHolds=true →
      Drains pkg (min MAX_RECV_CHUNKS st.toApp.room) sock) :
    ∀ e∈(deliverPass pkg cfg now id moves st sock).2, RemovesDrained e := by
  intro e hmem
  rcases deliverPass_events pkg cfg e hmem with
    ⟨_,rfl⟩ | ⟨_,_,rfl⟩ | ⟨halive,happ,⟨-,rfl⟩ | ⟨hover,rfl⟩⟩
  · trivial
  · trivial
  · trivial
  · exact deliver_drains pkg (h hover happ) (Nat.min_le_left _ _) (Nat.min_le_right _ _) halive

theorem upload_appHolds (id : ℕ) (st : TcpState) (sock : σ) :
    (upload pkg id st sock).1.appHolds=st.appHolds := by
  unfold upload
  split <;> rfl

/-- A connection that is over takes no bytes. -/
theorem upload_over (id : ℕ) (st : TcpState) {sock : σ} (hover : Over pkg sock) :
    upload pkg id st sock=(st,sock,[]) := by
  refine if_neg ?_
  rintro ⟨hcan,-⟩
  unfold Over at hover
  rcases pkg.canSend_state sock hcan with heq | heq <;>
    (rw [heq] at hover; exact absurd hover (by decide))

theorem over_of_afterClose {phase : TcpPhase} (hopen : ¬phase.Opening)
    (h : phase.afterClose=.closed ∨ phase.afterClose=.timeWait) :
    phase=.closed ∨ phase=.timeWait := by
  revert hopen h
  cases phase <;> decide

/-- Sending and the half close do not end a synchronized connection, and leave
one that is over as it is. -/
theorem halfClose_over {st' : TcpState} (hopen : ¬(pkg.state sock).Opening)
    (h : Over pkg (halfClose pkg id st' sock).1) :
    Over pkg sock ∧ (halfClose pkg id st' sock).1=sock := by
  unfold halfClose at h ⊢
  split at h
  · rename_i hboth
    unfold Over at h
    rw [pkg.state_close] at h
    have hover := over_of_afterClose hopen h
    rw [if_pos hboth]
    exact ⟨hover,pkg.close_over sock hover⟩
  · rename_i hboth
    rw [if_neg hboth]
    exact ⟨h,rfl⟩

theorem openPass_removes (hopen : ¬(pkg.state sock).Opening)
    (h : Over pkg sock → st.appHolds=true → Drains pkg (min MAX_RECV_CHUNKS st.toApp.room) sock) :
    ∀ e∈(openPass pkg cfg now id moves st sock).2, RemovesDrained e := by
  intro e hmem
  rcases openPass_events pkg cfg e hmem with ⟨bytes,rfl⟩ | ⟨app,rfl⟩ | hmem
  · trivial
  · trivial
  · refine deliverPass_removes pkg cfg ?_ e hmem
    intro hover happ
    rcases halfClose_over pkg (by rw [upload_state]; exact hopen) hover with ⟨hsent,heq⟩
    have hbefore : Over pkg sock := by
      unfold Over at hsent ⊢
      rw [upload_state] at hsent
      exact hsent
    rw [upload_appHolds] at happ
    rw [heq,upload_over pkg id st hbefore]
    exact h hbefore happ

theorem handOut_of_open (id : ℕ) (phase : TcpPhase) {st : TcpState} (h : st.established=true) :
    handOut id phase st=(st,false,[]) := by
  refine if_neg ?_
  rw [h]
  exact fun hboth => by cases hboth.1

theorem serviceConn_removes (hsettled : Settled pkg st sock)
    (h : st.appHolds=true → st.established=true → Over pkg sock →
      Drains pkg (min MAX_RECV_CHUNKS st.toApp.room) sock) :
    ∀ e∈(serviceConn pkg cfg now id moves st sock).events, RemovesDrained e := by
  intro e hmem
  rcases serviceConn_events pkg cfg e hmem with ⟨reply,rfl⟩ | ⟨app,unread,rfl⟩ | ⟨he,hmem⟩
  · trivial
  · cases app <;> trivial
  · refine openPass_removes pkg cfg (handOut_synchronized hsettled.synchronized he) ?_ e hmem
    intro hover happ
    cases hbefore : st.established with
    | true =>
      rw [handOut_of_open _ _ hbefore] at happ ⊢
      exact h happ hbefore hover
    | false =>
      -- A connection is only found open in a state that is not over.
      unfold handOut at he
      split at he
      · rename_i hfound
        unfold Over at hover
        rcases hfound.2 with heq | heq <;> (rw [heq] at hover; exact absurd hover (by decide))
      · rw [hbefore] at he
        cases he

end Passes

/-- When an open connection is serviced that is over and whose application holds
the receiving half, the delivery loop can take all that has been received: it is
not more chunks than one pass delivers and than fit into the channel. -/
def DeliversRest (_ : List Event) (s : NetStack σ υ) (a : Action σ υ) : Prop :=
  ∀ moves now id ids st sock port, a=.stack (.serviceTcp moves) →
    s.phase=.servicingTcp now (id::ids) → s.tcpConns.lookup id=some st → st.aborted=false →
    s.sockets.lookup st.handle=some (.tcp sock port) → st.appHolds=true →
    st.established=true → Over pkg sock → Drains pkg (min MAX_RECV_CHUNKS st.toApp.room) sock

/-- A step that meets the condition removes only what is drained. -/
theorem effect_removes {s s' : NetStack σ υ} {a : Action σ υ} {new : List Event}
    (hsettled : EveryConn (Settled pkg) s) (hs : HandlesOk s) (hcond : DeliversRest pkg t s a)
    (h : Effect pkg cfg s a s' new) : ∀ e∈new, RemovesDrained e := by
  refine effect_events pkg cfg ?_ ?_ ?_ h
  · intro e hout
    cases e <;> trivial
  · intro id st hst haborted
    rcases hs.tcpSocket hst with ⟨sock,port,hsock⟩
    have hgone : st.appHolds=false := by
      rw [TcpState.appHolds,(hsettled id st sock port hst hsock).gone haborted,Bool.and_false]
    rw [hgone]
    trivial
  · intro moves now id ids st sock port ha hphase hst halive hsock
    exact serviceConn_removes pkg cfg (hsettled id st sock port hst hsock)
      (hcond moves now id ids st sock port ha hphase hst halive hsock)

/-- In a run in which the delivery loop can empty the receive buffer whenever an
open connection that is over is serviced, no connection is removed with received
bytes while its application holds the receiving half. -/
theorem removes_drained {t : List Event} {s : NetStack σ υ}
    (h : (machine pkg cfg).Run (DeliversRest pkg) t s) :
    ∀ id unread, .removed id true true unread∈t → unread=[] := by
  have hinv := settled_invariant pkg cfg
  obtain ⟨-,hall⟩ := h.safe (fun s => HandlesOk s ∧ EveryConn (Settled pkg) s) RemovesDrained
    (fun _ => start_ok) fun t s a s' new hok ha hcond he => ⟨hinv.step hok ha he,
      effect_removes pkg cfg hok.2 hok.1 hcond (exec_effect pkg cfg ha he)⟩
  intro id unread hmem
  exact hall _ hmem

/-- In every run an aborted connection has lost its receiver, and one that has been open does
not open again. -/
theorem settled_always {s : NetStack σ υ} (h : (machine pkg cfg).Run always t s) :
    EveryConn (Settled pkg) s :=
  (settled_invariant pkg cfg).of_run h

theorem settled_opened : ∃ t s, simMachine.Run always t s ∧
    (s.tcpConns.lookup 1).any (·.established)=true ∧ EveryConn (Settled simPackage) s :=
  Machine.exists_run_with passes passes_always sim_start opening (by decide +kernel) fun _ _ =>
    settled_always simPackage simConfig

/-- The application has left 128 chunks unread when the peer sends one more byte
and closes. The stack answers the close; when the connection is over it is
removed, and the byte is lost. -/
theorem full_queue_loses_received : ∃ t s, simMachine.Run always t s ∧
    ∃ id unread, .removed id true true unread∈t ∧ unread≠[] := by
  obtain ⟨t,s,hrun,hmem⟩ : ∃ t s, simMachine.Run always t s ∧ .removed 1 true true [7]∈t :=
    Machine.exists_run passes passes_always sim_start
      (opening++(List.replicate 128 (.stack .sleep::turn ⟨.established,[0],tcpTxBuf⟩ 2)).flatten++
        .stack .sleep::turn ⟨.closeWait,[7],tcpTxBuf⟩ 3++
        .stack .sleep::turn ⟨.closed,[7],tcpTxBuf⟩ 4)
      (by decide +kernel)
  exact ⟨t,s,hrun,1,[7],hmem,by decide⟩

/-- The receive buffer of a simulated socket is taken at once. -/
theorem drains_of_pos (h : 0<n) (sock : SimTcp) : Drains simPackage n sock := by
  obtain ⟨m,rfl⟩ := Nat.exists_eq_succ_of_ne_zero h.ne'
  refine .inr ?_
  cases m with
  | zero => rfl
  | succ m => exact .inl rfl

/-- The peer sends a byte and the connection is over; there is room for the byte,
and the connection is removed after it has been delivered. -/
theorem removed_after_delivery : ∃ t s, simMachine.Run (DeliversRest simPackage) t s ∧
    .removed 1 true true []∈t ∧ ∀ id unread, .removed id true true unread∈t → unread=[] := by
  have hcheck : ∀ t s a, (passes s a && (served s).all fun conn => decide (0<conn.1.toApp.room))=true →
      simMachine.allowed s a ∧ DeliversRest simPackage t s a := by
    intro t s a h
    rw [Bool.and_eq_true] at h
    refine ⟨allowed_of_passes h.1,?_⟩
    intro moves now id ids st sock port _ hphase hst _ hsock _ _ _
    have hroom := h.2
    rw [served_eq hphase hst hsock] at hroom
    exact drains_of_pos (lt_min (by decide) (of_decide_eq_true hroom)) sock
  exact Machine.exists_run_with _ hcheck sim_start (opening++.stack .sleep::turn ⟨.closed,[7],tcpTxBuf⟩ 2)
    (by decide +kernel) fun _ _ => removes_drained simPackage simConfig

end MsnGuard.NetstackRemoval
