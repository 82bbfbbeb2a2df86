import MsnGuard.SimulatedSockets

/-!
# Closing the transmit half of a connection

Three places close the transmit half of a connection: the application has closed and everything
is sent, the application is gone, or the peer has closed. Only the last one does not look at the
pending bytes.
-/

namespace MsnGuard.NetstackClosing

open RustText BoundedChannels TransitionRuns NetstackModel NetStack
open NetstackPasses NetstackSteps SimulatedSockets

variable {σ υ : Type} (pkg : SocketPackage σ υ) (cfg : Config)
variable {id now : ℕ} {st : TcpState} {moves : ℕ → Moves} {t : List Event}

/-- A close while the application holds the receiving half leaves nothing pending. -/
def ClosesDrained : Event → Prop
  | .closing _ true pending => pending=[]
  | _ => True

/-- The peer has not closed, or the socket takes all that is pending. -/
def TakesPending (st : TcpState) (sock : σ) : Prop :=
  pkg.state sock=.closeWait → st.pending=[] ∨
    (pkg.canSend sock=true ∧ (pkg.sendSlice sock st.pending).1=some st.pending.length)

variable {sock : σ}

/-- What is offered to a socket that takes it all is not pending any more. -/
theorem upload_drained (h : TakesPending pkg st sock) (hphase : pkg.state sock=.closeWait) :
    (upload pkg id st sock).1.pending=[] := by
  unfold upload
  rcases h hphase with hempty | ⟨hcan,htakes⟩
  · rw [if_neg fun hboth => hboth.2 hempty]
    exact hempty
  · split
    · dsimp only
      rw [htakes,Option.getD_some,List.drop_length]
    · rename_i hboth
      by_contra hpending
      exact hboth ⟨hcan,hpending⟩

/-- After the half close, a peer that has closed had closed before, unless
nothing is pending. -/
theorem halfClose_state (h : pkg.state (halfClose pkg id st sock).1=.closeWait) :
    st.pending=[] ∨ pkg.state sock=.closeWait := by
  unfold halfClose at h
  split at h
  · rename_i hboth
    exact .inl hboth.2
  · exact .inr h

theorem deliverPass_drained
    (h : pkg.state sock=.closeWait → st.toApp.rxAlive=true → st.pending=[]) :
    ∀ e∈(deliverPass pkg cfg now id moves st sock).2, ClosesDrained e := by
  intro e hmem
  rcases deliverPass_events pkg cfg e hmem with
    ⟨_,rfl⟩ | ⟨_,_,rfl⟩ | ⟨-,happ,⟨hphase,rfl⟩ | ⟨-,rfl⟩⟩
  · trivial
  · trivial
  · exact h hphase (Bool.and_eq_true_iff.mp happ).2
  · trivial

theorem openPass_drained (h : st.toApp.rxAlive=true → TakesPending pkg st sock) :
    ∀ e∈(openPass pkg cfg now id moves st sock).2, ClosesDrained e := by
  intro e hmem
  rcases openPass_events pkg cfg e hmem with ⟨bytes,rfl⟩ | ⟨app,rfl⟩ | hmem
  · trivial
  · cases app with
    | false => trivial
    | true => rfl
  · refine deliverPass_drained pkg cfg ?_ e hmem
    intro hphase halive
    rcases halfClose_state pkg hphase with hempty | hwait
    · exact hempty
    · rw [upload_state] at hwait
      rw [upload_toApp] at halive
      exact upload_drained pkg (h halive) hwait

theorem serviceConn_drained (h : st.toApp.rxAlive=true → TakesPending pkg st sock) :
    ∀ e∈(serviceConn pkg cfg now id moves st sock).events, ClosesDrained e := by
  have hout := (handOut_keeps id (pkg.state sock) st).2
  intro e hmem
  rcases serviceConn_events pkg cfg e hmem with ⟨reply,rfl⟩ | ⟨app,unread,rfl⟩ | ⟨-,hmem⟩
  · trivial
  · trivial
  · refine openPass_drained pkg cfg ?_ e hmem
    intro halive
    unfold TakesPending
    rw [hout]
    exact h (handOut_rxAlive halive)

/-- When a connection is serviced whose peer has closed and whose receiver has
not been dropped, nothing is pending or the socket takes all of it. -/
def PeerCloseTakesPending (_ : List Event) (s : NetStack σ υ) (a : Action σ υ) : Prop :=
  ∀ moves now id ids st sock port, a=.stack (.serviceTcp moves) →
    s.phase=.servicingTcp now (id::ids) → s.tcpConns.lookup id=some st → st.aborted=false →
    s.sockets.lookup st.handle=some (.tcp sock port) → st.toApp.rxAlive=true →
    TakesPending pkg st sock

/-- A step that meets the condition closes only what is drained. -/
theorem effect_drained {s s' : NetStack σ υ} {a : Action σ υ} {new : List Event}
    (hcond : PeerCloseTakesPending pkg t s a) (h : Effect pkg cfg s a s' new) :
    ∀ e∈new, ClosesDrained e := by
  refine effect_events pkg cfg ?_ (fun _ _ _ _ => trivial) ?_ h
  · intro e hout
    cases e <;> trivial
  · intro moves now id ids st sock port ha hphase hst halive hsock
    exact serviceConn_drained pkg cfg (hcond moves now id ids st sock port ha hphase hst halive hsock)

/-- In a run in which every connection that is serviced after its peer has closed
has nothing pending or sends all of it, no close loses bytes while the
application holds the receiving half. -/
theorem closes_drained {t : List Event} {s : NetStack σ υ}
    (h : (machine pkg cfg).Run (PeerCloseTakesPending pkg) t s) :
    ∀ id pending, .closing id true pending∈t → pending=[] := by
  obtain ⟨-,hall⟩ := h.safe (fun _ => True) ClosesDrained (fun _ _ => trivial)
    fun t s a s' new _ ha hcond he =>
      ⟨trivial,effect_drained pkg cfg hcond (exec_effect pkg cfg ha he)⟩
  intro id pending hmem
  exact hall _ hmem

/-- The transmit buffer is full when the application queues a byte and the peer
closes: the stack closes as well, and that byte is never sent. -/
theorem peer_close_loses_pending : ∃ t s, simMachine.Run always t s ∧
    ∃ id pending, .closing id true pending∈t ∧ pending≠[] := by
  obtain ⟨t,s,hrun,hmem⟩ : ∃ t s, simMachine.Run always t s ∧ .closing 1 true [1]∈t :=
    Machine.exists_run passes passes_always sim_start
      (opening++queueing [1]++turn ⟨.closeWait,[],0⟩ 2) (by decide +kernel)
  exact ⟨t,s,hrun,1,[1],hmem,by decide⟩

instance (st : TcpState) (sock : SimTcp) : Decidable (TakesPending simPackage st sock) :=
  inferInstanceAs (Decidable (_ → _))

/-- The peer closes while three bytes are pending: they are sent in the same pass,
and then the stack closes. -/
theorem peer_close_after_sending : ∃ t s, simMachine.Run (PeerCloseTakesPending simPackage) t s ∧
    .closing 1 true []∈t ∧ ∀ id pending, .closing id true pending∈t → pending=[] := by
  have hcheck : ∀ t s a, (passes s a && (served s).all fun conn =>
      decide (TakesPending simPackage conn.1 conn.2))=true →
        simMachine.allowed s a ∧ PeerCloseTakesPending simPackage t s a := by
    intro t s a h
    rw [Bool.and_eq_true] at h
    refine ⟨allowed_of_passes h.1,?_⟩
    intro moves now id ids st sock port _ hphase hst _ hsock _ hclosed
    have htakes := h.2
    rw [served_eq hphase hst hsock] at htakes
    exact of_decide_eq_true htakes hclosed
  exact Machine.exists_run_with _ hcheck sim_start
    (opening++queueing [1,2,3]++turn ⟨.closeWait,[],tcpTxBuf⟩ 2) (by decide +kernel)
    fun _ _ => closes_drained simPackage simConfig

end MsnGuard.NetstackClosing
