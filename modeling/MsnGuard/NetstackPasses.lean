import MsnGuard.NetstackModel

/-!
# What a pass does to one TCP connection

A pass over a connection moves bytes from its pending buffer to the socket, delivers received
chunks, and removes the connection when it is over. Everything that can be observed is about
this connection.
-/

namespace MsnGuard.NetstackPasses

open RustText BoundedChannels NetstackModel List

variable {σ υ : Type} (pkg : SocketPackage σ υ) (cfg : Config)
variable {id n now : ℕ} {events : List Event} {moves : ℕ → Moves} {toApp : Chan Bytes}
  {st : TcpState}

/-- The bytes that sockets have taken from a connection. -/
def acceptedBytes (id : ℕ) (events : List Event) : Bytes :=
  events.flatMap fun
    | .accepted i bytes => if i=id then bytes else []
    | _ => []

theorem acceptedBytes_append (id : ℕ) (events more : List Event) :
    acceptedBytes id (events++more)=acceptedBytes id events++acceptedBytes id more :=
  flatMap_append

/-- An event of a pass over one connection. -/
def OfPass (id : ℕ) : Event → Prop
  | .accepted i _ => i=id
  | .closing i _ _ => i=id
  | .removed i _ _ _ => i=id
  | .answered _ => True
  | .queued _ => False
  | .allocated _ _ => False

/-- An event that takes no bytes. -/
def Silent : Event → Prop
  | .accepted _ _ => False
  | _ => True

theorem acceptedBytes_silent (h : ∀ e∈events, Silent e) : acceptedBytes id events=[] := by
  rw [acceptedBytes,flatMap_eq_nil_iff]
  intro e he
  have hs := h e he
  cases e <;> simp_all [Silent]

theorem acceptedBytes_other {other : ℕ} (h : ∀ e∈events, OfPass id e) (hne : other≠id) :
    acceptedBytes other events=[] := by
  rw [acceptedBytes,flatMap_eq_nil_iff]
  intro e he
  have hp := h e he
  cases e with
  | accepted i bytes =>
    have hi : i≠other := by
      intro heq
      exact hne (heq.symm.trans hp)
    exact if_neg hi
  | _ => rfl

/-- What the passes keep of a connection. -/
structure Keeps (st st' : TcpState) : Prop where
  /-- The socket. -/
  handle : st'.handle=st.handle
  /-- Whether the application has closed its half. -/
  halfClosed : st'.halfClosed=st.halfClosed

/-- A connection that is left keeps its socket, and its pending bytes are those
that were there without those that were taken. -/
structure PassSpec (id : ℕ) (st : TcpState) (conn : Option (TcpState × σ)) (events : List Event) :
    Prop where
  /-- What is kept. -/
  keeps : ∀ st' sock', conn=some (st',sock') → Keeps st st'
  /-- Where the pending bytes went. -/
  pending : ∀ st' sock', conn=some (st',sock') → st.pending=acceptedBytes id events++st'.pending
  /-- Everything that happens is about this connection. -/
  events : ∀ e∈events, OfPass id e

/-- A turn of the delivery loop ends it, or passes a chunk on and goes on. It ends
with room for more only when nothing is waiting. -/
theorem deliver_turn (moves : ℕ → Moves) (n : ℕ) (toApp : Chan Bytes) (sock : σ) :
    (deliver pkg moves (n+1) toApp sock=⟨toApp.after (moves (n+1)),sock,
        decide ((toApp.after (moves (n+1))).tryReserve=.closed)⟩ ∧
      ((toApp.after (moves (n+1))).tryReserve=.ready → pkg.recvQueue sock=[])) ∨
    ∃ chunk, (toApp.after (moves (n+1))).tryReserve=.ready ∧ pkg.recvQueue sock≠[] ∧
      deliver pkg moves (n+1) toApp sock=
        deliver pkg moves n ((toApp.after (moves (n+1))).send chunk) (pkg.recv sock).2 := by
  rw [deliver]
  cases hreserve : (toApp.after (moves (n+1))).tryReserve with
  | full | closed => exact .inl ⟨rfl,nofun⟩
  | ready =>
    by_cases hwait : pkg.canRecv sock=true
    · rw [if_pos hwait]
      rcases pkg.recv_some sock hwait with ⟨chunk,hchunk,hne⟩
      have hrecv : pkg.recv sock=(some chunk,(pkg.recv sock).2) := by rw [←hchunk]
      refine .inr ⟨chunk,rfl,(pkg.canRecv_iff sock).mp hwait,?_⟩
      rw [hrecv]
      exact if_neg hne
    · rw [if_neg hwait]
      refine .inl ⟨rfl,fun _ => ?_⟩
      by_contra hqueue
      exact hwait ((pkg.canRecv_iff sock).mpr hqueue)

/-- Delivery does not change the state of the connection. -/
theorem deliver_state (moves : ℕ → Moves) (n : ℕ) (toApp : Chan Bytes) (sock : σ) :
    pkg.state (deliver pkg moves n toApp sock).sock=pkg.state sock := by
  induction n generalizing toApp sock with
  | zero => rfl
  | succ n ih =>
    rcases deliver_turn pkg moves n toApp sock with ⟨heq,-⟩ | ⟨chunk,-,-,heq⟩
    · rw [heq]
    · rw [heq,ih,pkg.state_recv]

variable {sock : σ}

/-- A receiver that is there after the delivery was there before. -/
theorem deliver_rxAlive (h : (deliver pkg moves n toApp sock).toApp.rxAlive=true) :
    toApp.rxAlive=true := by
  induction n generalizing toApp sock with
  | zero => exact h
  | succ n ih =>
    rcases deliver_turn pkg moves n toApp sock with ⟨heq,-⟩ | ⟨chunk,-,-,heq⟩
    · rw [heq] at h
      exact (Chan.rxAlive_of_after h).1
    · rw [heq] at h
      have hsent := ih h
      rw [Chan.rxAlive_send] at hsent
      exact (Chan.rxAlive_of_after hsent).1

/-- The application is found gone only when its receiver has been dropped. -/
theorem deliver_appGone (h : (deliver pkg moves n toApp sock).appGone=true) :
    (deliver pkg moves n toApp sock).toApp.rxAlive=false := by
  induction n generalizing toApp sock with
  | zero => cases h
  | succ n ih =>
    rcases deliver_turn pkg moves n toApp sock with ⟨heq,-⟩ | ⟨chunk,-,-,heq⟩
    · rw [heq] at h ⊢
      exact Chan.closed_iff.mp (of_decide_eq_true h)
    · rw [heq] at h ⊢
      exact ih h

/-- A receiver that was found dropped stays dropped. -/
theorem deliver_gone (h : (deliver pkg moves n toApp sock).appGone=true) (later : Moves) :
    ((deliver pkg moves n toApp sock).toApp.after later).rxAlive=false := by
  have hdropped := deliver_appGone pkg h
  by_contra halive
  have hbefore := (Chan.rxAlive_of_after (Bool.eq_true_of_not_eq_false halive)).1
  rw [hdropped] at hbefore
  cases hbefore

theorem handOut_keeps (id : ℕ) (phase : TcpPhase) (st : TcpState) :
    Keeps st (handOut id phase st).1 ∧ (handOut id phase st).1.pending=st.pending := by
  unfold handOut
  split
  · split
    · dsimp only
      split <;> exact ⟨⟨rfl,rfl⟩,rfl⟩
    · exact ⟨⟨rfl,rfl⟩,rfl⟩
    · exact ⟨⟨rfl,rfl⟩,rfl⟩
  · exact ⟨⟨rfl,rfl⟩,rfl⟩

/-- A receiver that is there after the hand-over was there before. -/
theorem handOut_rxAlive {phase : TcpPhase} (h : (handOut id phase st).1.toApp.rxAlive=true) :
    st.toApp.rxAlive=true := by
  unfold handOut at h
  split at h
  · split at h
    · dsimp only at h
      split at h
      · exact h
      · cases h
    · cases h
    · exact h
  · exact h

theorem handOut_events (id : ℕ) (phase : TcpPhase) (st : TcpState) :
    ∀ e∈(handOut id phase st).2.2, ∃ reply, e=.answered reply := by
  unfold handOut
  split
  · split
    · dsimp only
      split <;> simp
    · simp
    · simp
  · simp

theorem upload_spec (id : ℕ) (st : TcpState) (sock : σ) :
    Keeps st (upload pkg id st sock).1 ∧
      st.pending=acceptedBytes id (upload pkg id st sock).2.2++(upload pkg id st sock).1.pending ∧
      ∀ e∈(upload pkg id st sock).2.2, OfPass id e := by
  unfold upload
  split
  · refine ⟨⟨rfl,rfl⟩,?_,?_⟩
    · simp [acceptedBytes]
    · simp [OfPass]
  · exact ⟨⟨rfl,rfl⟩,rfl,by simp⟩

theorem halfClose_events (id : ℕ) (st : TcpState) (sock : σ) :
    ∀ e∈(halfClose pkg id st sock).2, OfPass id e ∧ Silent e := by
  unfold halfClose
  split <;> simp [OfPass,Silent]

theorem finishPass_spec (id : ℕ) (he : st.established=true) (sock : σ) :
    (∀ st' sock', (finishPass pkg id st sock).1=some (st',sock') → st'=st) ∧
      ∀ e∈(finishPass pkg id st sock).2, OfPass id e ∧ Silent e := by
  unfold finishPass
  cases pkg.state sock <;> simp [he,OfPass,Silent]

/-- At the end of a pass the peer's close is answered, or what is over is removed. -/
theorem finishPass_events :
    ∀ e∈(finishPass pkg id st sock).2,
      (pkg.state sock=.closeWait ∧ e=.closing id st.appHolds st.pending) ∨
      ((pkg.state sock=.closed ∨ pkg.state sock=.timeWait) ∧ st.established=true ∧
        e=.removed id st.appHolds st.established (pkg.recvQueue sock)) := by
  unfold finishPass
  cases hphase : pkg.state sock <;> cases hest : st.established <;>
    simp [TcpState.appHolds,hest]

/-- What happens in a delivery is about an application that is gone, or about one that
was there before and after it. -/
theorem deliverPass_events :
    ∀ e∈(deliverPass pkg cfg now id moves st sock).2, (∃ pending, e=.closing id false pending) ∨
      (∃ established unread, e=.removed id false established unread) ∨
      ((deliver pkg moves MAX_RECV_CHUNKS st.toApp sock).toApp.rxAlive=true ∧ st.appHolds=true ∧
        ((pkg.state sock=.closeWait ∧ e=.closing id true st.pending) ∨
          ((pkg.state sock=.closed ∨ pkg.state sock=.timeWait) ∧ e=.removed id true true
            (pkg.recvQueue (deliver pkg moves MAX_RECV_CHUNKS st.toApp sock).sock)))) := by
  intro e hmem
  unfold deliverPass at hmem
  dsimp only at hmem
  split at hmem
  · rename_i hgone
    have hdropped := deliver_gone pkg hgone (moves 0)
    unfold orphanPass at hmem
    dsimp only at hmem
    split at hmem
    · cases hmem
    · rcases mem_cons.mp hmem with rfl | hmem
      · exact .inl ⟨_,by simp [TcpState.appHolds,hdropped]; rfl⟩
      · rcases finishPass_events pkg e hmem with ⟨-,rfl⟩ | ⟨-,-,rfl⟩
        · exact .inl ⟨_,by simp [TcpState.appHolds,hdropped]; rfl⟩
        · exact .inr (.inl ⟨_,_,by simp [TcpState.appHolds,hdropped]; exact ⟨rfl,rfl⟩⟩)
  · have hevent := finishPass_events pkg e hmem
    rw [deliver_state] at hevent
    cases happ : TcpState.appHolds {st with
        toApp := (deliver pkg moves MAX_RECV_CHUNKS st.toApp sock).toApp.after (moves 0)} with
    | false =>
      rw [happ] at hevent
      rcases hevent with ⟨-,rfl⟩ | ⟨-,-,rfl⟩
      · exact .inl ⟨_,rfl⟩
      · exact .inr (.inl ⟨_,_,rfl⟩)
    | true =>
      rw [happ] at hevent
      have hholds := Bool.and_eq_true_iff.mp happ
      have halive := (Chan.rxAlive_of_after hholds.2).1
      refine .inr (.inr ⟨halive,Bool.and_eq_true_iff.mpr ⟨hholds.1,deliver_rxAlive pkg halive⟩,?_⟩)
      rcases hevent with ⟨hphase,rfl⟩ | ⟨hover,hest,rfl⟩
      · exact .inl ⟨hphase,rfl⟩
      · exact .inr ⟨hover,by rw [hest]⟩

/-- A connection that is not open yet only gets an answer and is removed. -/
theorem openingPass_events :
    ∀ e∈(openingPass pkg now id st sock).2, (∃ reply, e=.answered reply) ∨
      e=.removed id st.appHolds st.established (pkg.recvQueue sock) := by
  have hgone : ∀ reply : String, ∀ e∈(if st.connectResp.isSome then
      [Event.answered (.error reply)] else []) ++
        [.removed id st.appHolds st.established (pkg.recvQueue sock)],
      (∃ reply, e=.answered reply) ∨
        e=.removed id st.appHolds st.established (pkg.recvQueue sock) := by
    intro reply e hmem
    rcases mem_append.mp hmem with hmem | hmem
    · split at hmem
      · exact .inl ⟨_,mem_singleton.mp hmem⟩
      · cases hmem
    · exact .inr (mem_singleton.mp hmem)
  unfold openingPass
  dsimp only
  split
  · exact hgone _
  split
  · exact hgone _
  · simp

theorem orphanPass_spec (now id : ℕ) (he : st.established=true) (sock : σ) :
    (∀ st' sock', (orphanPass pkg cfg now id st sock).1=some (st',sock') →
      Keeps st st' ∧ st'.pending=st.pending) ∧
      ∀ e∈(orphanPass pkg cfg now id st sock).2, OfPass id e ∧ Silent e := by
  unfold orphanPass
  dsimp only
  split
  · refine ⟨?_,by simp⟩
    intro st' sock' h
    rw [Option.some.injEq,Prod.mk.injEq] at h
    rw [←h.1]
    exact ⟨⟨rfl,rfl⟩,rfl⟩
  · have hf := finishPass_spec pkg id
      (show ({st with orphanedAt := some (st.orphanedAt.getD now)} : TcpState).established=true
        from he) (pkg.close sock)
    refine ⟨?_,?_⟩
    · intro st' sock' h
      rw [hf.1 st' sock' h]
      exact ⟨⟨rfl,rfl⟩,rfl⟩
    · intro e hmem
      rcases mem_cons.mp hmem with rfl | hmem
      · exact ⟨rfl,trivial⟩
      · exact hf.2 e hmem

theorem deliverPass_spec (now id : ℕ) (moves : ℕ → Moves) (he : st.established=true) (sock : σ) :
    (∀ st' sock', (deliverPass pkg cfg now id moves st sock).1=some (st',sock') →
      Keeps st st' ∧ st'.pending=st.pending) ∧
      ∀ e∈(deliverPass pkg cfg now id moves st sock).2, OfPass id e ∧ Silent e := by
  set delivery := deliver pkg moves MAX_RECV_CHUNKS st.toApp sock with hdelivery
  have hstill : ({st with toApp := delivery.toApp.after (moves 0)} : TcpState).established=true := he
  unfold deliverPass
  dsimp only
  rw [←hdelivery]
  split
  · have ho := orphanPass_spec pkg cfg now id hstill delivery.sock
    refine ⟨?_,ho.2⟩
    intro st' sock' h
    have hkeep := ho.1 st' sock' h
    exact ⟨⟨hkeep.1.handle,hkeep.1.halfClosed⟩,hkeep.2⟩
  · have hf := finishPass_spec pkg id hstill delivery.sock
    refine ⟨?_,hf.2⟩
    intro st' sock' h
    rw [hf.1 st' sock' h]
    exact ⟨⟨rfl,rfl⟩,rfl⟩

theorem upload_established (id : ℕ) (st : TcpState) (sock : σ) :
    (upload pkg id st sock).1.established=st.established := by
  unfold upload
  split <;> rfl

theorem upload_state (id : ℕ) (st : TcpState) (sock : σ) :
    pkg.state (upload pkg id st sock).2.1=pkg.state sock := by
  unfold upload
  split
  · exact pkg.state_sendSlice sock st.pending
  · rfl

theorem upload_toApp (id : ℕ) (st : TcpState) (sock : σ) :
    (upload pkg id st sock).1.toApp=st.toApp := by
  unfold upload
  split <;> rfl

/-- A pass over an open connection, in terms of its parts. -/
theorem openPass_eq (now id : ℕ) (moves : ℕ → Moves) (st : TcpState) (sock : σ) :
    openPass pkg cfg now id moves st sock=
      ((deliverPass pkg cfg now id moves (upload pkg id st sock).1
          (halfClose pkg id (upload pkg id st sock).1 (upload pkg id st sock).2.1).1).1,
        (upload pkg id st sock).2.2 ++
          (halfClose pkg id (upload pkg id st sock).1 (upload pkg id st sock).2.1).2 ++
          (deliverPass pkg cfg now id moves (upload pkg id st sock).1
            (halfClose pkg id (upload pkg id st sock).1 (upload pkg id st sock).2.1).1).2) := rfl

/-- A pass over an open connection sends, closes what is drained, and goes on to
deliver. -/
theorem openPass_events :
    ∀ e∈(openPass pkg cfg now id moves st sock).2, (∃ bytes, e=.accepted id bytes) ∨
      (∃ app, e=.closing id app []) ∨
      e∈(deliverPass pkg cfg now id moves (upload pkg id st sock).1
        (halfClose pkg id (upload pkg id st sock).1 (upload pkg id st sock).2.1).1).2 := by
  rw [openPass_eq]
  intro e hmem
  rcases mem_append.mp hmem with hmem | hmem
  · rcases mem_append.mp hmem with hmem | hmem
    · unfold upload at hmem
      split at hmem
      · exact .inl ⟨_,mem_singleton.mp hmem⟩
      · cases hmem
    · unfold halfClose at hmem
      split at hmem
      · rename_i hboth
        rw [hboth.2] at hmem
        exact .inr (.inl ⟨_,mem_singleton.mp hmem⟩)
      · cases hmem
  · exact .inr (.inr hmem)

theorem openPass_spec (now id : ℕ) (moves : ℕ → Moves) (he : st.established=true) (sock : σ) :
    PassSpec id st (openPass pkg cfg now id moves st sock).1
      (openPass pkg cfg now id moves st sock).2 := by
  have hup := upload_spec pkg id st sock
  have hhalf := halfClose_events pkg id (upload pkg id st sock).1 (upload pkg id st sock).2.1
  have hrest := deliverPass_spec pkg cfg now id moves
    (show (upload pkg id st sock).1.established=true by rw [upload_established,he])
    (halfClose pkg id (upload pkg id st sock).1 (upload pkg id st sock).2.1).1
  rw [openPass_eq]
  constructor
  · intro st' sock' h
    have hkeep := (hrest.1 st' sock' h).1
    exact ⟨hkeep.handle.trans hup.1.handle,hkeep.halfClosed.trans hup.1.halfClosed⟩
  · intro st' sock' h
    rw [acceptedBytes_append,acceptedBytes_append,acceptedBytes_silent fun e he => (hhalf e he).2,
      acceptedBytes_silent fun e he => (hrest.2 e he).2,append_nil,append_nil,
      (hrest.1 st' sock' h).2]
    exact hup.2.1
  · intro e hmem
    rcases mem_append.mp hmem with hmem | hmem
    · rcases mem_append.mp hmem with hmem | hmem
      · exact hup.2.2 e hmem
      · exact (hhalf e hmem).1
    · exact (hrest.2 e hmem).1

theorem openingPass_spec (now id : ℕ) (st : TcpState) (sock : σ) :
    PassSpec id st (openingPass pkg now id st sock).1 (openingPass pkg now id st sock).2 := by
  have hsilent : ∀ e∈(openingPass pkg now id st sock).2, OfPass id e ∧ Silent e := by
    intro e hmem
    rcases openingPass_events pkg e hmem with ⟨reply,rfl⟩ | rfl
    · exact ⟨trivial,trivial⟩
    · exact ⟨rfl,trivial⟩
  have hsame : ∀ st' sock', (openingPass pkg now id st sock).1=some (st',sock') → st'=st := by
    intro st' sock' h
    unfold openingPass at h
    dsimp only at h
    split_ifs at h
    exact (Prod.mk.inj (Option.some.inj h)).1.symm
  constructor
  · intro st' sock' h
    rw [hsame st' sock' h]
    exact ⟨rfl,rfl⟩
  · intro st' sock' h
    rw [hsame st' sock' h,acceptedBytes_silent fun e he => (hsilent e he).2,nil_append]
  · exact fun e he => (hsilent e he).1

/-- One connection in the pass over all of them, in terms of its parts. -/
theorem serviceConn_eq (now id : ℕ) (moves : ℕ → Moves) (st : TcpState) (sock : σ) :
    serviceConn pkg cfg now id moves st sock=let out := handOut id (pkg.state sock) st
      let pass := if out.1.established=false then openingPass pkg now id out.1 sock
        else openPass pkg cfg now id moves out.1 sock
      ⟨pass.1,out.2.1,out.2.2++pass.2⟩ := rfl

/-- A pass answers the request, removes a connection that does not open, or
services an open one. -/
theorem serviceConn_events :
    ∀ e∈(serviceConn pkg cfg now id moves st sock).events, (∃ reply, e=.answered reply) ∨
      (∃ app unread, e=.removed id app false unread) ∨
      ((handOut id (pkg.state sock) st).1.established=true ∧
        e∈(openPass pkg cfg now id moves (handOut id (pkg.state sock) st).1 sock).2) := by
  rw [serviceConn_eq]
  intro e hmem
  rcases mem_append.mp hmem with hmem | hmem
  · exact .inl (handOut_events id (pkg.state sock) st e hmem)
  · split at hmem
    · rename_i hopening
      rcases openingPass_events pkg e hmem with hreply | hremoved
      · exact .inl hreply
      · rw [hopening] at hremoved
        exact .inr (.inl ⟨_,_,hremoved⟩)
    · rename_i hopen
      exact .inr (.inr ⟨Bool.eq_true_of_not_eq_false hopen,hmem⟩)

theorem serviceConn_spec (now id : ℕ) (moves : ℕ → Moves) (st : TcpState) (sock : σ) :
    PassSpec id st (serviceConn pkg cfg now id moves st sock).conn
      (serviceConn pkg cfg now id moves st sock).events := by
  have hout := handOut_keeps id (pkg.state sock) st
  have hpass : ∀ e∈(handOut id (pkg.state sock) st).2.2, OfPass id e ∧ Silent e := by
    intro e hmem
    rcases handOut_events id (pkg.state sock) st e hmem with ⟨reply,rfl⟩
    exact ⟨trivial,trivial⟩
  have hrest : PassSpec id (handOut id (pkg.state sock) st).1
      (if (handOut id (pkg.state sock) st).1.established=false then
        openingPass pkg now id (handOut id (pkg.state sock) st).1 sock
        else openPass pkg cfg now id moves (handOut id (pkg.state sock) st).1 sock).1
      (if (handOut id (pkg.state sock) st).1.established=false then
        openingPass pkg now id (handOut id (pkg.state sock) st).1 sock
        else openPass pkg cfg now id moves (handOut id (pkg.state sock) st).1 sock).2 := by
    split
    · exact openingPass_spec pkg now id _ sock
    · rename_i he
      exact openPass_spec pkg cfg now id moves (Bool.eq_true_of_not_eq_false he) sock
  rw [serviceConn_eq]
  constructor
  · intro st' sock' h
    have hkeep := hrest.keeps st' sock' h
    exact ⟨hkeep.handle.trans hout.1.handle,hkeep.halfClosed.trans hout.1.halfClosed⟩
  · intro st' sock' h
    rw [acceptedBytes_append,acceptedBytes_silent fun e he => (hpass e he).2,nil_append,
      ← hout.2]
    exact hrest.pending st' sock' h
  · intro e hmem
    rcases mem_append.mp hmem with hmem | hmem
    · exact (hpass e hmem).1
    · exact hrest.events e hmem

end MsnGuard.NetstackPasses
