import MsnGuard.NetstackHandles

/-!
# Invariants of single connections

A property of a connection and its socket that holds when the connection is requested, and that
polling, passes, items and applications keep, holds of every connection in every reachable
state.
-/

namespace MsnGuard.NetstackConnections

open BoundedChannels FiniteTables TransitionRuns
open NetstackModel NetStack NetstackPasses NetstackSteps NetstackHandles

variable {σ υ : Type} (pkg : SocketPackage σ υ) (cfg : Config)

/-- A property of a connection and its socket that every step keeps. -/
structure ConnInvariant (P : TcpState → σ → Prop) : Prop where
  /-- It holds of a new connection. -/
  requested : ∀ handle resp deadline sock,
    P ⟨handle,.empty cfg.appQueue,true,some resp,deadline,[],false,false,none,false⟩ sock
  /-- Polling keeps it. -/
  poll : ∀ st sock sock', P st sock → ((pkg.state sock').Opening → (pkg.state sock).Opening) →
    P st sock'
  /-- A pass keeps it. -/
  pass : ∀ now id moves st sock st' sock', st.aborted=false → P st sock →
    (serviceConn pkg cfg now id moves st sock).conn=some (st',sock') → P st' sock'
  /-- Bytes from the application keep it. -/
  pending : ∀ st sock bytes, bytes.length ≤ maxTcpPending cfg → P st sock →
    P {st with pending := bytes} sock
  /-- The application's close keeps it. -/
  halfClosed : ∀ st sock, P st sock → P {st with halfClosed := true} sock
  /-- The moves of the application keep it. -/
  app : ∀ f st sock, AppMove f → P st sock → P (f st) sock

/-- Every connection and its socket have a property. -/
def EveryConn (P : TcpState → σ → Prop) (s : NetStack σ υ) : Prop :=
  ∀ id st sock port, s.tcpConns.lookup id=some st →
    s.sockets.lookup st.handle=some (.tcp sock port) → P st sock

section Frames

variable {P : TcpState → σ → Prop} {s s' : NetStack σ υ}
variable {port id : ℕ} {sock : σ} {st st' : TcpState}

/-- A step that only removes connections and TCP sockets. -/
theorem EveryConn.shrink (h : EveryConn P s)
    (htcp : ∀ id st, s'.tcpConns.lookup id=some st → s.tcpConns.lookup id=some st)
    (hlive : ∀ handle sock port, s'.sockets.lookup handle=some (.tcp sock port) →
      s.sockets.lookup handle=some (.tcp sock port)) : EveryConn P s' :=
  fun id st sock port hst hsock => h id st sock port (htcp id st hst) (hlive _ sock port hsock)

theorem lookup_of_insertUdp {sockets : Table (Socket σ υ)} {handle h port' : ℕ} {sock : υ}
    {sock' : σ}
    (hlookup : (sockets.insert handle (.udp sock port)).lookup h=some (.tcp sock' port')) :
    sockets.lookup h=some (.tcp sock' port') := by
  rw [lookup_insert_eq] at hlookup
  split at hlookup
  · cases hlookup
  · exact hlookup

/-- A connection changes and its socket stays. -/
theorem EveryConn.update (h : EveryConn P s) (hst : s.tcpConns.lookup id=some st)
    (hhandle : st'.handle=st.handle) (hkeep : ∀ sock, P st sock → P st' sock)
    (htcp : s'.tcpConns=s.tcpConns.insert id st') (hlive : s'.sockets=s.sockets) :
    EveryConn P s' := by
  intro i st₁ sock port hi hsock
  rw [htcp,lookup_insert_eq] at hi
  rw [hlive] at hsock
  split at hi
  · cases hi
    rw [hhandle] at hsock
    exact hkeep sock (h id st sock port hst hsock)
  · exact h i st₁ sock port hi hsock

/-- A connection and the socket that it alone has are put in. -/
theorem EveryConn.insert {handle : ℕ} (h : EveryConn P s) (hhandle : st.handle=handle)
    (hother : ∀ i st₁, s.tcpConns.lookup i=some st₁ → i≠id → st₁.handle≠handle)
    (hnew : P st sock) (htcp : s'.tcpConns=s.tcpConns.insert id st)
    (hlive : s'.sockets=s.sockets.insert handle (.tcp sock port)) : EveryConn P s' := by
  intro i st₁ sock₁ port₁ hi hsock
  rw [htcp,lookup_insert_eq] at hi
  rw [hlive,lookup_insert_eq] at hsock
  split at hi
  · cases hi
    rw [if_pos hhandle] at hsock
    cases hsock
    exact hnew
  · rename_i hne
    rw [if_neg (hother i st₁ hi hne)] at hsock
    exact h i st₁ sock₁ port₁ hi hsock

/-- A connection and its socket change. -/
theorem EveryConn.replace (hs : HandlesOk s) (h : EveryConn P s)
    (hst : s.tcpConns.lookup id=some st) (hhandle : st'.handle=st.handle) (hnew : P st' sock)
    (htcp : s'.tcpConns=s.tcpConns.insert id st')
    (hlive : s'.sockets=s.sockets.insert st.handle (.tcp sock port)) : EveryConn P s' := by
  refine h.insert hhandle (fun i st₁ hi hne => ?_) hnew htcp hlive
  refine hs.exact.ne_of_ne (owner_tcp hst) (owner_tcp hi) ?_
  intro heq
  exact hne (Prod.mk.inj heq).2

/-- A new connection has a new socket. -/
theorem EveryConn.add (hs : HandlesOk s) (h : EveryConn P s)
    (hfree : s.sockets.lookup st.handle=none) (hnew : P st sock)
    (htcp : s'.tcpConns=s.tcpConns.insert id st)
    (hlive : s'.sockets=s.sockets.insert st.handle (.tcp sock port)) : EveryConn P s' := by
  refine h.insert rfl (fun i st₁ hi _ heq => ?_) hnew htcp hlive
  rcases hs.tcpSocket hi with ⟨sock₂,port₂,hlookup⟩
  rw [heq,hfree] at hlookup
  cases hlookup

/-- The pass over a UDP connection leaves the TCP connections and their sockets. -/
theorem EveryConn.udpVisited (hvisit : UdpVisited s id s') (h : EveryConn P s) :
    EveryConn P s' := by
  have hlookup : ∀ {handle : ℕ} {sockets : Table (Socket σ υ)}, (sockets=s.sockets ∨
      ∃ sock sock' port, s.sockets.lookup handle=some (.udp sock port) ∧
        sockets=s.sockets.insert handle (.udp sock' port)) →
      ∀ h' sock port, sockets.lookup h'=some (.tcp sock port) →
        s.sockets.lookup h'=some (.tcp sock port) := by
    intro handle sockets hsockets h' sock port hsock
    rcases hsockets with heq | ⟨_,_,_,_,heq⟩
    · rw [heq] at hsock
      exact hsock
    · rw [heq] at hsock
      exact lookup_of_insertUdp hsock
  cases hvisit with
  | missing _ => exact h
  | kept _ hsockets => exact h.shrink (fun _ _ hi => hi) (hlookup hsockets)
  | removed _ hsockets =>
    exact h.shrink (fun _ _ hi => hi) fun h' sock port hsock =>
      hlookup hsockets h' sock port (lookup_of_erase hsock)

end Frames

section Steps

variable {pkg cfg} {P : TcpState → σ → Prop} {s s' : NetStack σ υ}
variable {new : List Event}

theorem start_ok (hs : (machine pkg cfg).start s) : HandlesOk s ∧ EveryConn P s := by
  rcases hs with ⟨v4,v6,rfl⟩
  exact ⟨handlesOk_spawn cfg v4 v6,nofun⟩

section

variable (hP : ConnInvariant pkg cfg P)

include hP

theorem ConnInvariant.visited {id now : ℕ} {moves : ℕ → Moves}
    (hvisit : Visited pkg cfg s id moves now s' new) (hs : HandlesOk s) (h : EveryConn P s) :
    EveryConn P s' := by
  cases hvisit with
  | missing _ => exact h
  | aborted _ _ | removed _ _ _ _ _ =>
    exact h.shrink (fun _ _ => lookup_of_erase) fun _ _ _ => lookup_of_erase
  | @kept st st' sock sock' port _ _ hst halive hsock _ hconn =>
    have hkeep := (serviceConn_spec pkg cfg now id moves st sock).keeps _ _ hconn
    have hnew := hP.pass now id moves st sock st' sock' halive (h id st sock port hst hsock) hconn
    exact h.replace hs hst hkeep.handle hnew rfl rfl

theorem ConnInvariant.handled {item : DataIn} {back : Option DataIn}
    (hhandled : Handled cfg s item s' back) (h : EveryConn P s) : EveryConn P s' := by
  cases hhandled with
  | tcpMissing _ | tcpFull _ _ | closeMissing _ | udpMissing _ | udpCloseMissing _ => exact h
  | @tcpTaken _ _ _ _ st hst hle _ =>
    exact h.update hst (by rfl) (fun sock => hP.pending st sock _ hle) rfl rfl
  | @closed _ st hst => exact h.update hst (by rfl) (hP.halfClosed st) rfl rfl
  | udpSent _ _ => exact h.shrink (fun _ _ hi => hi) fun _ _ _ => lookup_of_insertUdp
  | udpClosed _ => exact h.shrink (fun _ _ hi => hi) fun _ _ _ => lookup_of_erase

theorem ConnInvariant.commanded {cmd : Cmd} {handle clock : ℕ}
    (hcommand : Commanded pkg cfg s cmd handle clock s' new)
    (hfree : s.sockets.lookup handle=none) (hs : HandlesOk s) (h : EveryConn P s) :
    EveryConn P s' := by
  cases hcommand with
  | refused e | addressed iface => exact h
  | openedTcp _ => exact h.add hs hfree (hP.requested handle _ _ _) rfl rfl
  | openedUdp _ _ => exact h.shrink (fun _ _ hi => hi) fun _ _ _ => lookup_of_insertUdp

/-- Every step keeps the property of every connection. -/
theorem ConnInvariant.effect (hs : HandlesOk s) (h : EveryConn P s)
    {a : Action σ υ} (heffect : Effect pkg cfg s a s' new) : EveryConn P s' := by
  cases heffect with
  | wait p | queue _ _ => exact h
  | poll p hevolve =>
    intro id st sock' port hst hsock'
    have hk := hevolve st.handle
    rw [hsock'] at hk
    unfold SocketEvolves at hk
    split at hk
    · rename_i heq
      cases heq
    · rename_i sock p b q hold heq
      cases heq
      exact hP.poll st sock sock' (h id st sock p hst hold) hk.2
    · rename_i heq
      cases heq
    · exact hk.elim
  | tcp _ hvisit => exact hP.visited hvisit (hs.frame _ _ _) h
  | udp hvisit => exact EveryConn.udpVisited hvisit h
  | deferred _ hhandled | received _ _ hhandled =>
    have hafter := hP.handled hhandled h
    exact hafter
  | command hfree hcommand => exact hP.commanded hcommand hfree (hs.frame _ _ _) h
  | modifyTcp id hf =>
    unfold modifyTcp
    split
    · exact h
    · rename_i st hst
      exact h.update hst (hf.handle st) (fun sock => hP.app _ st sock hf) rfl rfl
  | modifyUdp id _ =>
    unfold modifyUdp
    split
    · exact h
    · exact h

theorem ConnInvariant.step {a : Action σ υ} {new : List Event} (hok : HandlesOk s ∧ EveryConn P s)
    (ha : (machine pkg cfg).allowed s a) (he : (machine pkg cfg).exec s a=some (s',new)) :
    HandlesOk s' ∧ EveryConn P s' := by
  have heffect := exec_effect pkg cfg ha he
  exact ⟨hok.1.moved pkg (effect_moved pkg cfg heffect),hP.effect hok.1 hok.2 heffect⟩

/-- The property holds of every connection in every reachable state. -/
theorem ConnInvariant.of_run {cond : List Event → NetStack σ υ → Action σ υ → Prop} {t : List Event}
    (h : (machine pkg cfg).Run cond t s) : EveryConn P s :=
  (h.invariant (fun _ s => HandlesOk s ∧ EveryConn P s) (fun _ => start_ok)
    fun _ _ _ _ _ hok ha _ he => hP.step hok ha he).2

end

end Steps

/-- A connection that is aborted has no application any more, and one that has
been open does not open again. -/
structure Settled (st : TcpState) (sock : σ) : Prop where
  /-- An aborted connection has lost its receiver. -/
  gone : st.aborted=true → st.toApp.rxAlive=false
  /-- An open connection is synchronized. -/
  synchronized : st.established=true → ¬(pkg.state sock).Opening

theorem not_opening_afterClose (phase : TcpPhase) : ¬phase.afterClose.Opening := by
  cases phase <;> decide

section Passes

variable {id : ℕ} {st st' : TcpState} {sock sock' : σ}
variable {now : ℕ} {moves : ℕ → Moves}

/-- The end of a pass keeps the socket or closes its transmit half. -/
theorem finishPass_sock (h : (finishPass pkg id st sock).1=some (st',sock')) :
    sock'=sock ∨ sock'=pkg.close sock := by
  have hconn : (finishPass pkg id st sock).1=none ∨
      ∃ st', (finishPass pkg id st sock).1=some (st',sock) ∨
        (finishPass pkg id st sock).1=some (st',pkg.close sock) := by
    unfold finishPass
    cases pkg.state sock <;> cases hest : st.established <;> simp [hest]
  rcases hconn with hnone | ⟨st₁,hsome | hsome⟩
  · rw [hnone] at h
    cases h
  · rw [hsome] at h
    exact .inl (Prod.mk.inj (Option.some.inj h)).2.symm
  · rw [hsome] at h
    exact .inr (Prod.mk.inj (Option.some.inj h)).2.symm

theorem finishPass_settled (he : st.established=true)
    (h : (finishPass pkg id st sock).1=some (st',sock')) :
    st'=st ∧ ((pkg.state sock').Opening → (pkg.state sock).Opening) := by
  refine ⟨(finishPass_spec pkg id he sock).1 st' sock' h,fun hopening => ?_⟩
  rcases finishPass_sock pkg h with heq | heq
  · rw [heq] at hopening
    exact hopening
  · rw [heq,pkg.state_close] at hopening
    exact absurd hopening (not_opening_afterClose _)

theorem orphanPass_settled (he : st.established=true)
    (h : (orphanPass pkg cfg now id st sock).1=some (st',sock')) :
    st'.toApp=st.toApp ∧ ((pkg.state sock').Opening → (pkg.state sock).Opening) := by
  unfold orphanPass at h
  dsimp only at h
  split at h
  · have heq := Prod.mk.inj (Option.some.inj h)
    rw [←heq.1,←heq.2]
    refine ⟨rfl,?_⟩
    split
    · exact fun hopening => hopening
    · rw [pkg.state_abort]
      exact fun hopening => absurd hopening (by decide)
  · have hf := finishPass_settled pkg
      (show ({st with orphanedAt := some (st.orphanedAt.getD now)} : TcpState).established=true
        from he) h
    rw [hf.1]
    refine ⟨rfl,fun hopening => ?_⟩
    have hclosed := hf.2 hopening
    rw [pkg.state_close] at hclosed
    exact absurd hclosed (not_opening_afterClose _)

theorem deliverPass_settled (he : st.established=true) (ha : st.aborted=false)
    (h : (deliverPass pkg cfg now id moves st sock).1=some (st',sock')) :
    (st'.aborted=true → st'.toApp.rxAlive=false) ∧
      ((pkg.state sock').Opening → (pkg.state sock).Opening) := by
  unfold deliverPass at h
  dsimp only at h
  split at h
  · rename_i hgone
    have ho := orphanPass_settled pkg cfg (by exact he) h
    rw [ho.1]
    rw [deliver_state] at ho
    exact ⟨fun _ => deliver_gone pkg hgone _,ho.2⟩
  · have hf := finishPass_settled pkg (by exact he) h
    rw [hf.1]
    rw [deliver_state] at hf
    refine ⟨fun haborted => ?_,hf.2⟩
    rw [ha] at haborted
    cases haborted

theorem upload_aborted (id : ℕ) (st : TcpState) (sock : σ) :
    (upload pkg id st sock).1.aborted=st.aborted := by
  unfold upload
  split <;> rfl

theorem openPass_settled (he : st.established=true) (ha : st.aborted=false)
    (h : (openPass pkg cfg now id moves st sock).1=some (st',sock')) :
    (st'.aborted=true → st'.toApp.rxAlive=false) ∧
      ((pkg.state sock').Opening → (pkg.state sock).Opening) := by
  rw [openPass_eq] at h
  have hd := deliverPass_settled pkg cfg (by rw [upload_established,he])
    (by rw [upload_aborted,ha]) h
  refine ⟨hd.1,fun hopening => ?_⟩
  have hhalf := hd.2 hopening
  unfold halfClose at hhalf
  split at hhalf
  · rw [pkg.state_close] at hhalf
    exact absurd hhalf (not_opening_afterClose _)
  · rw [upload_state] at hhalf
    exact hhalf

theorem handOut_aborted (id : ℕ) (phase : TcpPhase) (st : TcpState) :
    (handOut id phase st).1.aborted=st.aborted := by
  unfold handOut
  split
  · split
    · dsimp only
      split <;> rfl
    · rfl
    · rfl
  · rfl

/-- A connection is found open when it was, or when its socket is. -/
theorem handOut_synchronized {id : ℕ} {phase : TcpPhase} {st : TcpState}
    (hst : st.established=true → ¬phase.Opening)
    (h : (handOut id phase st).1.established=true) : ¬phase.Opening := by
  unfold handOut at h
  split at h
  · rename_i hopen
    rcases hopen.2 with heq | heq <;> (rw [heq]; decide)
  · exact hst h

theorem openingPass_conn (h : (openingPass pkg now id st sock).1=some (st',sock')) :
    st'=st ∧ sock'=sock := by
  unfold openingPass at h
  dsimp only at h
  split_ifs at h
  have heq := Prod.mk.inj (Option.some.inj h)
  exact ⟨heq.1.symm,heq.2.symm⟩

theorem serviceConn_settled (ha : st.aborted=false) (hst : Settled pkg st sock)
    (h : (serviceConn pkg cfg now id moves st sock).conn=some (st',sock')) :
    Settled pkg st' sock' := by
  have hrunning := (handOut_aborted id (pkg.state sock) st).trans ha
  rw [serviceConn_eq] at h
  dsimp only at h
  split at h
  · rename_i hopening
    rcases openingPass_conn pkg h with ⟨rfl,rfl⟩
    refine ⟨fun haborted => ?_,fun he => ?_⟩
    · rw [hrunning] at haborted
      cases haborted
    · rw [hopening] at he
      cases he
  · rename_i hopen
    have he := Bool.eq_true_of_not_eq_false hopen
    have hpass := openPass_settled pkg cfg he hrunning h
    exact ⟨hpass.1,fun _ hopening => handOut_synchronized hst.synchronized he (hpass.2 hopening)⟩

end Passes

theorem settled_invariant : ConnInvariant pkg cfg (Settled pkg) where
  requested handle resp deadline sock := by
    constructor <;> exact nofun
  poll st sock sock' hst hopening := ⟨hst.gone,fun he h => hst.synchronized he (hopening h)⟩
  pass now id moves st sock st' sock' ha hst hconn := serviceConn_settled pkg cfg ha hst hconn
  pending st sock bytes _ hst := ⟨hst.gone,hst.synchronized⟩
  halfClosed st sock hst := ⟨hst.gone,hst.synchronized⟩
  app f st sock hf hst := by
    constructor
    · intro haborted
      rw [hf.aborted] at haborted
      by_contra halive
      have hbefore := hf.rxAlive st (Bool.eq_true_of_not_eq_false halive)
      rw [hst.gone haborted] at hbefore
      cases hbefore
    · intro he
      rw [hf.established] at he
      exact hst.synchronized he

/-- The pending bytes of a connection never exceed their limit. -/
theorem pending_invariant :
    ConnInvariant pkg cfg fun st _ => st.pending.length ≤ maxTcpPending cfg where
  requested _ _ _ _ := Nat.zero_le _
  poll _ _ _ h _ := h
  pass now id moves st sock st' sock' _ h hconn := by
    have hpending := (serviceConn_spec pkg cfg now id moves st sock).pending st' sock' hconn
    rw [hpending,List.length_append] at h
    omega
  pending _ _ _ hle _ := hle
  halfClosed _ _ h := h
  app f st _ hf h := by
    rw [hf.pending]
    exact h

end MsnGuard.NetstackConnections
