import MsnGuard.TunControl

/-!
# The order in which a session is taken down

Whatever a session has started it stops before its next attempt and before it returns, the exit
before the carrier. A bridge that the session has started itself is stopped first on every way
down, but a call that resumes the bridge can start it again in between.
-/

namespace MsnGuard.SessionTeardown

open TransitionRuns SessionThreads TunControl List Option Function
open SessionSupervisor (CoreError)
open SessionEndpoints (SessionConfig Endpoints RetryPolicy)

/-- Every handle that was started has been stopped. -/
def AllStopped (t : List ThreadEvent) : Prop := ∀ hop h, .started hop h∈t → .stopped hop h∈t

/-- Every exit that was started has been stopped. -/
def ExitsStopped (t : List ThreadEvent) : Prop :=
  ∀ h, .started .exit h∈t → .stopped .exit h∈t

/-- The bridge has been stopped whenever it was started. -/
def Lowered (t : List ThreadEvent) : Prop := Answered (·=.bridgeStarted) (·=.bridgeStopped) t

/-- What comes before what in a session: all handles are stopped before an attempt
and before the end, the exits and a bridge of its own before the carrier. Handles
are told apart by their numbers. -/
def TeardownLaw (before : List ThreadEvent) : ThreadEvent → Prop
  | .attempt _ | .returned _ => AllStopped before
  | .stopped .carrier _ => ExitsStopped before ∧ Lowered before
  | .started _ h => ∀ hop, .started hop h ∉ before
  | _ => True

/-- A thread that does not panic. -/
def calm : Input → Bool
  | .panic => false
  | _ => true

/-- An action in which no thread panics. -/
def calmAction : Action → Bool
  | .thread _ input => calm input
  | _ => true

/-- Phases of a session that will stop the bridge before its handles. -/
def willLower : Phase → Bool
  | .checking _ | .serving _ _ _ | .dropping _ _ | .restarting _ _ _ | .cancelling | .ending _
  | .lowering _ => true
  | _ => false

/-- Phases without handles. -/
def clear : Phase → Bool
  | .building | .head | .dialling | .backingOff | .returning _ => true
  | _ => false

/-- Phases with a carrier and no exit. -/
def single : Phase → Bool
  | .chaining _ | .serving _ false _ | .dropping _ _ | .restarting _ _ _ => true
  | _ => false

/-- The handles that a session has in hand. -/
def Held (th : Thread) : Hop → ℕ → Prop
  | .carrier,h => th.carrier=some h
  | .exit,h => th.exit=some h ∨ ∃ next, th.phase=.dropping h next

/-- What a session has started is stopped or in hand. -/
structure Sound (t : List ThreadEvent) (th : Thread) : Prop where
  law : Guarded TeardownLaw t
  held : ∀ hop h, .started hop h∈t → .stopped hop h∈t ∨ Held th hop h
  numbered : ∀ hop h, .started hop h∈t → h<th.nextHandle
  clear : clear th.phase=true → th.carrier=none ∧ th.exit=none
  single : single th.phase=true → th.exit=none
  lowered : Lowered t ∨ willLower th.phase=true

/-- Events about handles. -/
def aboutHandle : ThreadEvent → Bool
  | .started _ _ | .stopped _ _ => true
  | _ => false

section Steps

variable {policy : RetryPolicy} {view : View} {input : Input} {t new : List ThreadEvent}
  {th th' : Thread}
variable {hop : Hop} {handle k : ℕ} {p' p : Phase}

/-- A session without handles has stopped all of them. -/
theorem Sound.allStopped (h : Sound t th) (hclear : SessionTeardown.clear th.phase=true) :
    AllStopped t := by
  intro hop handle hstarted
  obtain ⟨hcarrier,hexit⟩ := h.clear hclear
  rcases h.held hop handle hstarted with hstopped | hheld
  · exact hstopped
  · cases hop with
    | carrier => cases hcarrier.symm.trans hheld
    | exit =>
      rcases hheld with hheld | ⟨next,hphase⟩
      · cases hexit.symm.trans hheld
      · rw [hphase] at hclear
        cases hclear

/-- What a session starts it has in hand, and what it had in hand it has stopped or has
still. -/
theorem Sound.onward (h : Sound t th) (hlaw : Guarded TeardownLaw (t++new))
    (hstarts : ∀ hop k, .started hop k∈new → Held th' hop k ∧ k<th'.nextHandle)
    (hkeeps : ∀ hop k, Held th hop k → .stopped hop k∈new ∨ Held th' hop k)
    (hnumber : th.nextHandle≤th'.nextHandle)
    (hclear : SessionTeardown.clear th'.phase=true → th'.carrier=none ∧ th'.exit=none)
    (hsingle : SessionTeardown.single th'.phase=true → th'.exit=none)
    (hlowered : Lowered (t++new) ∨ willLower th'.phase=true) : Sound (t++new) th' := by
  refine ⟨hlaw,fun hop k hmem => ?_,fun hop k hmem => ?_,hclear,hsingle,hlowered⟩
  · rcases mem_append.mp hmem with hold | hstart
    · rcases h.held hop k hold with hstopped | hheld
      · exact .inl (mem_append_left _ hstopped)
      · exact (hkeeps hop k hheld).imp_left (mem_append_right _)
    · exact .inr (hstarts hop k hstart).1
  · rcases mem_append.mp hmem with hold | hstart
    · exact (h.numbered hop k hold).trans_le hnumber
    · exact (hstarts hop k hstart).2

/-- A session goes on with the handles it has. -/
theorem Sound.goto (h : Sound t th) (hlaw : Guarded TeardownLaw (t++new))
    (hnew : ∀ e∈new, aboutHandle e=false) (hphase : ∀ k next, th.phase≠.dropping k next)
    (hclear : SessionTeardown.clear p'=true → th.carrier=none ∧ th.exit=none)
    (hsingle : SessionTeardown.single p'=true → th.exit=none)
    (hlowered : Lowered (t++new) ∨ willLower p'=true) : Sound (t++new) (th.goto p') := by
  refine h.onward hlaw (fun hop k hmem => by cases hnew _ hmem) (fun hop k hheld => .inr ?_)
    le_rfl hclear hsingle hlowered
  cases hop with
  | carrier => exact hheld
  | exit => exact hheld.imp_right fun ⟨next,hdropping⟩ => absurd hdropping (hphase k next)

/-- A session starts a handle. -/
theorem Sound.startLaw (h : Sound t th) (hop : Hop) :
    Guarded TeardownLaw (t++[.started hop th.nextHandle]) := by
  refine h.law.concat ?_
  intro hop' hmem
  exact absurd (h.numbered hop' _ hmem) (lt_irrefl _)

theorem Sound.lowered_of (h : Sound t th) (hphase : willLower th.phase=false) : Lowered t := by
  rcases h.lowered with hlowered | hwill
  · exact hlowered
  · cases hphase.symm.trans hwill

theorem clear_quiet (hquiet : Quiet view th p p') (hclear : clear p'=true) :
    clear p=true ∨ th.carrier=none ∧ th.exit=none := by
  cases hquiet <;> first
    | exact .inl rfl
    | cases hclear; done
    | skip
  rename_i hexit hcarrier
  exact .inr ⟨hcarrier,hexit⟩

theorem single_quiet (hquiet : Quiet view th p p') (hsingle : single p'=true) :
    single p=true ∨ th.exit=none := by
  cases hquiet <;> first
    | exact .inl rfl
    | cases hsingle; done
    | exact .inr ‹_›

theorem willLower_quiet (hquiet : Quiet view th p p') (hwill : willLower p=true) :
    willLower p'=true := by
  cases hquiet <;> first
    | rfl
    | cases hwill

section

variable (h : Sound t th)

include h

theorem Sound.quiet (hquiet : Quiet view th th.phase p') :
    Sound (t++[]) (th.goto p') := by
  refine h.goto (h.law.append (by simp)) (by simp) ?_ ?_ ?_ ?_
  · intro k next hphase
    rw [hphase] at hquiet
    cases hquiet
  · intro hclear
    rcases clear_quiet hquiet hclear with hp | hnone
    · exact h.clear hp
    · exact hnone
  · intro hsingle
    rcases single_quiet hquiet hsingle with hp | hnone
    · exact h.single hp
    · exact hnone
  · rcases h.lowered with hlowered | hwill
    · exact .inl (hlowered.append (by simp))
    · exact .inr (willLower_quiet hquiet hwill)

/-- An event that nothing depends on. -/
theorem Sound.note {e : ThreadEvent} (hlaw : TeardownLaw t e)
    (hhandle : aboutHandle e=false) (hbridge : e≠.bridgeStarted) : Sound (t++[e]) th := by
  refine h.onward (h.law.concat hlaw) ?_ (fun _ _ hheld => .inr hheld) le_rfl h.clear h.single
    (h.lowered.imp_left fun hlowered => hlowered.append (by simpa using hbridge))
  intro hop k hmem
  rw [←mem_singleton.mp hmem] at hhandle
  cases hhandle

/-- The carrier comes up. -/
theorem Sound.carrierUp (hphase : th.phase=.dialling)
    (hclear : SessionTeardown.clear p'=false) :
    Sound (t++[.started .carrier th.nextHandle]) (th.obtainCarrier.goto p') := by
  obtain ⟨hcarrier,hexit⟩ := h.clear (by rw [hphase]; rfl)
  refine h.onward (h.startLaw .carrier) ?_ ?_ (Nat.le_succ _) (fun hc => by cases hclear.symm.trans hc)
    (fun _ => hexit) (.inl ((h.lowered_of (by rw [hphase]; rfl)).append (by simp)))
  · intro hop k hmem
    obtain ⟨rfl,rfl⟩ := ThreadEvent.started.inj (mem_singleton.mp hmem)
    exact ⟨rfl,Nat.lt_succ_self _⟩
  · intro hop k hheld
    cases hop with
    | carrier => cases hcarrier.symm.trans hheld
    | exit =>
      rcases hheld with hheld | ⟨next,hdropping⟩
      · cases hexit.symm.trans hheld
      · cases hphase.symm.trans hdropping

/-- An exit comes up; it is kept, or it is about to be stopped again. -/
theorem Sound.exitUp (hsingle : SessionTeardown.single th.phase=true)
    (hphase : ∀ k next, th.phase≠.dropping k next) {kept : Bool}
    (hkept : kept=true ∧ SessionTeardown.single p'=false ∨
      kept=false ∧ ∃ next, p'=.dropping th.nextHandle next)
    (hclear : SessionTeardown.clear p'=false) (hlowered : Lowered t ∨ willLower p'=true) :
    Sound (t++[.started .exit th.nextHandle]) ((th.obtainExit kept).goto p') := by
  have hexit := h.single hsingle
  refine h.onward (h.startLaw .exit) ?_ ?_ (Nat.le_succ _) (fun hc => by cases hclear.symm.trans hc)
    ?_ (hlowered.imp_left fun hlowered => hlowered.append (by simp))
  · intro hop k hmem
    obtain ⟨rfl,rfl⟩ := ThreadEvent.started.inj (mem_singleton.mp hmem)
    refine ⟨?_,Nat.lt_succ_self _⟩
    rcases hkept with ⟨rfl,_⟩ | ⟨rfl,hdropping⟩
    · exact .inl rfl
    · exact .inr hdropping
  · intro hop k hheld
    cases hop with
    | carrier => exact .inr hheld
    | exit =>
      rcases hheld with hheld | ⟨next,hdropping⟩
      · cases hexit.symm.trans hheld
      · exact absurd hdropping (hphase k next)
  · intro hs
    rcases hkept with ⟨_,hnot⟩ | ⟨rfl,_⟩
    · cases hnot.symm.trans hs
    · exact hexit

/-- The exit is taken to be stopped on its own. -/
theorem Sound.dropExit {endpoints : Endpoints} {up : Bool} {n : ℕ}
    {next : AfterExit} (hphase : th.phase=.serving endpoints up n) (hexit : th.exit=some k) :
    Sound (t++[]) {th with exit := none, phase := .dropping k next} := by
  refine h.onward (by rw [append_nil]; exact h.law) (by simp) (fun hop k' hheld => .inr ?_)
    le_rfl nofun (fun _ => rfl) (.inr rfl)
  cases hop with
  | carrier => exact hheld
  | exit =>
    rcases hheld with hheld | ⟨next',hdropping⟩
    · cases hexit.symm.trans hheld
      exact .inr ⟨next,rfl⟩
    · cases hphase.symm.trans hdropping

/-- An exit that is stopped is not in hand any more. -/
theorem Sound.exitStopped (hheld : ∀ handle, Held th .exit handle → handle=k)
    (hcarrier : th'.carrier=th.carrier) (hhandle : th'.nextHandle=th.nextHandle)
    (hclear : SessionTeardown.clear th'.phase=false)
    (hsingle : SessionTeardown.single th'.phase=true → th'.exit=none)
    (hlowered : Lowered t ∨ willLower th'.phase=true) : Sound (t++[.stopped .exit k]) th' := by
  refine h.onward (h.law.concat trivial) (by simp) ?_ hhandle.ge
    (fun hc => by cases hclear.symm.trans hc) hsingle
    (hlowered.imp_left fun hlowered => hlowered.append (by simp))
  intro hop handle hinHand
  cases hop with
  | carrier => exact .inr (hcarrier.trans hinHand)
  | exit => exact .inl (by rw [hheld handle hinHand]; exact mem_cons_self)

/-- The carrier is stopped last. -/
theorem Sound.carrierStopped {next : Next} (hphase : th.phase=.tearing next)
    (hexit : th.exit=none) (hcarrier : th.carrier=some k) :
    Sound (t++[.stopped .carrier k]) {th with carrier := none} := by
  have hlowered : Lowered t := h.lowered_of (by rw [hphase]; rfl)
  have hnone : ∀ handle, ¬Held th .exit handle := by
    rintro handle (hheld | ⟨next',hdropping⟩)
    · cases hexit.symm.trans hheld
    · cases hphase.symm.trans hdropping
  have hexits : ExitsStopped t := fun handle hstarted =>
    (h.held .exit handle hstarted).resolve_right (hnone handle)
  refine h.onward (h.law.concat ⟨hexits,hlowered⟩) (by simp) ?_ le_rfl (fun _ => ⟨rfl,hexit⟩)
    (fun _ => hexit) (.inl (hlowered.append (by simp)))
  intro hop handle hinHand
  cases hop with
  | carrier =>
    cases hcarrier.symm.trans hinHand
    exact .inl mem_cons_self
  | exit => exact absurd hinHand (hnone handle)

end

theorem willLower_between (hp : p=.dialling ∨
    (∃ outcome, p=.tearing (.decide outcome)) ∧ th.exit=none ∧ th.carrier=none) :
    willLower p=false := by
  rcases hp with rfl | ⟨⟨outcome,rfl⟩,_⟩ <;> rfl

/-- An attempt is over and its handles are stopped. -/
theorem Sound.between (h : Sound t th) (hp : th.phase=.dialling ∨
      (∃ outcome, th.phase=.tearing (.decide outcome)) ∧ th.exit=none ∧ th.carrier=none)
    (hlowered : Lowered (t++new)) (hlaw : Guarded TeardownLaw (t++new))
    (hnew : ∀ e∈new, aboutHandle e=false) (p' : Phase) : Sound (t++new) (th.goto p') := by
  have hnone : th.carrier=none ∧ th.exit=none := by
    rcases hp with hphase | ⟨_,hexit,hcarrier⟩
    · exact h.clear (by rw [hphase]; rfl)
    · exact ⟨hcarrier,hexit⟩
  refine h.goto hlaw hnew ?_ (fun _ => hnone) (fun _ => hnone.2) (.inl hlowered)
  intro k next hdropping
  rcases hp with hphase | ⟨⟨outcome,hphase⟩,_⟩ <;> rw [hphase] at hdropping <;> cases hdropping

/-- Every move of a session that does not panic keeps what holds. -/
theorem Sound.move (h : Sound t th) (hcalm : calm input=true) {effect : Effect}
    (hmove : Moves policy view input th th.phase th' effect new) : Sound (t++new) th' := by
  generalize hphase : th.phase=p at hmove
  have hclear (hp : SessionTeardown.clear p=true) : th.carrier=none ∧ th.exit=none :=
    h.clear (hphase ▸ hp)
  have hlower (hp : willLower p=false) (hnew : .bridgeStarted ∉ new) : Lowered (t++new) :=
    (h.lowered_of (hphase ▸ hp)).append (by rintro e he rfl; exact hnew he)
  have hdrop (hp : ∀ k next, p≠.dropping k next) : ∀ k next, th.phase≠.dropping k next :=
    fun k next => hphase ▸ hp k next
  cases hmove with
  | quiet hquiet => exact h.quiet (hphase ▸ hquiet)
  | panic hpanic =>
    rw [hpanic] at hcalm
    cases hcalm
  | carrierUp endpoints =>
    refine h.carrierUp hphase ?_
    split <;> rfl
  | exitUp carrier exit =>
    refine h.exitUp (by rw [hphase]; rfl) (hdrop (by simp)) (.inl ⟨rfl,?_⟩) ?_
      (.inl (h.lowered_of (by rw [hphase]; rfl)))
    · split <;> rfl
    · split <;> rfl
  | exitBack endpoints carrier n =>
    have hup : Sound (t++[.started .exit th.nextHandle])
        ((th.obtainExit true).goto (.serving endpoints true n)) :=
      h.exitUp (by rw [hphase]; rfl) (hdrop (by simp)) (.inl ⟨rfl,rfl⟩) rfl (.inr rfl)
    rw [append_cons]
    exact hup.note trivial rfl (by simp)
  | exitMoved endpoints carrier n e =>
    exact h.exitUp (by rw [hphase]; rfl) (hdrop (by simp)) (.inr ⟨rfl,_,rfl⟩) rfl (.inr rfl)
  | dropExit endpoints n k hexit => exact h.dropExit hphase hexit
  | exitDropped k next =>
    have hnone := h.single (by rw [hphase]; rfl)
    refine h.exitStopped ?_ rfl rfl ?_ (fun _ => hnone) (.inr ?_)
    · rintro handle (hheld | ⟨next',hdropping⟩)
      · cases hnone.symm.trans hheld
      · exact (Phase.dropping.inj (hphase.symm.trans hdropping)).1.symm
    · cases next <;> rfl
    · cases next <;> rfl
  | stopExit next k hexit =>
    refine h.exitStopped ?_ rfl rfl (by rw [hphase]; rfl) (fun _ => rfl)
      (.inl (h.lowered_of (by rw [hphase]; rfl)))
    rintro handle (hheld | ⟨next',hdropping⟩)
    · exact (some.inj (hexit.symm.trans hheld)).symm
    · cases hphase.symm.trans hdropping
  | stopCarrier next k hexit hcarrier => exact h.carrierStopped hphase hexit hcarrier
  | attempt _ =>
    refine h.goto (h.law.concat (h.allStopped (by rw [hphase]; rfl))) (by simp [aboutHandle])
      (hdrop (by simp)) (fun _ => hclear rfl) nofun (.inl (hlower rfl (by simp)))
  | leave outcome =>
    refine h.goto (h.law.concat (h.allStopped (by rw [hphase]; rfl))) (by simp [aboutHandle])
      (hdrop (by simp)) nofun nofun
      (.inl (hlower rfl (by simp)))
  | redial hp _ =>
    have hgone := h.between (hphase ▸ hp) (hlower (willLower_between hp) (by simp))
      (h.law.append (by simp [TeardownLaw])) (by simp [aboutHandle]) .backingOff
    exact ⟨hgone.law,hgone.held,hgone.numbered,hgone.clear,hgone.single,hgone.lowered⟩
  | giveUp outcome hp _ _ =>
    exact h.between (hphase ▸ hp) (hlower (willLower_between hp) (by simp))
      (h.law.append (by simp [TeardownLaw])) (by simp [aboutHandle]) (.returning outcome)
  | tick endpoints up n n' tick _ =>
    refine h.goto (h.law.append (by simp [TeardownLaw])) (by simp [aboutHandle]) (hdrop (by simp))
      nofun ?_ (.inr rfl)
    intro hs
    cases up with
    | true => cases hs
    | false => exact h.single (by rw [hphase]; rfl)
  | raise endpoints | connect endpoints _ | pumpEnded endpoints up n e _ | withdraw outcome =>
    exact h.goto (h.law.append (by simp [TeardownLaw])) (by simp [aboutHandle]) (hdrop (by simp))
      nofun nofun (.inr rfl)
  | unlock endpoints =>
    exact h.goto (h.law.append (by simp)) (by simp) (hdrop (by simp))
      nofun nofun (.inr rfl)
  | publish endpoints | raiseFailed endpoints e | unwound =>
    exact h.goto (h.law.append (by simp)) (by simp) (hdrop (by simp))
      nofun nofun (.inl (hlower rfl (by simp)))
  | cancel | lower outcome | close =>
    exact h.goto (h.law.append (by simp [TeardownLaw])) (by simp [aboutHandle]) (hdrop (by simp))
      nofun nofun (.inl (answered_close rfl (by simp)))

end Steps

/-- Events that start the bridge for a session. -/
def StartsFor (w : ℕ) (e : Event) : Prop :=
  e=.thread w .bridgeStarted ∨ ∃ c, e=.bridgeStarted c w

/-- Calls of the bridge to stop, by the thread of the session or from outside. -/
def StopsFor (w : ℕ) (e : Event) : Prop :=
  e=.thread w .bridgeStopped ∨ ∃ c, e=.bridgeStopped c

/-- The bridge has been stopped whenever it was started for a session. -/
def LoweredFor (w : ℕ) (t : List Event) : Prop := Answered (StartsFor w) (StopsFor w) t

/-- The carrier of a session is stopped after the bridge, whoever started it. -/
def BridgeLaw (before : List Event) : Event → Prop
  | .thread w (.stopped .carrier _) => LoweredFor w before
  | _ => True

/-- A thread does not panic, and a call starts the bridge only for a session that
will stop it before its handles. -/
def raisedInTime (s : World) : Action → Bool
  | .thread _ input => calm input
  | .tun c none =>
    match s.calls c with
    | some (.resumeStart w _) => (s.threads w).all fun th => willLower th.phase
    | _ => true
  | _ => true

/-- A bridge that has not been stopped belongs to a session that will stop it. -/
structure Ordered (t : List Event) (s : World) : Prop where
  law : Guarded BridgeLaw t
  lowered : ∀ w, LoweredFor w t ∨ ∃ th, s.threads w=some th ∧ willLower th.phase=true

/-- What a move has to do with the bridge. -/
theorem move_bridge {policy : RetryPolicy} {view : View} {input : Input} {th th' : Thread}
    {effect : Effect} {events : List ThreadEvent} (hcalm : calm input=true)
    (h : Moves policy view input th th.phase th' effect events) :
    (.bridgeStarted ∉ events ∧ (willLower th.phase=true → willLower th'.phase=true) ∨
      willLower th'.phase=true ∨ events=[.bridgeStopped]) ∧
    (∀ k, .stopped .carrier k∈events → willLower th.phase=false ∧
      events=[.stopped .carrier k]) := by
  generalize hphase : th.phase=p at h
  cases h with
  | quiet hquiet => exact ⟨.inl ⟨by simp,willLower_quiet hquiet⟩,by simp⟩
  | panic hpanic =>
    rw [hpanic] at hcalm
    cases hcalm
  | stopCarrier next k _ _ =>
    refine ⟨.inl ⟨by simp,nofun⟩,?_⟩
    intro k' hk'
    have heq := mem_singleton.mp hk'
    exact ⟨rfl,by rw [heq]⟩
  | redial hp _ | giveUp _ hp _ _ =>
    rw [willLower_between hp]
    exact ⟨.inl ⟨by simp,nofun⟩,by simp⟩
  | cancel | lower outcome | close => exact ⟨.inr (.inr rfl),by simp⟩
  | exitDropped k next =>
    refine ⟨.inr (.inl ?_),by simp⟩
    cases next <;> rfl
  | raise endpoints | unlock endpoints | connect endpoints _ | tick endpoints up n n' tick _
  | pumpEnded endpoints up n e _ | dropExit endpoints n k _ | exitBack endpoints carrier n
  | exitMoved endpoints carrier n e | withdraw outcome =>
    exact ⟨.inr (.inl rfl),by simp⟩
  | _ => exact ⟨.inl ⟨by simp,nofun⟩,by simp⟩

section World

variable {policy : RetryPolicy} {t new : List Event} {s s' : World}
variable {w c : ℕ} {th : Thread} {input : Input} {error : Option CoreError} {a : Action}

theorem Ordered.initial (config : SessionConfig) : Ordered [] (World.initial config) :=
  ⟨guarded_nil _,fun _ => .inl answered_nil⟩

/-- The carrier is only stopped when the bridge has been. -/
theorem Ordered.threadLaw (h : Ordered t s) {th' : Thread} {view : View} {effect : Effect}
    {events : List ThreadEvent} (hth : s.threads w=some th) (hcalm : calm input=true)
    (hmove : Moves policy view input th th.phase th' effect events) :
    Guarded BridgeLaw (t++events.map (.thread w)) := by
  obtain ⟨_,hcarrier⟩ := move_bridge hcalm hmove
  by_cases hstop : ∃ k, .stopped .carrier k∈events
  · obtain ⟨k,hk⟩ := hstop
    obtain ⟨hphase,rfl⟩ := hcarrier k hk
    refine h.law.concat ?_
    rcases h.lowered w with hlowered | ⟨th₀,hth₀,hwill⟩
    · exact hlowered
    · cases hth.symm.trans hth₀
      cases hphase.symm.trans hwill
  · refine h.law.append ?_
    intro e he front
    obtain ⟨e',he',rfl⟩ := mem_map.mp he
    cases e' with
    | stopped hop k =>
      cases hop with
      | carrier => exact absurd ⟨k,he'⟩ hstop
      | exit => trivial
    | _ => trivial

/-- A step of a thread. -/
theorem Ordered.thread (h : Ordered t s) (hcalm : calm input=true)
    (hstep : s.threadStep policy w input=some (s',new)) : Ordered (t++new) s' := by
  obtain ⟨th,th',effect,events,plane,hth,hadvance,_,hs',rfl⟩ := threadStep_eq hstep
  have hmove : Moves policy (s.view w) input th th.phase th' effect events := advance_moves hadvance
  have hthreads : s'.threads=update s.threads w (some th') := by rw [hs']
  refine ⟨h.threadLaw hth hcalm hmove,fun w' => ?_⟩
  rcases eq_or_ne w' w with rfl | hne
  · have hnow : s'.threads w'=some th' := by rw [hthreads,update_self]
    rcases (move_bridge hcalm hmove).1 with ⟨hnot,hwill⟩ | hwill | rfl
    · rcases h.lowered w' with hlowered | ⟨th₀,hth₀,hwill₀⟩
      · refine .inl (hlowered.append ?_)
        rintro e he (rfl | ⟨c,rfl⟩)
        · exact hnot (by simpa using he)
        · simp at he
      · cases hth.symm.trans hth₀
        exact .inr ⟨th',hnow,hwill hwill₀⟩
    · exact .inr ⟨th',hnow,hwill⟩
    · exact .inl (answered_close (.inl rfl) (by rintro (heq | ⟨c,heq⟩) <;> cases heq))
  · rcases h.lowered w' with hlowered | ⟨th₀,hth₀,hwill₀⟩
    · refine .inl (hlowered.append ?_)
      rintro e he (rfl | ⟨c,rfl⟩)
      · obtain ⟨e',_,heq⟩ := mem_map.mp he
        exact hne (Event.thread.inj heq).1.symm
      · simp at he
    · refine .inr ⟨th₀,?_,hwill₀⟩
      rw [hthreads,update_of_ne hne,hth₀]

/-- Events of starts and stops of sessions and of calls that do not touch the bridge. -/
def neutral : Event → Bool
  | .supervisor _ | .returned _ _ => true
  | _ => false

/-- Something else happens. -/
theorem Ordered.others (h : Ordered t s) (hothers : Others s s')
    (hfresh : s.threads s.sup.nextWorker=none) (hnew : ∀ e∈new, neutral e=true) :
    Ordered (t++new) s' := by
  have hkept : ∀ w, LoweredFor w t → LoweredFor w (t++new) := by
    intro w hlowered
    refine hlowered.append ?_
    rintro e he (rfl | ⟨c,rfl⟩) <;> cases hnew _ he
  refine ⟨?_,fun w => ?_⟩
  · refine h.law.append ?_
    intro e he front
    have hneutral := hnew e he
    cases e <;> trivial
  · rcases h.lowered w with hlowered | ⟨th,hth,hwill⟩
    · exact .inl (hkept w hlowered)
    · right
      refine ⟨th,?_,hwill⟩
      cases hothers with
      | same hthreads _ => rwa [hthreads]
      | gone w₀ th₀ hth₀ hdone hthreads _ =>
        rw [hthreads]
        have hne : w≠w₀ := by
          rintro rfl
          cases hth₀.symm.trans hth
          rw [hdone] at hwill
          cases hwill
        exact (update_of_ne hne ..).trans hth
      | spawned config hthreads _ =>
        rw [hthreads]
        have hne : w≠s.sup.nextWorker := by
          rintro rfl
          cases hfresh.symm.trans hth
        exact (update_of_ne hne ..).trans hth

/-- What a call does with the bridge. -/
theorem callAdvance_bridge {call : TunCall} {plane : Plane} {call' : Option TunCall}
    {events : List Event} (h : s.callAdvance c error call=some (plane,call',events)) :
    (∀ e∈events, neutral e=true) ∨ (∃ e, events=[.bridgeStopped c,.returned c e]) ∨
      ∃ w live, call=.resumeStart w live ∧ error=none ∧ events=[.bridgeStarted c w] := by
  unfold World.callAdvance at h
  split at h
  case h_1 | h_7 =>
    obtain ⟨p,_,heq⟩ := map_eq_some_iff.mp h
    cases heq
    exact .inl (by simp)
  case h_6 | h_15 =>
    cases h
    exact .inr (.inl ⟨_,rfl⟩)
  case h_12 w live =>
    split at h
    · cases h
      exact .inl (by simp [neutral])
    · cases h
      exact .inr (.inr ⟨w,live,rfl,rfl,rfl⟩)
  all_goals
    left
    repeat' split at h
    all_goals first
      | cases h; done
      | (cases h; simp [neutral])

/-- A call that stops the bridge answers every start. -/
theorem Ordered.stop (h : Ordered t s) (c : ℕ) (e : Option CoreError) (s' : World) :
    Ordered (t++[.bridgeStopped c,.returned c e]) s' := by
  refine ⟨h.law.append (by simp [BridgeLaw]),fun w => .inl ?_⟩
  have hstopped : LoweredFor w (t++[.bridgeStopped c]) :=
    answered_close (.inr ⟨c,rfl⟩) (by rintro (heq | ⟨c',heq⟩) <;> cases heq)
  rw [append_cons]
  exact hstopped.append (by simp [StartsFor])

/-- A call starts the bridge for a session that will stop it. -/
theorem Ordered.start (h : Ordered t s) (c : ℕ) (hth : s.threads w=some th)
    (hwill : willLower th.phase=true) (hthreads : s'.threads=s.threads) :
    Ordered (t++[.bridgeStarted c w]) s' := by
  refine ⟨h.law.concat trivial,fun w' => ?_⟩
  rw [hthreads]
  rcases eq_or_ne w' w with rfl | hne
  · exact .inr ⟨th,hth,hwill⟩
  · rcases h.lowered w' with hlowered | hold
    · refine .inl (hlowered.append ?_)
      intro e he hstarts
      rw [mem_singleton.mp he] at hstarts
      rcases hstarts with heq | ⟨c',heq⟩
      · cases heq
      · exact hne (Event.bridgeStarted.inj heq).2.symm
    · exact .inr hold

/-- A step of a call that pauses or resumes the bridge. -/
theorem Ordered.call (h : Ordered t s) (hsound : TunControl.Sound s)
    (hfresh : s.threads s.sup.nextWorker=none) (hcond : raisedInTime s (.tun c error)=true)
    (hstep : s.callStep c error=some (s',new)) : Ordered (t++new) s' := by
  unfold World.callStep at hstep
  split at hstep
  · cases hstep
  rename_i call hcall
  obtain ⟨⟨plane,call',events⟩,hadvance,heq⟩ := map_eq_some_iff.mp hstep
  cases heq
  rcases callAdvance_bridge hadvance with hneutral | ⟨e,rfl⟩ | ⟨w,live,rfl,rfl,rfl⟩
  · exact h.others (.same rfl le_rfl) hfresh hneutral
  · exact h.stop c e _
  · obtain ⟨live',hlive⟩ := hsound.target c w live hcall
    obtain ⟨th,hth,_⟩ := hsound.live w live' hlive
    refine h.start c hth ?_ rfl
    simpa [raisedInTime,hcall,hth] using hcond

theorem neutral_supervisor (events : List SessionSupervisor.Event) :
    ∀ e∈events.map Event.supervisor, neutral e=true := by
  intro e he
  obtain ⟨e',_,rfl⟩ := mem_map.mp he
  rfl

/-- What is not a step of a thread or a call has nothing to do with the bridge's order. -/
theorem exec_neutral (hexec : s.exec policy a=some (s',new))
    (hthread : ∀ w input, a≠.thread w input) (htun : ∀ c error, a≠.tun c error) :
    ∀ e∈new, neutral e=true := by
  have hsup : ∀ {s₀ : World} {a₀ : SessionSupervisor.Action}, s₀.supOnly a₀=some (s',new) →
      ∀ e∈new, neutral e=true := by
    intro s₀ a₀ h₀
    obtain ⟨⟨sup,events⟩,_,heq⟩ := map_eq_some_iff.mp h₀
    cases heq
    exact neutral_supervisor events
  cases a with
  | thread w input => exact absurd rfl (hthread w input)
  | tun c error => exact absurd rfl (htun c error)
  | callStart c r config | callStop c begins | exit w => exact hsup hexec
  | sup c expired fault lowers =>
    simp only [World.exec,World.supStep] at hexec
    repeat' split at hexec
    all_goals first
      | cases hexec; done
      | (cases hexec; exact neutral_supervisor _)
  | finish w =>
    simp only [World.exec] at hexec
    repeat' split at hexec
    all_goals first
      | exact hsup hexec
      | cases hexec
  | lockStart c =>
    simp only [World.exec] at hexec
    split at hexec
    · obtain ⟨plane,_,heq⟩ := map_eq_some_iff.mp hexec
      cases heq
      simp
    · cases hexec
  | callTun c resume =>
    simp only [World.exec] at hexec
    split at hexec <;> cases hexec
    simp
  | elapse ms =>
    cases hexec
    simp

/-- Every step in time keeps the order. -/
theorem Ordered.exec (h : Ordered t s) (hsound : TunControl.Sound s)
    (hfresh : s.threads s.sup.nextWorker=none) (hcond : raisedInTime s a=true)
    (hexec : s.exec policy a=some (s',new)) : Ordered (t++new) s' := by
  have helse (hthread : ∀ w input, a≠.thread w input) (htun : ∀ c error, a≠.tun c error) :
      Ordered (t++new) s' := by
    rcases exec_threads hexec with ⟨w,input,_,heq⟩ | ⟨hothers,_⟩
    · exact absurd heq (hthread w input)
    · exact h.others hothers hfresh (exec_neutral hexec hthread htun)
  cases a with
  | thread w input => exact h.thread hcond hexec
  | tun c error => exact h.call hsound hfresh hcond hexec
  | _ => exact helse (by simp) (by simp)

end World

/-- In every run without a panic, a session has stopped all it started before its
next attempt and before it returns, and stops the carrier after the exits and after
a bridge that it started itself. If calls start the bridge only for a session that
has not come to stopping its handles, the carrier is stopped after the bridge
whoever started it. -/
theorem teardown_of_run (policy : RetryPolicy) :
    (∀ t s, (machine policy).Run (fun _ _ a => calmAction a=true) t s →
        ∀ w, Guarded TeardownLaw (history w t)) ∧
      ∀ t s, (machine policy).Run (fun _ s a => raisedInTime s a=true) t s →
        Guarded BridgeLaw t := by
  refine ⟨fun t s h w => ?_,fun t s h => ?_⟩
  · have hloops : Loops policy (fun _ _ a => calm a.2=true) t s :=
      loops_of_run (fun _ _ _ _ _ hcalm _ => hcalm) h
    obtain ⟨th,hrun,_⟩ := hloops.run w
    have hsound : Sound (history w t) th := by
      refine loop_invariant Sound ?_ ?_ hrun
      · intro config
        exact ⟨guarded_nil _,by simp,by simp,fun _ => ⟨rfl,rfl⟩,fun _ => rfl,.inl answered_nil⟩
      · intro t th view input th' effect events hsound hcalm hmove
        exact hsound.move hcalm hmove
    exact hsound.law
  · have hall : Loops policy always t s ∧ TunControl.Sound s ∧ Ordered t s := by
      refine h.invariant (fun t s => Loops policy always t s ∧ TunControl.Sound s ∧ Ordered t s)
        ?_ ?_
      · rintro _ ⟨config,rfl⟩
        exact ⟨Loops.initial config,TunControl.Sound.initial config,Ordered.initial config⟩
      · rintro t s a s' new ⟨hloops,hsound,hordered⟩ _ hcond hexec
        have hfresh := (hloops.fresh _ le_rfl).1
        exact ⟨hloops.step (fun _ _ _ _ _ => trivial) hexec,hsound.exec hfresh hexec,
          hordered.exec hsound hfresh hcond hexec⟩
    exact hall.2.2.law

/-- A session is up, paused and resumed, and then stopped. -/
def stoppedActions : List Action :=
  upToBridge++([.thread 0 (.bridgeResult none),.thread 0 .proceed,.callTun 0 false,.tun 0 none,
    .tun 0 none,.tun 0 none,.tun 0 none,.tun 0 none,.tun 0 none,.callTun 1 true,.tun 1 none,
    .tun 1 none,.tun 1 none,.tun 1 none,.tun 1 none,.tun 1 none,.tun 1 none,.tun 1 none,
    .tun 1 none,.tun 1 none,.callStop 1 false,.sup 1 false none false,.sup 1 false none false,
    .sup 1 false none false,.thread 0 .cancelSeen,.thread 0 .proceed,.thread 0 .proceed,
    .thread 0 .proceed,.thread 0 .proceed] : List Action)

/-- The bridge was started by the call, and the session stops it before the carrier. -/
theorem stopped_in_order : ∃ t s, (machine ⟨true,0⟩).Run (fun _ s a => raisedInTime s a=true) t s ∧
      .bridgeStarted 1 0∈t ∧ .thread 0 (.stopped .carrier 0)∈t ∧
      .thread 0 (.returned none)∈t ∧ Guarded BridgeLaw t := by
  obtain ⟨t,s,hrun,hstarted,hstopped,hreturned⟩ := exists_session_run ⟨true,0⟩ tunConfig
    raisedInTime stoppedActions (fun t _ => .bridgeStarted 1 0∈t ∧
      .thread 0 (.stopped .carrier 0)∈t ∧ .thread 0 (.returned none)∈t) (by decide +kernel)
  exact ⟨t,s,hrun,hstarted,hstopped,hreturned,(teardown_of_run ⟨true,0⟩).2 t s hrun⟩

/-- The session cannot start the bridge and is about to stop the carrier; the bridge
is paused and resumed before it does. -/
def lateActions : List Action :=
  upToBridge++([.thread 0 (.bridgeResult (some (.internal "no descriptor"))),.callTun 0 false,
    .tun 0 none,.tun 0 none,.tun 0 none,.tun 0 none,.tun 0 none,.tun 0 none,.callTun 1 true,
    .tun 1 none,.tun 1 none,.tun 1 none,.tun 1 none,.tun 1 none,.tun 1 none,
    .thread 0 .proceed] : List Action)

/-- The carrier is stopped under the bridge. -/
theorem late_resume : ∃ t s, (machine ⟨true,0⟩).Run (fun _ _ a => calmAction a=true) t s ∧
    ¬Guarded BridgeLaw t := by
  obtain ⟨t,s,hrun,hseen⟩ := exists_session_run ⟨true,0⟩ tunConfig (fun _ => calmAction)
    lateActions (fun t _ => t=seenUpToBridge++[.bridgeStopped 0,.returned 0 none,
      .bridgeStarted 1 0]++[.thread 0 (.stopped .carrier 0)]) (by decide +kernel)
  refine ⟨t,s,hrun,fun hlaw => ?_⟩
  have hlowered : LoweredFor 0 _ := hlaw _ (.thread 0 (.stopped .carrier 0)) [] hseen
  obtain ⟨e,he,_⟩ := hlowered (seenUpToBridge++[.bridgeStopped 0,.returned 0 none])
    (.bridgeStarted 1 0) [] rfl (.inr ⟨1,rfl⟩)
  cases he

end MsnGuard.SessionTeardown
