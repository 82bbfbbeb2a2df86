import MsnGuard.SessionThreads

/-!
# What the thread of a session can do

Every step of the thread of a session is one of a few moves. Most only lead from
one phase to another; the others start or stop something, change the data plane
or count. Properties of the thread are shown move by move.
-/

namespace MsnGuard.SessionThreads

open SessionSupervisor (CoreError)
open SessionEndpoints (Endpoints RetryPolicy shouldRetry)

/-- Moves from one phase to another that nobody sees. -/
inductive Quiet (view : View) (th : Thread) : Phase → Phase → Prop
  | built : Quiet view th .building .head
  | unbuilt : Quiet view th .building .done
  | stoppedAtHead : view.cancelled=true → Quiet view th .head (.returning none)
  | stoppedDialling : view.cancelled=true → Quiet view th .dialling (.returning none)
  | stoppedWaiting : view.cancelled=true → Quiet view th .backingOff (.returning none)
  | refused (e : CoreError) : Quiet view th .dialling (.returning (some e))
  | unchained (carrier : Endpoints) (e : CoreError) :
      Quiet view th (.chaining carrier) (.tearing (.leaveUnlessCancelled e))
  | lift (endpoints : Endpoints) : view.paused=false →
      Quiet view th (.publishing endpoints) (.lifting endpoints)
  | stoppedChecking (endpoints : Endpoints) : view.cancelled=true →
      Quiet view th (.checking endpoints) .cancelling
  | stoppedServing (endpoints : Endpoints) (up : Bool) (n : ℕ) : view.cancelled=true →
      Quiet view th (.serving endpoints up n) .cancelling
  | stoppedRestarting (endpoints carrier : Endpoints) (n : ℕ) : view.cancelled=true →
      Quiet view th (.restarting endpoints carrier n) .cancelling
  | ended (endpoints : Endpoints) (up : Bool) (n : ℕ) (outcome : Option CoreError) :
      Quiet view th (.serving endpoints up n) (.ending outcome)
  | endedRestarting (endpoints carrier : Endpoints) (n : ℕ) (outcome : Option CoreError) :
      Quiet view th (.restarting endpoints carrier n) (.ending outcome)
  | carrierLost (endpoints : Endpoints) (n : ℕ) : th.exit=none →
      Quiet view th (.serving endpoints true n) (.serving endpoints false n)
  | carrierBack (endpoints carrier : Endpoints) (n : ℕ) :
      Quiet view th (.serving endpoints false n) (.restarting endpoints carrier n)
  | slept : Quiet view th .backingOff .head
  | left (next : Next) (outcome : Option CoreError) : th.exit=none → th.carrier=none →
      Quiet view th (.tearing next) (.returning outcome)
  | drained : Quiet view th .draining .done

/-- The moves of a thread that is in a phase. -/
inductive Moves (policy : RetryPolicy) (view : View) (input : Input) (th : Thread) :
    Phase → Thread → Effect → List ThreadEvent → Prop
  | quiet {p p' : Phase} : Quiet view th p p' → Moves policy view input th p (th.goto p') .none []
  | attempt : view.cancelled=false →
      Moves policy view input th .head (th.goto .dialling) .none [.attempt th.attempt]
  | carrierUp (endpoints : Endpoints) : Moves policy view input th .dialling
      (th.obtainCarrier.goto
        (if th.config.chained then .chaining endpoints else .raising endpoints))
      .none [.started .carrier th.nextHandle]
  | redial {p : Phase} : p=.dialling ∨
        (∃ outcome, p=.tearing (.decide outcome)) ∧ th.exit=none ∧ th.carrier=none →
      view.cancelled=false →
      Moves policy view input th p {th with attempt := th.attempt+1, phase := .backingOff}
        .none [.backoff (backoffSecs (th.attempt+1))]
  | giveUp {p : Phase} (outcome : Option CoreError) : p=.dialling ∨
        (∃ outcome, p=.tearing (.decide outcome)) ∧ th.exit=none ∧ th.carrier=none →
      view.cancelled=false → shouldRetry policy th.attempt false=false →
      Moves policy view input th p (th.goto (.returning outcome)) .none [.gaveUp]
  | exitUp (carrier exit : Endpoints) : Moves policy view input th (.chaining carrier)
      ((th.obtainExit true).goto
        (if exit.socks=none then
          .tearing (.leave (some (.startFailed "Psiphon exit has no SOCKS endpoint")))
        else .raising {exit with peerIp := carrier.peerIp}))
      .none [.started .exit th.nextHandle]
  | publish (endpoints : Endpoints) : Moves policy view input th (.raising endpoints)
      (th.goto (.publishing endpoints)) (.publish ⟨th.config,endpoints⟩) []
  | unlock (endpoints : Endpoints) :
      Moves policy view input th (.publishing endpoints) (th.goto (.checking endpoints)) .unlock []
  | raise (endpoints : Endpoints) : Moves policy view input th (.lifting endpoints)
      (th.goto (.checking endpoints)) .raise [.bridgeStarted]
  | raiseFailed (endpoints : Endpoints) (e : CoreError) :
      Moves policy view input th (.lifting endpoints)
      (th.goto (.tearing (.leave (some e)))) .raiseFailed []
  | connect (endpoints : Endpoints) : view.cancelled=false →
      Moves policy view input th (.checking endpoints) (th.goto (.serving endpoints true 0)) .none
        [.connected,.pumpStarted]
  | tick (endpoints : Endpoints) (up : Bool) (n n' : ℕ) (tick : Tick) :
      (tick=.busy ∨ tick=.noTun) ∧ n'=n ∨ tick=.failed ∧ n'=n+1 ∨
        (tick=.paused ∨ tick=.settling ∨ tick=.healthy) ∧ n'=0 →
      Moves policy view input th (.serving endpoints up n) (th.goto (.serving endpoints up n')) .none
        [.ticked tick]
  | pumpEnded (endpoints : Endpoints) (up : Bool) (n : ℕ) (e : CoreError) :
      tunHealthFailTicks≤n+1 →
      Moves policy view input th (.serving endpoints up n) (th.goto (.ending (some e))) .none
        [.ticked .failed,.pumpEnded e]
  | dropExit (endpoints : Endpoints) (n h : ℕ) : th.exit=some h →
      Moves policy view input th (.serving endpoints true n)
        {th with exit := none, phase := .dropping h (.serve endpoints n)} .none []
  | exitDropped (h : ℕ) (next : AfterExit) : Moves policy view input th (.dropping h next)
      (th.goto (match next with
        | .serve endpoints n => .serving endpoints false n
        | .fail e => .ending (some e))) .none [.stopped .exit h]
  | exitBack (endpoints carrier : Endpoints) (n : ℕ) :
      Moves policy view input th (.restarting endpoints carrier n)
        ((th.obtainExit true).goto (.serving endpoints true n)) .none
        [.started .exit th.nextHandle,.connected]
  | exitMoved (endpoints carrier : Endpoints) (n : ℕ) (e : CoreError) :
      Moves policy view input th (.restarting endpoints carrier n)
        ((th.obtainExit false).goto (.dropping th.nextHandle (.fail e))) .none
        [.started .exit th.nextHandle]
  | cancel : Moves policy view input th .cancelling (th.goto (.tearing (.leave none))) .lower
      [.bridgeStopped]
  | withdraw (outcome : Option CoreError) : Moves policy view input th (.ending outcome)
      (th.goto (.lowering outcome)) .withdraw []
  | lower (outcome : Option CoreError) : Moves policy view input th (.lowering outcome)
      (th.goto (.tearing (.decide outcome))) .lowerUnlock [.bridgeStopped]
  | stopExit (next : Next) (h : ℕ) : th.exit=some h →
      Moves policy view input th (.tearing next) {th with exit := none} .none [.stopped .exit h]
  | stopCarrier (next : Next) (h : ℕ) : th.exit=none → th.carrier=some h →
      Moves policy view input th (.tearing next) {th with carrier := none} .none
        [.stopped .carrier h]
  | leave (outcome : Option CoreError) : Moves policy view input th (.returning outcome)
      (th.goto .closing) .retire [.returned outcome]
  | unwound : Moves policy view input th .unwinding (th.goto .closing) .retire []
  | close : Moves policy view input th .closing (th.goto .draining) .lower [.bridgeStopped]
  | panic {p : Phase} : input=.panic → Moves policy view input th p (th.goto .unwinding) .abandon []

/-- A step that is one of the moves. -/
def IsMove (policy : RetryPolicy) (view : View) (input : Input) (th : Thread) (p : Phase)
    (outcome : Thread.Outcome) : Prop :=
  Moves policy view input th p outcome.1 outcome.2.1 outcome.2.2

section Inversion

variable {policy : RetryPolicy} {view : View} {input : Input} {th : Thread}

theorem shouldRetry_cancelled {attempt : ℕ} {cancelled : Bool}
    (h : shouldRetry policy attempt cancelled=true) : cancelled=false := by
  cases cancelled with
  | false => rfl
  | true => simp [shouldRetry] at h

/-- The end of an attempt that may be followed by another. -/
theorem isMove_retry {p : Phase} (outcome : Option CoreError)
    (hp : p=.dialling ∨ (∃ outcome, p=.tearing (.decide outcome)) ∧ th.exit=none ∧ th.carrier=none)
    (hquiet : Quiet view th p (.returning outcome)) :
    IsMove policy view input th p (th.retry policy view.cancelled outcome) := by
  unfold Thread.retry
  split
  · rename_i hretry
    exact .redial hp (shouldRetry_cancelled hretry)
  · rename_i hretry
    cases hcancelled : view.cancelled with
    | true => exact .quiet hquiet
    | false =>
      rw [hcancelled,Bool.not_eq_true] at hretry
      exact .giveUp outcome hp hcancelled hretry

theorem isMove_tearDown (next : Next) :
    IsMove policy view input th (.tearing next) (th.tearDown policy view.cancelled next) := by
  unfold Thread.tearDown
  split
  · rename_i h hexit
    exact .stopExit next h hexit
  · rename_i h hexit hcarrier
    exact .stopCarrier next h hexit hcarrier
  · rename_i hexit hcarrier
    have hleft : ∀ outcome, Quiet view th (.tearing next) (.returning outcome) :=
      fun outcome => .left next outcome hexit hcarrier
    cases next with
    | leave outcome => exact .quiet (hleft outcome)
    | leaveUnlessCancelled e => exact .quiet (hleft _)
    | decide outcome =>
      simp only [Thread.settle]
      split
      · exact .quiet (hleft none)
      · exact isMove_retry outcome (.inr ⟨⟨outcome,rfl⟩,hexit,hcarrier⟩) (hleft outcome)

theorem isMove_chain (carrier : Endpoints) (result : Except CoreError Endpoints) :
    IsMove policy view input th (.chaining carrier) (th.chain carrier result) := by
  unfold Thread.chain
  split
  · rename_i e _
    exact .quiet (.unchained carrier e)
  · rename_i exit _
    exact .exitUp carrier exit

theorem isMove_rechain (endpoints carrier : Endpoints) (n : ℕ)
    (result : Except CoreError Endpoints) :
    IsMove policy view input th (.restarting endpoints carrier n)
      (th.rechain endpoints carrier n result) := by
  unfold Thread.rechain
  split
  · rename_i e _
    exact .quiet (.endedRestarting endpoints carrier n (some e))
  · split
    · exact .exitBack endpoints carrier n
    · exact .exitMoved endpoints carrier n _

theorem isMove_carrierTurned (endpoints carrier : Endpoints) (up : Bool) (n : ℕ) :
    IsMove policy view input th (.serving endpoints up n)
      (th.carrierTurned endpoints carrier up n) := by
  unfold Thread.carrierTurned
  cases up with
  | false => exact .quiet (.carrierBack endpoints carrier n)
  | true =>
    simp only [if_true]
    split
    · rename_i h hexit
      exact .dropExit endpoints n h hexit
    · rename_i hexit
      exact .quiet (.carrierLost endpoints n hexit)

/-- A tick counts a failed check, keeps the count or sets it back. -/
theorem isMove_pump (endpoints : Endpoints) (up : Bool) (n : ℕ) (health : Option CoreError) :
    IsMove policy view input th (.serving endpoints up n) (th.pump view endpoints up n health) := by
  simp only [Thread.pump]
  split
  · exact .tick endpoints up n n .busy (.inl ⟨.inl rfl,rfl⟩)
  split
  · exact .tick endpoints up n n .noTun (.inl ⟨.inr rfl,rfl⟩)
  split
  · refine .tick endpoints up n 0 _ (.inr (.inr ⟨?_,rfl⟩))
    split
    · exact .inl rfl
    · exact .inr (.inl rfl)
  cases health with
  | none => exact .tick endpoints up n 0 .healthy (.inr (.inr ⟨.inr (.inr rfl),rfl⟩))
  | some e =>
    simp only []
    split
    · rename_i hfull
      exact .pumpEnded endpoints up n e hfull
    · exact .tick endpoints up n (n+1) .failed (.inr (.inl ⟨rfl,rfl⟩))

/-- Every step of a thread is one of the moves. -/
theorem advance_moves {p : Phase} {outcome : Thread.Outcome}
    (h : th.advance policy view p input=some outcome) : IsMove policy view input th p outcome := by
  have hnone {o : Thread.Outcome} (hcancelled : (if view.cancelled then some o else none)=
      some outcome) : view.cancelled=true ∧ o=outcome := by
    split_ifs at hcancelled with hc
    exact ⟨hc,Option.some.inj hcancelled⟩
  unfold Thread.advance at h
  split at h
  · cases h
    exact .quiet .built
  · cases h
    exact .quiet .unbuilt
  · split at h
    · rename_i hcancelled
      cases h
      exact .quiet (.stoppedAtHead hcancelled)
    · rename_i hcancelled
      cases h
      exact .attempt (Bool.not_eq_true _ ▸ hcancelled)
  · obtain ⟨hcancelled,rfl⟩ := hnone h
    exact .quiet (.stoppedDialling hcancelled)
  · obtain ⟨hcancelled,rfl⟩ := hnone h
    exact .quiet (.stoppedWaiting hcancelled)
  · rename_i endpoints
    cases h
    exact .carrierUp endpoints
  · rename_i e
    split at h
    · cases h
      exact isMove_retry (some e) (.inl rfl) (.refused e)
    · cases h
      exact .quiet (.refused e)
  · cases h
    exact .quiet (.unchained _ _)
  · cases h
    exact isMove_chain _ _
  · cases h
    exact .publish _
  · rename_i endpoints
    split at h
    · rename_i hraise
      cases h
      simp only [Bool.and_eq_true,Bool.not_eq_true'] at hraise
      exact .quiet (.lift endpoints hraise.2)
    · cases h
      exact .unlock endpoints
  · cases h
    exact .raise _
  · cases h
    exact .raiseFailed _ _
  · rename_i endpoints
    split at h
    · rename_i hcancelled
      cases h
      exact .quiet (.stoppedChecking endpoints hcancelled)
    · rename_i hcancelled
      cases h
      exact .connect endpoints (Bool.not_eq_true _ ▸ hcancelled)
  · obtain ⟨hcancelled,rfl⟩ := hnone h
    exact .quiet (.stoppedServing _ _ _ hcancelled)
  · obtain ⟨hcancelled,rfl⟩ := hnone h
    exact .quiet (.stoppedRestarting _ _ _ hcancelled)
  · cases h
    exact .quiet (.ended _ _ _ _)
  · cases h
    exact .quiet (.endedRestarting _ _ _ _)
  · split_ifs at h
    cases h
    exact .quiet (.ended _ _ _ _)
  · split_ifs at h
    cases h
    exact isMove_carrierTurned _ _ _ _
  · cases h
    exact isMove_pump _ _ _ _
  · cases h
    exact .exitDropped _ (.serve _ _)
  · cases h
    exact .exitDropped _ (.fail _)
  · cases h
    exact isMove_rechain _ _ _ _
  · cases h
    exact .cancel
  · cases h
    exact .withdraw _
  · cases h
    exact .lower _
  · cases h
    exact isMove_tearDown _
  · cases h
    exact .quiet .slept
  · cases h
    exact .leave _
  · cases h
    exact .unwound
  · cases h
    exact .close
  · cases h
    exact .quiet .drained
  · split at h
    all_goals first
      | cases h; done
      | cases h; exact .panic rfl
  · cases h

end Inversion

/-- What a new session has and every move keeps holds along the runs of its loop. -/
theorem loop_invariant {policy : RetryPolicy}
    {cond : List ThreadEvent → Thread → View × Input → Prop}
    (inv : List ThreadEvent → Thread → Prop) (hstart : ∀ config, inv [] (Thread.new config))
    (hmove : ∀ t th view input th' effect events, inv t th → cond t th (view,input) →
      Moves policy view input th th.phase th' effect events → inv (t++events) th')
    {t : List ThreadEvent} {th : Thread} (h : (loop policy).Run cond t th) : inv t th := by
  refine h.invariant inv ?_ ?_
  · rintro _ ⟨config,rfl⟩
    exact hstart config
  · rintro t th ⟨view,input⟩ th' events hinv _ hc hexec
    obtain ⟨⟨next,effect,new⟩,hadvance,heq⟩ := Option.map_eq_some_iff.mp hexec
    obtain ⟨rfl,rfl⟩ := Prod.mk.inj heq
    exact hmove t th view input next effect new hinv hc (advance_moves hadvance)

end MsnGuard.SessionThreads
