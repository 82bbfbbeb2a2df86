import MsnGuard.SessionLoops

/-!
# When the health of the bridge ends a session

The pump of a session checks the bridge once a second. A tick that finds the lock taken keeps
the count of failures, and a check that passes or a tick that sees the bridge paused or just
changed sets it back.
-/

namespace MsnGuard.HealthTicks

open TransitionRuns Machine SessionThreads List
open SessionEndpoints (RetryPolicy)

variable {n : ℕ} {ticks : List Tick} {t : List ThreadEvent} {th : Thread}

/-- The ticks of the running pump, after one more event. -/
def note (ticks : List Tick) : ThreadEvent → List Tick
  | .pumpStarted => []
  | .ticked tick => ticks++[tick]
  | _ => ticks

/-- The ticks of the pump that was started last. -/
def pumpTicks (t : List ThreadEvent) : List Tick := t.foldl note []

theorem pumpTicks_append (t new : List ThreadEvent) :
    pumpTicks (t++new)=new.foldl note (pumpTicks t) := foldl_append

/-- The last checks, as many as the number says, have failed. Between them, no
tick saw the bridge paused or just changed, and no check passed. -/
def FailedFor (n : ℕ) (ticks : List Tick) : Prop :=
  ∃ before last, ticks=before++last ∧ last.count .failed=n ∧
    ∀ tick∈last, tick=.failed ∨ tick=.busy ∨ tick=.noTun

theorem failedFor_zero (ticks : List Tick) : FailedFor 0 ticks :=
  ⟨ticks,[],(append_nil ticks).symm,rfl,by simp⟩

theorem FailedFor.fail (h : FailedFor n ticks) : FailedFor (n+1) (ticks++[.failed]) := by
  obtain ⟨before,last,rfl,hcount,hlast⟩ := h
  refine ⟨before,last++[.failed],append_assoc ..,?_,?_⟩
  · rw [count_append,hcount,count_singleton_self]
  · intro tick htick
    rcases mem_append.mp htick with hold | hnew
    · exact hlast tick hold
    · exact .inl (mem_singleton.mp hnew)

theorem FailedFor.skip (h : FailedFor n ticks) {tick : Tick} (hskip : tick=.busy ∨ tick=.noTun) :
    FailedFor n (ticks++[tick]) := by
  obtain ⟨before,last,rfl,hcount,hlast⟩ := h
  refine ⟨before,last++[tick],append_assoc ..,?_,?_⟩
  · rw [count_append,hcount]
    rcases hskip with rfl | rfl <;> rfl
  · intro tick' htick
    rcases mem_append.mp htick with hold | hnew
    · exact hlast tick' hold
    · rw [mem_singleton.mp hnew]
      exact .inr hskip

/-- As many failures were among the ticks. -/
theorem FailedFor.le_count (h : FailedFor n ticks) : n≤ticks.count .failed := by
  obtain ⟨before,last,rfl,hcount,_⟩ := h
  rw [count_append,hcount]
  exact Nat.le_add_left ..

/-- The pump ends after enough failures in a row. -/
def PumpLaw (before : List ThreadEvent) : ThreadEvent → Prop
  | .pumpEnded _ => ∃ n, tunHealthFailTicks≤n ∧ FailedFor n (pumpTicks before)
  | _ => True

/-- The count of a session whose pump runs. -/
def unhealthy : Phase → Option ℕ
  | .serving _ _ n | .restarting _ _ n | .dropping _ (.serve _ n) => some n
  | _ => none

/-- The count is that of the history. -/
structure Sound (t : List ThreadEvent) (th : Thread) : Prop where
  law : Guarded PumpLaw t
  count : ∀ n, unhealthy th.phase=some n → FailedFor n (pumpTicks t)

/-- Events that have nothing to do with the pump. -/
def apart : ThreadEvent → Bool
  | .pumpStarted | .ticked _ | .pumpEnded _ => false
  | _ => true

theorem note_apart {e : ThreadEvent} (h : apart e=true) (ticks : List Tick) :
    note ticks e=ticks := by
  cases e <;> first
    | rfl
    | cases h

section Steps

variable {policy : RetryPolicy} {view : View} {t new : List ThreadEvent} {th th' : Thread}

/-- Nothing happens to the pump. -/
theorem Sound.aside (h : Sound t th) (hnew : ∀ e∈new, apart e=true)
    (hcount : ∀ n, unhealthy th'.phase=some n → unhealthy th.phase=some n) :
    Sound (t++new) th' where
  law := by
    refine h.law.append ?_
    intro e he front
    have hapart := hnew e he
    cases e <;> trivial
  count n hn := by
    rw [pumpTicks_append,foldl_eq_self fun e he _ => note_apart (hnew e he) _]
    exact h.count n (hcount n hn)

/-- A session that is not being served has no pump. -/
theorem Sound.idle (h : Sound t th) (hnew : ∀ e∈new, apart e=true)
    (hcount : unhealthy th'.phase=none) : Sound (t++new) th' := by
  refine h.aside hnew (fun n hn => ?_)
  rw [hcount] at hn
  cases hn

theorem unhealthy_quiet {p p' : Phase} (h : Quiet view th p p') {n : ℕ}
    (hn : unhealthy p'=some n) : unhealthy p=some n := by
  cases h <;> first
    | cases hn; done
    | exact hn

/-- A tick counts what it sees. -/
theorem Sound.tick (h : Sound t th) {endpoints : SessionEndpoints.Endpoints} {up : Bool}
    {n n' : ℕ} {tick : Tick} (hphase : th.phase=.serving endpoints up n)
    (hn : (tick=.busy ∨ tick=.noTun) ∧ n'=n ∨ tick=.failed ∧ n'=n+1 ∨
      (tick=.paused ∨ tick=.settling ∨ tick=.healthy) ∧ n'=0) :
    Sound (t++[.ticked tick]) (th.goto (.serving endpoints up n')) where
  law := h.law.concat trivial
  count m hm := by
    have hcount : FailedFor n (pumpTicks t) := h.count n (by rw [hphase]; rfl)
    cases hm
    rw [pumpTicks_append]
    rcases hn with ⟨hskip,rfl⟩ | ⟨rfl,rfl⟩ | ⟨_,rfl⟩
    · exact hcount.skip hskip
    · exact hcount.fail
    · exact failedFor_zero _

/-- Every move of a session keeps the count. -/
theorem Sound.move (h : Sound t th) {input : Input} {effect : Effect}
    (hmove : Moves policy view input th th.phase th' effect new) : Sound (t++new) th' := by
  generalize hphase : th.phase=p at hmove
  cases hmove with
  | quiet hquiet =>
    refine h.aside (by simp) (fun n hn => ?_)
    rw [hphase]
    exact unhealthy_quiet hquiet hn
  | tick endpoints up n n' tick hn => exact h.tick hphase hn
  | pumpEnded endpoints up n e hfull =>
    have hcount : FailedFor n (pumpTicks t) := h.count n (by rw [hphase]; rfl)
    have hticked : Guarded PumpLaw (t++[.ticked .failed]) := h.law.concat trivial
    have hended : PumpLaw (t++[.ticked .failed]) (.pumpEnded e) := by
      refine ⟨n+1,hfull,?_⟩
      rw [pumpTicks_append]
      exact hcount.fail
    refine ⟨?_,nofun⟩
    rw [append_cons]
    exact hticked.concat hended
  | connect endpoints _ =>
    refine ⟨h.law.append (by simp [PumpLaw]),?_⟩
    rintro m ⟨⟩
    exact failedFor_zero _
  | dropExit endpoints n handle _ =>
    refine h.aside (by simp) (fun m hm => ?_)
    rw [hphase]
    exact hm
  | exitDropped handle next =>
    refine h.aside (by simp [apart]) (fun m hm => ?_)
    rw [hphase]
    cases next with
    | serve endpoints n => exact hm
    | fail e => cases hm
  | exitBack endpoints carrier n =>
    refine h.aside (by simp [apart]) (fun m hm => ?_)
    rw [hphase]
    exact hm
  | carrierUp endpoints | exitUp carrier exit =>
    refine h.idle (by simp [apart]) ?_
    simp only [Thread.goto]
    split <;> rfl
  | stopExit next handle _ | stopCarrier next handle _ _ =>
    exact h.idle (by simp [apart]) (by rw [hphase]; rfl)
  | _ => exact h.idle (by simp [apart]) rfl

end Steps

theorem mem_pumpTicks {tick : Tick} (h : tick∈pumpTicks t) : .ticked tick∈t := by
  induction t using reverseRecOn with
  | nil => cases h
  | append_singleton t e ih =>
    rw [pumpTicks_append] at h
    refine mem_append.mpr ?_
    cases e with
    | pumpStarted => cases h
    | ticked tick' =>
      rcases mem_append.mp h with hold | hnew
      · exact .inl (ih hold)
      · rw [mem_singleton.mp hnew]
        exact .inr mem_cons_self
    | _ => exact .inl (ih h)

/-- A pump that never saw a check fail has not ended. -/
theorem Sound.not_pumpEnded (h : Sound t th) (hfailed : .ticked .failed ∉ t)
    (e : SessionSupervisor.CoreError) : .pumpEnded e ∉ t := by
  intro hended
  obtain ⟨front,back,rfl⟩ := append_of_mem hended
  obtain ⟨n,hn,hfailedFor⟩ := h.law front (.pumpEnded e) back rfl
  have hcount : 0<(pumpTicks front).count .failed :=
    lt_of_lt_of_le (by decide) (hn.trans hfailedFor.le_count)
  exact hfailed (mem_append_left _ (mem_pumpTicks (count_pos_iff.mp hcount)))

/-- In every run of sessions, with bridges paused and resumed at any time, the
pump of a session ends its attempt only after enough checks in a row have failed,
with no tick between them that saw the bridge paused or just changed and no check
that passed. A session whose checks do not fail is not ended by its pump, however
often the bridge is paused and resumed. -/
theorem pump_of_run {policy : RetryPolicy} {t : List Event} {s : World}
    (h : (machine policy).Run always t s) (w : ℕ) : Guarded PumpLaw (history w t) ∧
      (.ticked .failed ∉ history w t → ∀ e, .pumpEnded e ∉ history w t) := by
  have hloops : Loops policy always t s := loops_of_run (fun _ _ _ _ _ _ _ => trivial) h
  obtain ⟨th,hrun,_⟩ := hloops.run w
  have hsound : Sound (history w t) th :=
    loop_invariant Sound (fun _ => ⟨guarded_nil _,nofun⟩)
      (fun _ _ _ _ _ _ _ hsound _ hmove => hsound.move hmove) hrun
  exact ⟨hsound.law,hsound.not_pumpEnded⟩

/-- The bridge is up and fails a check, is paused and resumed, fails one more while
it settles, and then as many as it takes. -/
def failingActions : List Action :=
  upToBridge++([.thread 0 (.bridgeResult none),.thread 0 .proceed,.elapse 5000,
    .thread 0 (.tick (some (.internal "down"))),.callTun 0 false,.tun 0 none,.tun 0 none,
    .thread 0 (.tick none),.tun 0 none,.tun 0 none,.tun 0 none,.tun 0 none,.thread 0 (.tick none),
    .callTun 0 true,.tun 0 none,.tun 0 none,.tun 0 none,.tun 0 none,.tun 0 none,.tun 0 none,
    .tun 0 none,.tun 0 none,.tun 0 none,.tun 0 none,
    .thread 0 (.tick (some (.internal "down"))),.elapse 5000,
    .thread 0 (.tick (some (.internal "down"))),.thread 0 (.tick (some (.internal "down"))),
    .thread 0 (.tick (some (.internal "down")))] : List Action)

/-- What the session does in that run. -/
def failingHistory : List ThreadEvent :=
  [.attempt 0,.started .carrier 0,.bridgeStarted,.connected,.pumpStarted,.ticked .failed,
    .ticked .busy,.ticked .paused,.ticked .settling,.ticked .failed,.ticked .failed,
    .ticked .failed,.pumpEnded (.internal "down")]

/-- The pump of that run ends after three failures in a row. -/
theorem failing_pump : ∃ t s, (machine ⟨true,0⟩).Run always t s ∧ history 0 t=failingHistory ∧
    Guarded PumpLaw (history 0 t) := by
  obtain ⟨t,s,hrun,hseen⟩ := exists_session_run ⟨true,0⟩ tunConfig (fun _ _ => true)
    failingActions (fun t _ => history 0 t=failingHistory) (by decide +kernel)
  exact ⟨t,s,hrun.unrestricted,hseen,(pump_of_run hrun.unrestricted 0).1⟩

end MsnGuard.HealthTicks
