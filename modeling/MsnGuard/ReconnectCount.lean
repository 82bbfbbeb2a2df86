import MsnGuard.SessionLoops

/-!
# Counting the attempts of a session

A session makes another attempt when its tunnel drops or does not come up, and gives up after a
number of them. The count is meant to be that of the attempts since the session was last
connected, but the session counts all its attempts.
-/

namespace MsnGuard.ReconnectCount

open TransitionRuns Machine SessionThreads
open SessionEndpoints (RetryPolicy shouldRetry)

/-- The attempts to reconnect since the session was last connected, after one more
event. -/
def note (n : ℕ) : ThreadEvent → ℕ
  | .connected => 0
  | .attempt (_+1) => n+1
  | _ => n

/-- The attempts to reconnect since the session was last connected. -/
def sinceConnected (t : List ThreadEvent) : ℕ := t.foldl note 0

theorem sinceConnected_append (t new : List ThreadEvent) :
    sinceConnected (t++new)=new.foldl note (sinceConnected t) := List.foldl_append

/-- What the count is for: a session gives up after as many attempts in a row have
failed, and the pause before an attempt is the one for its place in the row. -/
def CountLaw (limit : ℕ) (before : List ThreadEvent) : ThreadEvent → Prop
  | .gaveUp => limit ≤ sinceConnected before
  | .backoff secs => secs=backoffSecs (sinceConnected before+1)
  | _ => True

/-- A tunnel that drops while the session is not being stopped is that of the first
attempt. -/
def dropsFirst (view : View) (th : Thread) : Bool :=
  match th.phase with
  | .tearing (.decide _) =>
    th.exit.isSome || th.carrier.isSome || view.cancelled || th.attempt == 0
  | _ => true

/-- The condition in a run of sessions. -/
def firstDrops (s : World) : Action → Bool
  | .thread w _ => (s.threads w).all (dropsFirst (s.view w))
  | _ => true

/-- How far a session is with an attempt. -/
inductive Stage where
  /-- On the way to it. -/
  | ahead
  /-- It is under way and not connected yet. -/
  | under
  /-- It has been connected. -/
  | served
  /-- There is no attempt after it. -/
  | last

/-- The stage of each phase. -/
def stage : Phase → Stage
  | .building | .head | .backingOff => .ahead
  | .dialling | .chaining _ | .raising _ | .publishing _ | .lifting _ | .checking _ => .under
  | .serving _ _ _ | .dropping _ _ | .restarting _ _ _ | .ending _ | .lowering _
  | .tearing (.decide _) => .served
  | _ => .last

/-- The attempts since the session was connected, as its own count has them. -/
def Stage.Counts (attempt since : ℕ) : Stage → Prop
  | .ahead => since=attempt-1
  | .under => since=attempt
  | .served => since=0
  | .last => True

/-- The count of a session goes with its history. -/
structure Sound (limit : ℕ) (t : List ThreadEvent) (th : Thread) : Prop where
  law : Guarded (CountLaw limit) t
  counts : (stage th.phase).Counts th.attempt (sinceConnected t)

/-- Events that do not count. -/
def apart : ThreadEvent → Bool
  | .connected | .attempt _ | .gaveUp | .backoff _ => false
  | _ => true

theorem note_apart {e : ThreadEvent} (h : apart e=true) (n : ℕ) : note n e=n := by
  cases e <;> first
    | rfl
    | cases h

section Steps

variable {policy : RetryPolicy} {view : View} {input : Input} {limit : ℕ}
  {t new : List ThreadEvent} {th th' : Thread}

/-- The count stays, and so does what it has to be. -/
theorem Sound.pass (h : Sound limit t th) (hnew : ∀ e∈new, apart e=true)
    (hattempt : th'.attempt=th.attempt)
    (hstage : stage th'.phase=stage th.phase ∨ stage th'.phase=.last) :
    Sound limit (t++new) th' where
  law := by
    refine h.law.append ?_
    intro e he front
    have hapart := hnew e he
    cases e <;> trivial
  counts := by
    rw [sinceConnected_append,foldl_eq_self (fun e he _ => note_apart (hnew e he) _),hattempt]
    rcases hstage with hsame | hlast
    · rw [hsame]
      exact h.counts
    · rw [hlast]
      trivial

theorem stage_quiet {p p' : Phase} (h : Quiet view th p p') :
    stage p'=stage p ∨ stage p'=.last := by
  cases h <;> first
    | exact .inl rfl
    | exact .inr rfl

/-- An attempt begins. -/
theorem Sound.attempt (h : Sound limit t th) (hphase : th.phase=.head) :
    Sound limit (t++[.attempt th.attempt]) (th.goto .dialling) where
  law := h.law.concat trivial
  counts := by
    have hcounts := h.counts
    rw [hphase] at hcounts
    have hsince : sinceConnected t=th.attempt-1 := hcounts
    change sinceConnected (t++[.attempt th.attempt])=th.attempt
    rw [sinceConnected_append,hsince]
    cases th.attempt with
    | zero | succ n => rfl

/-- What comes before an attempt that follows another. -/
theorem Sound.since_eq (h : Sound limit t th)
    (hp : th.phase=.dialling ∨
      (∃ outcome, th.phase=.tearing (.decide outcome)) ∧ th.exit=none ∧ th.carrier=none)
    (hcancelled : view.cancelled=false) (hdrops : dropsFirst view th=true) :
    sinceConnected t=th.attempt := by
  have hcounts := h.counts
  rcases hp with hphase | ⟨⟨outcome,hphase⟩,hexit,hcarrier⟩
  · rw [hphase] at hcounts
    exact hcounts
  · have hfirst : th.attempt=0 := by
      simpa [dropsFirst,hphase,hexit,hcarrier,hcancelled] using hdrops
    rw [hphase] at hcounts
    rw [hfirst]
    exact hcounts

/-- Every move of a session keeps the count. -/
theorem Sound.move (h : Sound policy.maxReconnects t th) (hauto : policy.autoReconnect=true)
    (hmax : 0<policy.maxReconnects)
    (hdrops : dropsFirst view th=true) {effect : Effect}
    (hmove : Moves policy view input th th.phase th' effect new) :
    Sound policy.maxReconnects (t++new) th' := by
  generalize hphase : th.phase=p at hmove
  cases hmove with
  | quiet hquiet => exact h.pass (by simp) rfl (hphase ▸ stage_quiet hquiet)
  | attempt _ => exact h.attempt hphase
  | redial hp hcancelled =>
    have hsince := h.since_eq (hphase ▸ hp) hcancelled hdrops
    refine ⟨h.law.concat ?_,?_⟩
    · change backoffSecs (th.attempt+1)=backoffSecs (sinceConnected t+1)
      rw [hsince]
    · change sinceConnected (t++[_])=th.attempt+1-1
      rw [sinceConnected_append,hsince]
      rfl
  | giveUp outcome hp hcancelled hretry =>
    have hsince := h.since_eq (hphase ▸ hp) hcancelled hdrops
    refine ⟨h.law.concat ?_,trivial⟩
    change policy.maxReconnects ≤ sinceConnected t
    rw [hsince]
    simpa [shouldRetry,hauto,hmax.ne'] using hretry
  | connect endpoints _ | exitBack endpoints carrier n =>
    refine ⟨h.law.append (by simp [CountLaw]),?_⟩
    rw [sinceConnected_append]
    rfl
  | carrierUp endpoints =>
    refine h.pass (by simp [apart]) rfl (.inl ?_)
    rw [hphase]
    simp only [Thread.goto]
    split <;> rfl
  | exitUp carrier exit =>
    refine h.pass (by simp [apart]) rfl ?_
    rw [hphase]
    simp only [Thread.goto]
    split
    · exact .inr rfl
    · exact .inl rfl
  | exitDropped handle next =>
    refine h.pass (by simp [apart]) rfl (.inl ?_)
    rw [hphase]
    cases next <;> rfl
  | stopExit next handle _ => exact h.pass (by simp [apart]) rfl (.inl rfl)
  | stopCarrier next handle _ _ => exact h.pass (by simp [apart]) rfl (.inl rfl)
  | publish endpoints | unlock endpoints | raise endpoints | tick endpoints up n n' tick hn
  | pumpEnded endpoints up n e hfull | dropExit endpoints n handle _
  | exitMoved endpoints carrier n e | withdraw outcome | lower outcome =>
    exact h.pass (by simp [apart]) rfl (.inl (by rw [hphase]; rfl))
  | raiseFailed endpoints e | cancel | leave outcome | unwound | close | panic _ =>
    exact h.pass (by simp [apart]) rfl (.inr rfl)

end Steps

/-- A session is up and its tunnel drops. -/
def dropped : List Action :=
  [.thread 0 (.bridgeResult none),.thread 0 .proceed,.thread 0 (.carrierEnded none ""),
    .thread 0 .proceed,.thread 0 .proceed,.thread 0 .proceed,.thread 0 .proceed]

/-- The session reconnects, and its tunnel is up to the bridge again. -/
def reconnected : List Action :=
  [.thread 0 .slept,.thread 0 .proceed,
    .thread 0 (.backendUp (SessionEndpoints.localEndpoints 1819)),.thread 0 .proceed,
    .thread 0 .proceed]

/-- What the session does until the second tunnel has dropped. -/
def droppedTwice : List ThreadEvent :=
  [.attempt 0,.started .carrier 0,.bridgeStarted,.connected,.pumpStarted,.bridgeStopped,
    .stopped .carrier 0,.backoff 2,.attempt 1,.started .carrier 1,.bridgeStarted,.connected,
    .pumpStarted,.bridgeStopped,.stopped .carrier 1]

end MsnGuard.ReconnectCount
