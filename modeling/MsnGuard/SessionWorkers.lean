import MsnGuard.FiniteTables
import MsnGuard.SessionSupervisor

/-!
# One session worker at a time

The worker of a session is in the slot, or with the call that took it out, or lost with a reaper
that could not be spawned. Each state of the worker tells who holds the lock and what the slot
and the flag are, and every step of a call leads from one state to the next.
-/

namespace MsnGuard.SessionWorkers

open TransitionRuns FiniteTables SoleRoles SessionSupervisor List Option Function

/-- What a call has to do with the worker. -/
inductive Role where
  | idle
  | opening
  | reaping (w : ℕ)
  | spawning
  | beginning (w : ℕ)
  | taking (w : ℕ)
  /-- A stop with the worker; is the abort of the bridge still due? -/
  | leaving (w : ℕ) (due : Bool)

instance : Inhabited Role := ⟨.idle⟩

/-- The part of a call. -/
def roleOf : Call → Role
  | .starting _ | .beginning | .stopping => .idle
  | .opening _ => .opening
  | .reaping _ w => .reaping w
  | .spawning _ => .spawning
  | .beginAborting w => .beginning w
  | .taking w => .taking w
  | .cancelling w alreadyStopping => .leaving w (!alreadyStopping)
  | .aborting w => .leaving w true
  | .deciding w | .joining w _ | .clearing w _ => .leaving w false

/-- The state of the one worker, with the call that has it in hand. -/
inductive Stage where
  | vacant
  | opening (c : ℕ) (old : Option ℕ)
  | reaping (c w : ℕ)
  | spawning (c : ℕ)
  | resident (w : ℕ) (aborted : Bool)
  | beginning (c w : ℕ)
  | taking (c w : ℕ) (aborted : Bool)
  | leaving (c w : ℕ) (due : Bool)
  /-- The worker is lost with a reaper that could not be spawned. -/
  | stuck (w : ℕ)

namespace Stage

/-- Who holds the lock. -/
def lock : Stage → Option ℕ
  | .opening c _ | .reaping c _ | .spawning c | .beginning c _ | .taking c _ _ => some c
  | .vacant | .resident _ _ | .leaving _ _ _ | .stuck _ => none

/-- The slot. -/
def running : Stage → Option ℕ
  | .opening _ old => old
  | .reaping _ w | .resident w _ | .beginning _ w => some w
  | .vacant | .spawning _ | .taking _ _ _ | .leaving _ _ _ | .stuck _ => none

/-- The flag. -/
def stopping : Stage → Bool
  | .vacant | .opening _ _ | .reaping _ _ | .spawning _ => false
  | .resident _ aborted | .taking _ _ aborted => aborted
  | .beginning _ _ | .leaving _ _ _ | .stuck _ => true

/-- The worker that may be there. -/
def worker : Stage → Option ℕ
  | .opening _ old => old
  | .reaping _ w | .resident w _ | .beginning _ w | .taking _ w _ | .leaving _ w _ | .stuck w => some w
  | .vacant | .spawning _ => none

/-- Was the bridge told to abort for this worker? -/
def aborted : Stage → Bool
  | .vacant | .opening _ _ | .reaping _ _ | .spawning _ | .beginning _ _ => false
  | .resident _ aborted | .taking _ _ aborted => aborted
  | .leaving _ _ due => !due
  | .stuck _ => true

/-- The call that has the worker or the lock in hand, and its part. -/
def hand : Stage → Option (ℕ × Role)
  | .vacant | .resident _ _ | .stuck _ => none
  | .opening c _ => some (c,.opening)
  | .reaping c w => some (c,.reaping w)
  | .spawning c => some (c,.spawning)
  | .beginning c w => some (c,.beginning w)
  | .taking c w _ => some (c,.taking w)
  | .leaving c w due => some (c,.leaving w due)

/-- The parts of the calls. -/
def role (stage : Stage) : ℕ → Role := inHand stage.hand

variable {stage : Stage} {w : ℕ}

/-- The lock and the flag are clear: nobody is at work. -/
theorem eq_clear (hlock : stage.lock=none) (hstopping : stage.stopping=false) :
    stage=.vacant ∨ ∃ w, stage=.resident w false := by
  cases stage with
  | vacant => exact .inl rfl
  | resident w aborted =>
    obtain rfl : aborted=false := hstopping
    exact .inr ⟨w,rfl⟩
  | opening _ _ | reaping _ _ | spawning _ | beginning _ _ | taking _ _ _ => cases hlock
  | leaving _ _ _ | stuck _ => cases hstopping

/-- The lock is clear and there is a worker in the slot. -/
theorem eq_resident (hlock : stage.lock=none) (hrunning : stage.running=some w) :
    stage=.resident w stage.stopping := by
  cases stage with
  | resident w' aborted =>
    cases hrunning
    rfl
  | opening _ _ | reaping _ _ | spawning _ | beginning _ _ | taking _ _ _ => cases hlock
  | vacant | leaving _ _ _ | stuck _ => cases hrunning

end Stage

/-- What a worker that goes on adds to the history. -/
def exits (w : ℕ) (y : Worker) : List Event := if y=.exited then [.exited w] else []

/-- What the history tells about the workers. -/
structure Ledger (t : List Event) (nextWorker : ℕ) (workers : ℕ → Option Worker) : Prop where
  /-- Every worker was spawned. -/
  spawned : ∀ w, .spawned w∈t ↔ (workers w).isSome
  /-- The exits of workers are in the history. -/
  exited : ∀ w, .exited w∈t ↔ workers w=some .exited
  /-- Numbers are not used twice. -/
  fresh : ∀ w, nextWorker≤w → workers w=none
  /-- Spawning and clearing the flag waited for all workers before. -/
  in_turn : Guarded InTurn t

/-- How often the bridge was told to abort. -/
structure Aborts (t : List Event) (stage : Stage) : Prop where
  /-- For the worker that is there. -/
  current : ∀ w, stage.worker=some w → t.count (.aborted w)=if stage.aborted then 1 else 0
  /-- For all workers. -/
  once : ∀ w, t.count (.aborted w)≤1
  /-- Not before a worker is spawned. -/
  fresh : ∀ w, .spawned w ∉ t → t.count (.aborted w)=0

/-- The supervisor is in a state of its one worker. -/
structure Sound (t : List Event) (s : Supervisor) (stage : Stage) : Prop where
  lock : s.lock=stage.lock
  running : s.running=stage.running
  stopping : s.stopping=stage.stopping
  /-- The calls have their parts. -/
  roles : parts roleOf s.calls=stage.role
  /-- No other worker is there. -/
  alive : ∀ w, s.Alive w → stage.worker=some w
  /-- The worker is known. -/
  worker : ∀ w, stage.worker=some w → (s.workers w).isSome
  /-- The flag is cleared after the worker has exited. -/
  clearing : ∀ c w b, s.calls c=some (.clearing w b) → s.workers w=some .exited
  ledger : Ledger t s.nextWorker s.workers
  aborts : Aborts t stage

namespace Ledger

variable {t : List Event} {nextWorker : ℕ} {workers : ℕ → Option Worker}

section

variable (h : Ledger t nextWorker workers)

include h

/-- An event that is not about the lives of workers. -/
theorem quiet {e : Event}
    (he : ∀ w, e≠.spawned w ∧ e≠.exited w ∧ e≠.cleared w) :
    Ledger (t++[e]) nextWorker workers where
  spawned w := by
    have hne := (he w).1.symm
    simpa [hne] using h.spawned w
  exited w := by
    have hne := (he w).2.1.symm
    simpa [hne] using h.exited w
  fresh := h.fresh
  in_turn := by
    refine h.in_turn.concat ?_
    cases e with
    | spawned w => exact absurd rfl (he w).1
    | cleared w => exact absurd rfl (he w).2.2
    | exited _ | aborted _ | returned _ _ => trivial

/-- The flag is cleared when all workers have exited. -/
theorem clear (w : ℕ) (hall : AllExited t) :
    Ledger (t++[.cleared w]) nextWorker workers where
  spawned := by simpa using h.spawned
  exited := by simpa using h.exited
  fresh := h.fresh
  in_turn := h.in_turn.concat hall

/-- A new worker when all others have exited. -/
theorem spawn (hall : AllExited t) :
    Ledger (t++[.spawned nextWorker]) (nextWorker+1)
      (update workers nextWorker (some (.running false))) where
  spawned w := by
    rcases eq_or_ne w nextWorker with rfl | hne
    · simp
    · simpa [hne] using h.spawned w
  exited w := by
    rcases eq_or_ne w nextWorker with rfl | hne
    · have hold := (h.exited w).not.mpr (by simp [h.fresh w le_rfl])
      simpa using hold
    · simpa [hne] using h.exited w
  fresh w hw := by
    have hne : w≠nextWorker := by omega
    rw [update_of_ne hne]
    exact h.fresh w (by omega)
  in_turn := h.in_turn.concat hall

/-- A worker that has not exited goes on, and may exit. -/
theorem put {w : ℕ} {x : Worker} (hw : workers w=some x) (hx : x≠.exited) (y : Worker) :
    Ledger (t++exits w y) nextWorker (update workers w (some y)) where
  spawned w' := by
    rcases eq_or_ne w' w with rfl | hne
    · simpa [hw,exits] using h.spawned w'
    · simpa [hne,exits] using h.spawned w'
  exited w' := by
    rcases eq_or_ne w' w with rfl | hne
    · have hold := (h.exited w').not.mpr (by simp [hw,hx])
      simp [exits,hold]
    · simpa [hne,exits] using h.exited w'
  fresh w' hw' := by
    have hne : w'≠w := by
      rintro rfl
      cases hw.symm.trans (h.fresh w' hw')
    rw [update_of_ne hne,h.fresh w' hw']
  in_turn := h.in_turn.append (by simp [exits,InTurn])

end

end Ledger

namespace Aborts

variable {t : List Event} {stage stage' : Stage}

/-- The worker goes to another hand, or away. -/
theorem pass (h : Aborts t stage) (hsame : ∀ w, stage'.worker=some w →
    stage.worker=some w ∧ stage'.aborted=stage.aborted) : Aborts t stage' where
  __ := h
  current w hw := by
    obtain ⟨hold,haborted⟩ := hsame w hw
    rw [haborted]
    exact h.current w hold

/-- Events that are no abort. -/
theorem quiet (h : Aborts t stage) {new : List Event} (hnew : ∀ w, .aborted w ∉ new) :
    Aborts (t++new) stage := by
  have hcount : ∀ w, (t++new).count (.aborted w)=t.count (.aborted w) := by
    intro w
    rw [count_append,count_eq_zero_of_not_mem (hnew w),Nat.add_zero]
  constructor
  · intro w hw
    rw [hcount]
    exact h.current w hw
  · intro w
    rw [hcount]
    exact h.once w
  · intro w hw
    rw [hcount]
    exact h.fresh w fun hold => hw (mem_append_left _ hold)

/-- The bridge is told to abort for the worker that is there. -/
theorem abort (h : Aborts t stage) {w : ℕ} (hw : stage.worker=some w)
    (hbefore : stage.aborted=false) (hw' : stage'.worker=some w) (hafter : stage'.aborted=true)
    (hspawned : .spawned w∈t) : Aborts (t++[.aborted w]) stage' := by
  have hnone : t.count (.aborted w)=0 := by simpa [hbefore] using h.current w hw
  constructor
  · intro w' hworker
    cases hw'.symm.trans hworker
    simp [hnone,hafter]
  · intro w'
    rcases eq_or_ne w' w with rfl | hne
    · simp [hnone]
    · simpa [hne.symm] using h.once w'
  · intro w' hw'
    have hold : .spawned w' ∉ t := fun hmem => hw' (mem_append_left _ hmem)
    have hne : w≠w' := by
      rintro rfl
      exact hold hspawned
    simpa [hne] using h.fresh w' hold

/-- A new worker, for which the bridge was not told to abort. -/
theorem spawn (h : Aborts t stage) {w : ℕ} (hw : .spawned w ∉ t) :
    Aborts (t++[.spawned w]) (.resident w false) := by
  have hquiet : Aborts (t++[.spawned w]) stage := h.quiet (by simp)
  refine ⟨?_,hquiet.once,hquiet.fresh⟩
  rintro w' ⟨⟩
  simpa [Stage.aborted] using h.fresh w hw

end Aborts

namespace Sound

variable {t : List Event} {s : Supervisor} {stage : Stage}
variable {c w : ℕ} {call : Option Call} {stage' : Stage} {x : Worker}

theorem new : Sound [] Supervisor.new .vacant where
  lock := rfl
  running := rfl
  stopping := rfl
  roles := rfl
  alive := by rintro w ⟨x,⟨⟩,_⟩
  worker := nofun
  clearing := nofun
  ledger := ⟨by simp [Supervisor.new],by simp [Supervisor.new],fun _ _ => rfl,guarded_nil _⟩
  aborts := ⟨nofun,by simp,by simp⟩

section

variable (h : Sound t s stage)

include h

theorem supervised : Supervised t s where
  one_worker w w' hw hw' := some.inj ((h.alive w hw).symm.trans (h.alive w' hw'))
  in_turn := h.ledger.in_turn
  aborted_once := h.aborts.once

/-- With no worker there all have exited. -/
theorem allExited (hnone : ∀ w, ¬s.Alive w) : AllExited t := by
  intro w hw
  obtain ⟨x,hx⟩ := isSome_iff_exists.mp ((h.ledger.spawned w).mp hw)
  have hexited : x=.exited := by
    by_contra hne
    exact hnone w ⟨x,hx,hne⟩
  rw [hexited] at hx
  exact (h.ledger.exited w).mpr hx

/-- A call with a part tells what is in hand. -/
theorem hand_eq {call : Call} (hcall : s.calls c=some call)
    (hr : roleOf call≠.idle) : stage.hand=some (c,roleOf call) := by
  refine inHand_eq ?_ hr
  have hrole : parts roleOf s.calls c=roleOf call := parts_some hcall
  rw [h.roles] at hrole
  exact hrole

/-- A call goes on and the worker goes to another hand. -/
theorem pass {lock running : Option ℕ} {stopping : Bool}
    (hlock : lock=stage'.lock) (hrunning : running=stage'.running)
    (hstopping : stopping=stage'.stopping)
    (hroles : update (parts roleOf s.calls) c (call.elim default roleOf)=stage'.role)
    (halive : ∀ w, s.Alive w → stage'.worker=some w)
    (hsame : ∀ w, stage'.worker=some w → stage.worker=some w ∧ stage'.aborted=stage.aborted)
    (hclearing : ∀ w b, call=some (.clearing w b) → s.workers w=some .exited) :
    Sound t ⟨lock,running,stopping,s.nextWorker,s.workers,update s.calls c call⟩ stage' where
  lock := hlock
  running := hrunning
  stopping := hstopping
  roles := (parts_update roleOf s.calls c call).trans hroles
  alive := halive
  worker w hw := h.worker w (hsame w hw).1
  clearing c' w b hc' := by
    rcases update_eq_some hc' with ⟨_,hnew⟩ | ⟨_,hold⟩
    · exact hclearing w b hnew
    · exact h.clearing c' w b hold
  ledger := h.ledger
  aborts := h.aborts.pass hsame

/-- A call goes on without a change of its part. -/
theorem stay (hrole : call.elim default roleOf=parts roleOf s.calls c)
    (hclearing : ∀ w b, call=some (.clearing w b) → s.workers w=some .exited) :
    Sound t (s.setCall c call) stage := by
  refine h.pass h.lock h.running h.stopping ?_ h.alive (fun w hw => ⟨hw,rfl⟩) hclearing
  rw [hrole,update_eq_self,h.roles]

theorem returned (c : ℕ) (e : Option CoreError) : Sound (t++[.returned c e]) s stage :=
  {h with ledger := h.ledger.quiet (by simp), aborts := h.aborts.quiet (by simp)}

/-- A call without a part returns. -/
theorem leave {call : Call} (hcall : s.calls c=some call)
    (hrole : roleOf call=.idle) (e : Option CoreError) :
    Sound (t++[.returned c e]) (s.leave c) stage := by
  have hidle : parts roleOf s.calls c=default := (parts_some hcall).trans hrole
  have hstay : Sound t (s.leave c) stage := h.stay hidle.symm (by simp)
  exact hstay.returned c e

/-- A worker that has not exited goes on, and may exit. -/
theorem put (hw : s.workers w=some x) (hx : x≠.exited) (y : Worker) :
    Sound (t++exits w y) {s with workers := update s.workers w (some y)} stage where
  __ := h
  alive := by
    rintro w' ⟨z,hz,hne⟩
    rcases update_eq_some hz with ⟨rfl,_⟩ | ⟨_,hold⟩
    · exact h.alive w' ⟨x,hw,hx⟩
    · exact h.alive w' ⟨z,hold,hne⟩
  worker w' hw' := by
    rcases eq_or_ne w' w with rfl | hne
    · simp
    · simpa [hne] using h.worker w' hw'
  clearing c w' b hc := by
    have hold := h.clearing c w' b hc
    have hne : w'≠w := by
      rintro rfl
      exact hx (some.inj (hw.symm.trans hold))
    exact (update_of_ne hne ..).trans hold
  ledger := h.ledger.put hw hx y
  aborts := h.aborts.quiet (by simp [exits])

/-- Telling a worker to end does not change who has it. -/
theorem cancel (w : ℕ) : Sound t (s.cancel w) stage := by
  unfold Supervisor.cancel
  split
  · rename_i cancelled hw
    simpa [exits] using h.put hw (by simp) (.running true)
  · exact h

/-- The one worker has exited: none is there. -/
theorem not_alive (hw : stage.worker=some w)
    (hexited : s.workers w=some .exited) (w' : ℕ) : ¬s.Alive w' := by
  rintro ⟨x,hx,hne⟩
  cases hw.symm.trans (h.alive w' ⟨x,hx,hne⟩)
  exact hne (some.inj (hx.symm.trans hexited))

/-- The flag is cleared with no worker there. -/
theorem cleared (w : ℕ) (hall : AllExited t) : Sound (t++[.cleared w]) s stage :=
  {h with ledger := h.ledger.clear w hall, aborts := h.aborts.quiet (by simp)}

/-- A call tells the bridge to abort and goes on. -/
theorem abort {lock running : Option ℕ} {stopping : Bool}
    (hw : stage.worker=some w) (hbefore : stage.aborted=false) (hw' : stage'.worker=some w)
    (hafter : stage'.aborted=true) (hlock : lock=stage'.lock)
    (hrunning : running=stage'.running) (hstopping : stopping=stage'.stopping)
    (hroles : update (parts roleOf s.calls) c (call.elim default roleOf)=stage'.role)
    (hclearing : ∀ w b, call=some (.clearing w b) → s.workers w=some .exited) :
    Sound (t++[.aborted w])
      ⟨lock,running,stopping,s.nextWorker,s.workers,update s.calls c call⟩ stage' where
  lock := hlock
  running := hrunning
  stopping := hstopping
  roles := (parts_update roleOf s.calls c call).trans hroles
  alive w' hw'' := by rw [hw',←hw,h.alive w' hw'']
  worker w' hw'' := h.worker w' (by rw [hw,←hw',hw''])
  clearing c' w' b hc' := by
    rcases update_eq_some hc' with ⟨_,hnew⟩ | ⟨_,hold⟩
    · exact hclearing w' b hnew
    · exact h.clearing c' w' b hold
  ledger := h.ledger.quiet (by simp)
  aborts := h.aborts.abort hw hbefore hw' hafter ((h.ledger.spawned w).mpr (h.worker w hw))

end

/-- A new worker comes into the empty slot. -/
theorem spawn (h : Sound t s .vacant) :
    Sound (t++[.spawned s.nextWorker])
      {s with
        running := some s.nextWorker
        nextWorker := s.nextWorker+1
        workers := update s.workers s.nextWorker (some (.running false))}
      (.resident s.nextWorker false) where
  __ := h
  running := rfl
  alive := by
    rintro w ⟨x,hx,hne⟩
    rcases update_eq_some hx with ⟨rfl,_⟩ | ⟨_,hold⟩
    · rfl
    · cases h.alive w ⟨x,hold,hne⟩
  worker := by
    rintro w ⟨⟩
    simp
  clearing c w b hc := by
    have hold := h.clearing c w b hc
    have hne : w≠s.nextWorker := by
      rintro rfl
      cases hold.symm.trans (h.ledger.fresh _ le_rfl)
    exact (update_of_ne hne ..).trans hold
  ledger := h.ledger.spawn (h.allExited fun w hw => by cases h.alive w hw)
  aborts := h.aborts.spawn fun hspawned => by
    have hsome := (h.ledger.spawned _).mp hspawned
    rw [h.ledger.fresh _ le_rfl] at hsome
    cases hsome

end Sound

/-- A step of a call leads from one state of the worker to another. -/
def Leads (t : List Event) (next : Option (Supervisor × List Event)) : Prop :=
  ∀ s' new, next=some (s',new) → ∃ stage, Sound (t++new) s' stage

theorem leads_none (t : List Event) : Leads t none := nofun

theorem leads_some {t new : List Event} {s : Supervisor} {stage : Stage}
    (h : Sound (t++new) s stage) : Leads t (some (s,new)) := by
  rintro s' new' ⟨⟩
  exact ⟨stage,h⟩

theorem leads_silent {t : List Event} {s : Supervisor} (stage : Stage) (h : Sound t s stage) :
    Leads t (some (s,[])) := leads_some (by rwa [append_nil])

section Steps

variable {t : List Event} {s : Supervisor} {stage : Stage} {c : ℕ}
variable {r : StartRequest} {w : ℕ} {inBackground : Bool} (expired : Bool) (fault : Option String)

section

variable (h : Sound t s stage)

include h

/-- A start gets the lock when the flag is clear. -/
theorem leads_starting (hcall : s.calls c=some (.starting r)) :
    Leads t (s.advance c expired fault (.starting r)) := by
  cases hlock : s.lock with
  | some holder =>
    simp only [Supervisor.advance,hlock]
    exact leads_none t
  | none =>
    cases hstopping : s.stopping with
    | true =>
      cases expired with
      | true =>
        simp only [Supervisor.advance,hlock,hstopping]
        exact leads_some (h.leave hcall rfl _)
      | false =>
        simp only [Supervisor.advance,hlock,hstopping]
        exact leads_silent stage h
    | false =>
      simp only [Supervisor.advance,hlock,hstopping]
      rcases Stage.eq_clear (h.lock.symm.trans hlock) (h.stopping.symm.trans hstopping) with
        rfl | ⟨w,rfl⟩
      · exact leads_silent (.opening c none) (h.pass rfl h.running h.stopping
          (update_idle h.roles c _) h.alive (fun w hw => ⟨hw,rfl⟩) (by simp))
      · exact leads_silent (.opening c (some w)) (h.pass rfl h.running h.stopping
          (update_idle h.roles c _) h.alive (fun w hw => ⟨hw,rfl⟩) (by simp))

/-- A start looks into the slot. -/
theorem leads_opening (hcall : s.calls c=some (.opening r)) :
    Leads t (s.advance c expired fault (.opening r)) := by
  have hhand := h.hand_eq hcall (by simp [roleOf])
  cases stage <;> cases hhand
  rename_i old
  cases old with
  | none =>
    have hrunning : s.running=none := h.running
    simp only [Supervisor.advance,hrunning]
    exact leads_silent (.spawning c) (h.pass h.lock h.running h.stopping
      (update_only h.roles _) h.alive (fun w hw => ⟨hw,rfl⟩) (by simp))
  | some w =>
    have hrunning : s.running=some w := h.running
    by_cases hfinished : s.isFinished w=true
    · simp only [Supervisor.advance,hrunning,if_pos hfinished]
      exact leads_silent (.reaping c w) (h.pass h.lock h.running h.stopping
        (update_only h.roles _) h.alive (fun w hw => ⟨hw,rfl⟩) (by simp))
    · simp only [Supervisor.advance,hrunning,if_neg hfinished]
      have hback : Sound t {s.leave c with lock := none} (.resident w false) :=
        h.pass rfl h.running h.stopping (update_only_default h.roles) h.alive
          (fun w hw => ⟨hw,rfl⟩) (by simp)
      exact leads_some (hback.returned c _)

/-- A start joins the worker that ended by itself. -/
theorem leads_reaping (hcall : s.calls c=some (.reaping r w)) :
    Leads t (s.advance c expired fault (.reaping r w)) := by
  have hhand := h.hand_eq hcall (by simp [roleOf])
  cases stage <;> cases hhand
  by_cases hexited : s.workers w=some .exited
  · simp only [Supervisor.advance,if_pos hexited]
    refine leads_silent (.spawning c) (h.pass h.lock rfl h.stopping (update_only h.roles _) ?_
      nofun (by simp))
    intro w' hw'
    exact absurd hw' (h.not_alive rfl hexited w')
  · simp only [Supervisor.advance,if_neg hexited]
    exact leads_none t

/-- A start with an empty slot gives up or spawns. -/
theorem leads_spawning (hcall : s.calls c=some (.spawning r)) :
    Leads t (s.advance c expired fault (.spawning r)) := by
  have hhand := h.hand_eq hcall (by simp [roleOf])
  cases stage <;> cases hhand
  have hvacant : Sound t {s.leave c with lock := none} .vacant :=
    h.pass rfl h.running h.stopping (update_only_default h.roles) h.alive
      (fun w hw => ⟨hw,rfl⟩) (by simp)
  cases hrefusal : r.refusal with
  | some e =>
    simp only [Supervisor.advance,hrefusal]
    exact leads_some (hvacant.returned c _)
  | none =>
    cases fault with
    | some e =>
      simp only [Supervisor.advance,hrefusal]
      exact leads_some (hvacant.returned c _)
    | none =>
      simp only [Supervisor.advance,hrefusal]
      have hreturned := hvacant.spawn.returned c none
      rw [append_assoc] at hreturned
      exact leads_some hreturned

/-- A begin_stop sets the flag and cancels, the first time. -/
theorem leads_beginning (hcall : s.calls c=some .beginning) :
    Leads t (s.advance c expired fault .beginning) := by
  cases hlock : s.lock with
  | some holder =>
    simp only [Supervisor.advance,hlock]
    exact leads_none t
  | none =>
    cases hrunning : s.running with
    | none =>
      simp only [Supervisor.advance,hlock,hrunning]
      exact leads_some (h.leave hcall rfl _)
    | some w =>
      cases hstopping : s.stopping with
      | true =>
        simp only [Supervisor.advance,hlock,hrunning,hstopping]
        exact leads_some (h.leave hcall rfl _)
      | false =>
        simp only [Supervisor.advance,hlock,hrunning,hstopping]
        have hstage := Stage.eq_resident (h.lock.symm.trans hlock) (h.running.symm.trans hrunning)
        rw [←h.stopping,hstopping] at hstage
        subst hstage
        have hcancel := h.cancel w
        exact leads_silent (.beginning c w) (hcancel.pass rfl hcancel.running rfl
          (update_idle hcancel.roles c _) hcancel.alive (fun w hw => ⟨hw,rfl⟩) (by simp))

/-- A begin_stop tells the bridge to abort and lets the lock go. -/
theorem leads_beginAborting (hcall : s.calls c=some (.beginAborting w)) :
    Leads t (s.advance c expired fault (.beginAborting w)) := by
  have hhand := h.hand_eq hcall (by simp [roleOf])
  cases stage <;> cases hhand
  have hback : Sound (t++[.aborted w]) {s.leave c with lock := none} (.resident w true) :=
    h.abort rfl rfl rfl rfl rfl h.running h.stopping (update_only_default h.roles) (by simp)
  have hreturned := hback.returned c none
  rw [append_assoc] at hreturned
  exact leads_some hreturned

/-- A stop takes the worker out of the slot. -/
theorem leads_stopping (hcall : s.calls c=some .stopping) :
    Leads t (s.advance c expired fault .stopping) := by
  cases hlock : s.lock with
  | some holder =>
    simp only [Supervisor.advance,hlock]
    exact leads_none t
  | none =>
    cases hrunning : s.running with
    | none =>
      simp only [Supervisor.advance,hlock,hrunning]
      exact leads_some (h.leave hcall rfl _)
    | some w =>
      simp only [Supervisor.advance,hlock,hrunning]
      obtain hstage := Stage.eq_resident (h.lock.symm.trans hlock) (h.running.symm.trans hrunning)
      rw [hstage] at h
      exact leads_silent (.taking c w stage.stopping) (h.pass rfl rfl h.stopping
        (update_idle h.roles c _) h.alive (fun w hw => ⟨hw,rfl⟩) (by simp))

/-- A stop sets the flag and lets the lock go. -/
theorem leads_taking (hcall : s.calls c=some (.taking w)) :
    Leads t (s.advance c expired fault (.taking w)) := by
  have hhand := h.hand_eq hcall (by simp [roleOf])
  cases stage <;> cases hhand
  rename_i aborted
  have hstopping : s.stopping=aborted := h.stopping
  simp only [Supervisor.advance,hstopping]
  refine leads_silent (.leaving c w (!aborted)) (h.pass rfl h.running rfl (update_only h.roles _)
    h.alive (fun w hw => ⟨hw,?_⟩) (by simp))
  exact Bool.not_not aborted

/-- A stop cancels the worker; the abort of the bridge may still be due. -/
theorem leads_cancelling {alreadyStopping : Bool}
    (hcall : s.calls c=some (.cancelling w alreadyStopping)) :
    Leads t (s.advance c expired fault (.cancelling w alreadyStopping)) := by
  have hcancel := h.cancel w
  have hrole : parts roleOf (s.cancel w).calls c=.leaving w (!alreadyStopping) := by
    rw [hcancel.roles,←h.roles]
    exact parts_some hcall
  cases alreadyStopping with
  | true | false => exact leads_silent stage (hcancel.stay hrole.symm (by simp))

/-- A stop tells the bridge to abort. -/
theorem leads_aborting (hcall : s.calls c=some (.aborting w)) :
    Leads t (s.advance c expired fault (.aborting w)) := by
  have hhand := h.hand_eq hcall (by simp [roleOf])
  cases stage <;> cases hhand
  have hnext : Sound (t++[.aborted w]) (s.goto c (.deciding w)) (.leaving c w false) :=
    h.abort rfl rfl rfl rfl h.lock h.running h.stopping (update_only h.roles _) (by simp)
  exact leads_some hnext

/-- A stop joins the worker itself or leaves it to a reaper. -/
theorem leads_deciding (hcall : s.calls c=some (.deciding w)) :
    Leads t (s.advance c expired fault (.deciding w)) := by
  have hrole : parts roleOf s.calls c=.leaving w false := parts_some hcall
  by_cases hfinished : s.isFinished w=true
  · simp only [Supervisor.advance,if_pos hfinished]
    exact leads_silent stage (h.stay hrole.symm (by simp))
  · simp only [Supervisor.advance,if_neg hfinished]
    cases fault with
    | none =>
      have hnext : Sound t (s.goto c (.joining w true)) stage := h.stay hrole.symm (by simp)
      exact leads_some (hnext.returned c none)
    | some e =>
      have hhand := h.hand_eq hcall (by simp [roleOf])
      cases stage <;> cases hhand
      have hnext : Sound t (s.leave c) (.stuck w) :=
        h.pass h.lock h.running h.stopping (update_only_default h.roles) h.alive
          (fun w hw => ⟨hw,rfl⟩) (by simp)
      exact leads_some (hnext.returned c _)

/-- The worker is waited for. -/
theorem leads_joining (hcall : s.calls c=some (.joining w inBackground)) :
    Leads t (s.advance c expired fault (.joining w inBackground)) := by
  have hrole : parts roleOf s.calls c=.leaving w false := parts_some hcall
  by_cases hexited : s.workers w=some .exited
  · simp only [Supervisor.advance,if_pos hexited]
    refine leads_silent stage (h.stay hrole.symm ?_)
    rintro w' b ⟨⟩
    exact hexited
  · simp only [Supervisor.advance,if_neg hexited]
    exact leads_none t

/-- The flag is cleared after the worker has exited. -/
theorem leads_clearing (hcall : s.calls c=some (.clearing w inBackground)) :
    Leads t (s.advance c expired fault (.clearing w inBackground)) := by
  have hexited := h.clearing c w inBackground hcall
  have hhand := h.hand_eq hcall (by simp [roleOf])
  cases stage <;> cases hhand
  have hnone := h.not_alive rfl hexited
  have hvacant : Sound t {s.leave c with stopping := false} .vacant :=
    h.pass h.lock h.running rfl (update_only_default h.roles)
      (fun w' hw' => absurd hw' (hnone w')) nofun (by simp)
  have hcleared := hvacant.cleared w (h.allExited hnone)
  cases inBackground with
  | true => exact leads_some hcleared
  | false =>
    have hreturned := hcleared.returned c none
    rw [append_assoc] at hreturned
    exact leads_some hreturned

/-- Every step of a call keeps the supervisor in a state of its one worker. -/
theorem advance_leads {call : Call} (hcall : s.calls c=some call) :
    Leads t (s.advance c expired fault call) := by
  cases call with
  | starting r => exact leads_starting expired fault h hcall
  | opening r => exact leads_opening expired fault h hcall
  | reaping r w => exact leads_reaping expired fault h hcall
  | spawning r => exact leads_spawning expired fault h hcall
  | beginning => exact leads_beginning expired fault h hcall
  | beginAborting w => exact leads_beginAborting expired fault h hcall
  | stopping => exact leads_stopping expired fault h hcall
  | taking w => exact leads_taking expired fault h hcall
  | cancelling w alreadyStopping => exact leads_cancelling expired fault h hcall
  | aborting w => exact leads_aborting expired fault h hcall
  | deciding w => exact leads_deciding expired fault h hcall
  | joining w inBackground => exact leads_joining expired fault h hcall
  | clearing w inBackground => exact leads_clearing expired fault h hcall

/-- Every step of the whole does. -/
theorem exec_leads (a : Action) : Leads t (s.exec a) := by
  cases a with
  | call c entry =>
    cases hc : s.calls c with
    | some call =>
      simp only [Supervisor.exec,hc]
      exact leads_none t
    | none =>
      simp only [Supervisor.exec,hc]
      have hidle : parts roleOf s.calls c=default := parts_none hc
      refine leads_silent stage (h.stay ?_ ?_)
      · rw [hidle]
        cases entry <;> rfl
      · intro w b hclearing
        cases entry <;> cases hclearing
  | step c expired fault =>
    cases hc : s.calls c with
    | none =>
      simp only [Supervisor.exec,hc]
      exact leads_none t
    | some call =>
      simp only [Supervisor.exec,hc]
      exact advance_leads expired fault h hc
  | finish w =>
    simp only [Supervisor.exec]
    split
    · rename_i cancelled hw
      exact leads_some (h.put hw (by simp) .finished)
    · exact leads_none t
  | exit w =>
    simp only [Supervisor.exec]
    split
    · rename_i hw
      exact leads_some (h.put hw (by simp) .exited)
    · exact leads_none t

end

end Steps

/-- In every run there is one worker at most, a worker is spawned and the flag is
cleared only after all workers before have exited, and the bridge is told to
abort at most once for each session. -/
theorem supervised_of_run {t : List Event} {s : Supervisor} (h : machine.Run always t s) :
    Supervised t s := by
  have hsound : ∃ stage, Sound t s stage := by
    refine h.invariant (fun t s => ∃ stage, Sound t s stage) ?_ ?_
    · rintro _ rfl
      exact ⟨.vacant,Sound.new⟩
    · rintro t s a s' new ⟨stage,hstage⟩ _ _ hexec
      exact exec_leads hstage a s' new hexec
  obtain ⟨stage,hstage⟩ := hsound
  exact hstage.supervised

/-- A start that nothing speaks against. -/
def plainRequest : StartRequest := ⟨false,false,false,.ok ⟨"aether",true,false⟩⟩

/-- A session is started and stopped, its worker is left to a reaper, and a second
session is started when the reaper is through. -/
theorem restarted_supervised : ∃ s, Supervised [.spawned 0,.returned 0 none,.aborted 0,
    .returned 1 none,.exited 0,.cleared 0,.spawned 1,.returned 2 none] s := by
  obtain ⟨t,s,hrun,rfl⟩ : ∃ t s, machine.Run always t s ∧ t=[.spawned 0,.returned 0 none,
      .aborted 0,.returned 1 none,.exited 0,.cleared 0,.spawned 1,.returned 2 none] :=
    Machine.exists_run (fun _ _ => true) (fun _ _ _ _ => ⟨trivial,trivial⟩) rfl
      ([.call 0 (.start plainRequest)]++List.replicate 3 (.step 0 false none) ++
        [.call 1 .stop]++List.replicate 5 (.step 1 false none)++[.finish 0,.exit 0] ++
        List.replicate 2 (.step 1 false none)++[.call 2 (.start plainRequest)] ++
        List.replicate 3 (.step 2 false none)) (by decide +kernel)
  exact ⟨s,supervised_of_run hrun⟩

end MsnGuard.SessionWorkers
