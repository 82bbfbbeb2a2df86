import MsnGuard.SessionMoves

/-!
# Starts that are dropped

The start of a backend is dropped when its time is up, the session is stopped or the carrier is
gone. Before its runtime goes, the thread of a session drains the backend of the session, but
not the exit that was to be in front of it.
-/

namespace MsnGuard.DroppedStarts

open TransitionRuns SessionThreads
open SessionEndpoints (RetryPolicy chainedConfig localEndpoints)

/-- The backend that is being started. An exit needs a carrier with a SOCKS listener. -/
def starting : Phase → Option Hop
  | .dialling => some .carrier
  | .chaining carrier | .restarting _ carrier _ => carrier.socks.map fun _ => .exit
  | _ => none

/-- The backend whose start a step drops: the start was under way and has given no handle. -/
def drops (p : Phase) (underWay : Bool) : Input → Option Hop
  | .backendUp _ | .exitResult (.ok _) => none
  | _ => if underWay then starting p else none

/-- The thread of a session, with the backends whose start was dropped and that have not been
drained since. -/
structure Session where
  thread : Thread
  undrained : List Hop

/-- Each session by itself. A step says whether a start was under way, or had not begun or
failed on its own. -/
def machine (policy : RetryPolicy) : Machine Session (View × Input × Bool) ThreadEvent where
  start s := ∃ config, s=⟨Thread.new config,[]⟩
  allowed _ _ := True
  exec s a := ((loop policy).exec s.thread (a.1,a.2.1)).map fun (th,events) =>
    (⟨th,if s.thread.phase=.draining then s.undrained.filter (·≠.carrier)
      else (drops s.thread.phase a.2.2 a.2.1).toList++s.undrained⟩,events)

/-- No start of an exit is dropped. -/
def sparesExit (s : Session) (a : View × Input × Bool) : Bool :=
  drops s.thread.phase a.2.2 a.2.1≠some .exit

/-- A thread ends before its runtime was built or after the drain. -/
theorem phase_of_end {policy : RetryPolicy} {view : View} {input : Input} {th th' : Thread}
    {effect : Effect} {events : List ThreadEvent}
    (h : Moves policy view input th th.phase th' effect events)
    (hend : th'.phase=.building ∨ th'.phase=.done) :
    th.phase=.building ∨ th.phase=.draining := by
  generalize hp : th.phase=p at h
  cases h with
  | quiet hquiet => cases hquiet <;> simp_all [Thread.goto]
  | carrierUp | exitUp | exitDropped =>
    simp only [Thread.goto] at hend
    split at hend <;> simp at hend
  | _ => simp_all [Thread.goto]

/-- What is kept: only the carrier is to be drained, and nothing before the start and at
the end. -/
structure Kept (s : Session) : Prop where
  carrier : ∀ hop∈s.undrained, hop=.carrier
  none : s.thread.phase=.building ∨ s.thread.phase=.done → s.undrained=[]

theorem Kept.step {policy : RetryPolicy} {s s' : Session} {a : View × Input × Bool}
    {events : List ThreadEvent} (h : Kept s) (hspares : sparesExit s a=true)
    (hexec : (machine policy).exec s a=some (s',events)) : Kept s' := by
  obtain ⟨⟨th,_⟩,hloop,heq⟩ := Option.map_eq_some_iff.mp hexec
  obtain ⟨⟨_,effect,_⟩,hadvance,hth⟩ := Option.map_eq_some_iff.mp hloop
  cases hth
  cases heq
  have hphase := phase_of_end (advance_moves hadvance)
  by_cases hdrain : s.thread.phase=.draining
  · have hnone : s.undrained.filter (·≠.carrier)=[] := by simpa using h.carrier
    simp only [if_pos hdrain,hnone]
    exact ⟨nofun,fun _ => rfl⟩
  · simp only [if_neg hdrain]
    refine ⟨fun hop hmem => ?_,fun hend => ?_⟩
    · rcases List.mem_append.mp hmem with hnew | hold
      · cases hop with
        | carrier => rfl
        | exit => exact absurd (Option.mem_toList.mp hnew) (of_decide_eq_true hspares)
      · exact h.carrier hop hold
    · have hbuilding := (hphase hend).resolve_right hdrain
      rw [h.none (.inl hbuilding),hbuilding]
      unfold drops
      split <;> simp [starting]

/-- In every session in which no start of an exit is dropped, every backend whose start was
dropped has been drained when the runtime is gone. -/
theorem drained_before_end {policy : RetryPolicy} {t : List ThreadEvent} {s : Session}
    (h : (machine policy).Run (fun _ s a => sparesExit s a=true) t s)
    (hdone : s.thread.phase=.done) : s.undrained=[] := by
  have hkept : Kept s := by
    refine h.invariant (fun _ s => Kept s) ?_ fun _ _ _ _ _ hkept _ hspares hexec =>
      hkept.step hspares hexec
    rintro _ ⟨config,rfl⟩
    exact ⟨nofun,fun _ => rfl⟩
  exact hkept.none (.inr hdone)

/-- A thread that sees nothing special, or that its session is being stopped. -/
def seeing (cancelled : Bool) : View := ⟨cancelled,false,false,false⟩

/-- The end of a thread that has left its loop. -/
def leaving : List (View × Input × Bool) := List.replicate 3 (seeing true,.proceed,false)

/-- The session is stopped while its carrier is being started. -/
theorem carrier_drained : ∃ t s, (machine ⟨true,0⟩).Run (fun _ s a => sparesExit s a=true) t s ∧
    s.thread.phase=.done ∧ (s.thread.phase=.done → s.undrained=[]) :=
  Machine.exists_run_with sparesExit (fun _ _ _ h => ⟨trivial,h⟩) ⟨chainedConfig,rfl⟩
    ([(seeing false,.runtime none,false),(seeing false,.proceed,false),
      (seeing true,.cancelSeen,true)]++leaving) (by decide +kernel)
    fun _ _ => drained_before_end

/-- The carrier is gone while the exit is being started. -/
theorem exit_not_drained : ∃ t s, (machine ⟨false,0⟩).Run always t s ∧
    s.thread.phase=.done ∧ s.undrained=[.exit] :=
  Machine.exists_run (fun _ _ => true) (fun _ _ _ _ => ⟨trivial,trivial⟩) ⟨chainedConfig,rfl⟩
    ([(seeing false,.runtime none,false),(seeing false,.proceed,false),
      (seeing false,.backendUp (localEndpoints 1819),true),
      (seeing false,.carrierEnded none "",true)] ++
      List.replicate 2 (seeing false,.proceed,false)++leaving) (by decide +kernel)

end MsnGuard.DroppedStarts
