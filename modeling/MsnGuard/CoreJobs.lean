import MsnGuard.EngineRuns

/-!
# Jobs of the engine that are cancelled

A job polls the engine's run until it returns or until the job is cancelled, and then it drops
the run. What the run holds in guards ends with it; the reporter does not, nor what the modes of
Tor and Psiphon leave.
-/

namespace MsnGuard.CoreJobs

open ProcessEnvironments RustText AetherVariables AetherArguments CancellableTasks AetherEngine
open EngineRuns

/-- How a job ends. -/
inductive Reply where
  /-- The run has returned its value. -/
  | closed
  /-- The run has returned an error. -/
  | failed
  /-- The job has been cancelled. -/
  | stopped
  deriving DecidableEq

/-- When a job is cancelled. -/
inductive Moment where
  /-- Before the run is polled for the first time. -/
  | unpolled
  /-- While the run waits for something. -/
  | suspended
  deriving DecidableEq

/-- The jobs that are done: their reply and what is left of their run. -/
inductive Done (table : CaseTable) (args : List Text) (e : Env) :
    Reply → Option Moment → Machine Env Task → Prop
  | closed {o : Outcome} {m : Machine Env Task}
      (h : Exec Task.mortal (runWith table args) ⟨e,[],[]⟩ o m) (ho : o=.next ∨ o=.ret) :
      Done table args e .closed none m
  | failed {m : Machine Env Task}
      (h : Exec Task.mortal (runWith table args) ⟨e,[],[]⟩ .err m) : Done table args e .failed none m
  | unpolled : Done table args e .stopped (some .unpolled) ⟨e,[],[]⟩
  | suspended {m : Machine Env Task}
      (h : Exec Task.mortal (runWith table args) ⟨e,[],[]⟩ .cut m) :
      Done table args e .stopped (some .suspended) m

/-- Every task of the run has ended. -/
def Idle (m : Machine Env Task) : Prop := m.held=[] ∧ m.loose=[]

variable {table : CaseTable} {args : List Text} {e : Env} {m : Machine Env Task}

theorem immediate_check : Immediate check := by
  intro fine
  cases fine <;> trivial

/-- A run is dropped only after the reporter has been started. -/
theorem reporter_mem_of_cut (h : Exec Task.mortal (runWith table args) ⟨e,[],[]⟩ .cut m) :
    Task.reporter∈m.loose := by
  obtain ⟨e',hargs⟩ : ∃ e', parseArgs args e=(.run,e') := by
    cases h with
    | read h =>
      dsimp only at h
      split at h
      · exact absurd rfl (h.ne_cut ⟨trivial,trivial⟩)
      · exact absurd rfl (h.ne_cut ⟨trivial,trivial⟩)
      · exact ⟨_,‹_›⟩
  obtain ⟨m₁,_,hreported⟩ := (exec_started hargs h).seq_cut immediate_check
  obtain ⟨m₂,hdetach,hrest⟩ := hreported.seq_cut trivial
  have hloose : Task.reporter∈m₂.loose := by
    cases hdetach with
    | detach => exact List.mem_cons_self
  exact hrest.loose_of_immortal (fun hmortal => hmortal rfl) hloose

end MsnGuard.CoreJobs
