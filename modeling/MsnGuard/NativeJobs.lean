import MsnGuard.SoleRoles
import MsnGuard.TransitionRuns

/-!
# The engine job behind the native entry points

The app starts, stops and asks for the engine through three entry points. They keep the number
of the running job in one variable under a lock, but each call takes the lock more than once and
works without it in between.
-/

namespace MsnGuard.NativeJobs

open TransitionRuns SoleRoles

/-- The task behind a job of the engine. -/
inductive Task where
  | running (cancelled : Bool)
  | done
  deriving DecidableEq

/-- Tell a task to end. -/
def cancelTask (tasks : ℕ → Option Task) (id : ℕ) : ℕ → Option Task :=
  match tasks id with
  | some (.running _) => Function.update tasks id (some (.running true))
  | _ => tasks

/-- Where a call of an entry point is. -/
inductive Call where
  /-- A start before its look at the variable. -/
  | checking
  /-- A start that found no job, before it asks the engine for one. -/
  | creating
  /-- A start with a job that the variable does not name yet. -/
  | publishing (id : ℕ)
  /-- A stop before its look at the variable. -/
  | stopping
  | cancelling (id : ℕ)
  /-- A stop that waits for the job, with the number of polls left. -/
  | waiting (id polls : ℕ)
  | freeing (id : ℕ)
  /-- A stop that has freed its job and has to clear the variable. -/
  | clearing (id : ℕ)
  /-- A question before its look at the variable. -/
  | asking
  | polling (id : ℕ)
  /-- A question that found its job done. -/
  | reaping (id : ℕ)
  deriving DecidableEq

/-- The entry points. -/
inductive Entry where
  | nativeStart
  | nativeStop
  | nativeIsRunning

/-- Where a call of an entry point begins. -/
def Entry.first : Entry → Call
  | .nativeStart => .checking
  | .nativeStop => .stopping
  | .nativeIsRunning => .asking

/-- What a poll of a job tells. -/
inductive Poll where
  | unknown
  | running
  | done
  deriving DecidableEq

/-- The variable, the jobs of the engine and the calls under way. -/
structure Host where
  /-- The number of the running job, zero for none. -/
  gJob : ℕ
  /-- The number of the next job. -/
  nextId : ℕ
  /-- Is a job in the table of the engine? -/
  registered : ℕ → Bool
  /-- The tasks of all jobs that were made, freed or not. -/
  tasks : ℕ → Option Task
  /-- The calls under way. -/
  calls : ℕ → Option Call

/-- What can be seen from outside. -/
inductive Event where
  | started (id : ℕ)
  | freed (id : ℕ)
  | returned (call : ℕ) (code : ℤ)
  deriving DecidableEq

namespace Host

/-- No job and no call. -/
def initial : Host := ⟨0,1,fun _ => false,fun _ => none,fun _ => none⟩

/-- A thread goes on in a call, or has none any more. -/
def setCall (s : Host) (c : ℕ) (call : Option Call) : Host :=
  {s with calls := Function.update s.calls c call}

/-- A call moves on. -/
def goto (s : Host) (c : ℕ) (call : Call) : Host := s.setCall c (some call)

/-- A call returns. -/
def leave (s : Host) (c : ℕ) : Host := s.setCall c none

/-- The state of a job as the engine reports it. -/
def jobPoll (s : Host) (id : ℕ) : Poll :=
  if s.registered id then if s.tasks id=some .done then .done else .running else .unknown

/-- Cancel a job of the table. -/
def jobCancel (s : Host) (id : ℕ) : Host :=
  if s.registered id then {s with tasks := cancelTask s.tasks id} else s

/-- Take a job out of the table and cancel it. -/
def jobFree (s : Host) (id : ℕ) : Host :=
  if s.registered id then
    {s with tasks := cancelTask s.tasks id, registered := Function.update s.registered id false}
  else s

/-- A new job. -/
def coreStart (s : Host) : Host :=
  {s with
    nextId := s.nextId+1
    registered := Function.update s.registered s.nextId true
    tasks := Function.update s.tasks s.nextId (some (.running false))}

/-- One step of a call. Whether the engine can make a job is known when it is asked. -/
def advance (s : Host) (c : ℕ) (made : Bool) : Call → Host × List Event
  | .checking => if s.gJob=0 then (s.goto c .creating,[]) else (s.leave c,[.returned c (-1)])
  | .creating =>
    if made then (s.coreStart.goto c (.publishing s.nextId),[])
    else (s.leave c,[.returned c (-1)])
  | .publishing id => ({s.leave c with gJob := id},[.started id,.returned c 0])
  | .stopping =>
    if s.gJob=0 then (s.leave c,[.returned c 0]) else (s.goto c (.cancelling s.gJob),[])
  | .cancelling id => ((s.jobCancel id).goto c (.waiting id 30),[])
  | .waiting id polls =>
    match polls with
    | 0 => (s.goto c (.freeing id),[])
    | polls+1 =>
      if s.jobPoll id=.done then (s.goto c (.freeing id),[])
      else (s.goto c (.waiting id polls),[])
  | .freeing id => ((s.jobFree id).goto c (.clearing id),[.freed id])
  | .clearing id =>
    ({s.leave c with gJob := if s.gJob=id then 0 else s.gJob},[.returned c 0])
  | .asking =>
    if s.gJob=0 then (s.leave c,[.returned c 0]) else (s.goto c (.polling s.gJob),[])
  | .polling id =>
    if s.jobPoll id=.done then (s.goto c (.reaping id),[]) else (s.leave c,[.returned c 1])
  | .reaping id =>
    if s.gJob=id then
      ({(s.jobFree id).leave c with gJob := 0},[.freed id,.returned c 0])
    else (s.leave c,[.returned c 0])

end Host

/-- What may happen next. -/
inductive Action where
  /-- A thread calls an entry point. -/
  | call (c : ℕ) (entry : Entry)
  /-- A call goes on to its next critical section. -/
  | step (c : ℕ) (made : Bool)
  /-- The task of a job ends, by itself or because it is cancelled. -/
  | finish (id : ℕ)

/-- One step of the whole. -/
def Host.exec (s : Host) : Action → Option (Host × List Event)
  | .call c entry =>
    match s.calls c with
    | none => some (s.goto c entry.first,[])
    | some _ => none
  | .step c made => (s.calls c).map (s.advance c made)
  | .finish id =>
    match s.tasks id with
    | some (.running _) => some ({s with tasks := Function.update s.tasks id (some .done)},[])
    | _ => none

/-- Any call may go on at any time. -/
def machine : Machine Host Action Event where
  start s := s=Host.initial
  allowed _ _ := True
  exec := Host.exec

/-- A job whose task has not ended. -/
def Host.Live (s : Host) (id : ℕ) : Prop := ∃ cancelled, s.tasks id=some (.running cancelled)

instance (s : Host) (id : ℕ) : Decidable (s.Live id) :=
  inferInstanceAs (Decidable (∃ cancelled, s.tasks id=some (.running cancelled)))

/-- What the calls are to keep: at most one job lives, the job of a start that
returned is the one of the variable until it is freed, and it is freed once. -/
structure Kept (t : List Event) (s : Host) : Prop where
  /-- At most one job lives. -/
  one_live : ∀ id id', s.Live id → s.Live id' → id=id'
  /-- A started job is in the variable until it is freed, once. -/
  held : ∀ id, .started id∈t → t.count (.freed id)=0 ∧ s.gJob=id ∨ t.count (.freed id)=1
  /-- Nothing else is freed. -/
  unstarted : ∀ id, .started id ∉ t → t.count (.freed id)=0

/-- What a call has to do with the variable between two critical sections. -/
inductive Role where
  | idle
  | creating
  | publishing (id : ℕ)
  | holding (id : ℕ)
  | clearing (id : ℕ)

instance : Inhabited Role := ⟨.idle⟩

/-- The part of a call. -/
def Call.role : Call → Role
  | .checking | .stopping | .asking | .polling _ | .reaping _ => .idle
  | .creating => .creating
  | .publishing id => .publishing id
  | .cancelling id | .waiting id _ | .freeing id => .holding id
  | .clearing id => .clearing id

/-- A start between its look at the variable and its return. -/
def Role.InWindow : Role → Prop
  | .creating | .publishing _ => True
  | _ => False

/-- A stop that has read a job out of the variable. -/
def Role.Holds (id : ℕ) : Role → Prop
  | .holding id' | .clearing id' => id'=id
  | _ => False

/-- The part of the call of a thread, if there is one. -/
def Host.role (s : Host) : ℕ → Role := parts Call.role s.calls

/-- The calls keep out of each other's way: no start finds the variable clear
while another is about to fill it, no two stops and no stop and a reaping
question have the same job, and a stop frees a job only when it is done. -/
def Orderly (_ : List Event) (s : Host) : Action → Prop
  | .step c _ =>
    match s.calls c with
    | some .checking => s.gJob=0 → ∀ c', ¬(s.role c').InWindow
    | some .stopping => ∀ c', ¬(s.role c').Holds s.gJob
    | some (.freeing id) => s.tasks id=some .done
    | some (.reaping id) => s.gJob=id → ∀ c', ¬(s.role c').Holds id
    | _ => True
  | _ => True

end MsnGuard.NativeJobs
