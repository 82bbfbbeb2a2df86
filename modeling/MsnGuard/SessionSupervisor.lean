import MsnGuard.SoleRoles
import MsnGuard.TransitionRuns

/-!
# Starting and stopping the session worker

The supervisor of a session has a slot for its worker thread under a lock and a flag that is set
while a worker is being stopped. A stop takes the worker out, and it or a reaper it leaves
behind waits for the worker to exit and clears the flag.
-/

namespace MsnGuard.SessionSupervisor

open TransitionRuns

/-- The errors of the runtime. -/
inductive CoreError where
  | notInitialized
  | alreadyRunning
  | nullArgument (name : String)
  | abiMismatch (message : String)
  | invalidConfig (message : String)
  | backendUnavailable (name : String)
  | permissionDenied (message : String)
  | startFailed (message : String)
  | timeout (seconds : ℕ)
  | internal (message : String)
  deriving DecidableEq

/-- What a backend can do. -/
structure Capabilities where
  /-- The name of the backend. -/
  id : String
  /-- Does it offer a SOCKS endpoint? -/
  socks : Bool
  /-- Does it need elevated privileges? -/
  requiresPrivileges : Bool

/-- What a start is asked for, with what it finds on the platform. -/
structure StartRequest where
  /-- Is the session in TUN mode? -/
  isTun : Bool
  /-- Does the configuration or the bridge have a descriptor of the platform? -/
  androidFd : Bool
  /-- Does the process have elevated privileges? -/
  isPrivileged : Bool
  /-- The backend of the configuration, or why there is none. -/
  backend : Except CoreError Capabilities

/-- The checks of a start before it spawns, in their order. -/
def StartRequest.refusal (r : StartRequest) : Option CoreError :=
  if r.isTun && !r.androidFd && !r.isPrivileged then
    some (.permissionDenied ("TUN mode requires administrator/root privileges. " ++
      "On Windows: run as Administrator. On Linux/macOS: use sudo."))
  else match r.backend with
    | .error e => some e
    | .ok caps =>
      if r.isTun && !caps.socks then
        some (.invalidConfig ("backend `" ++ caps.id ++
          "` provides no SOCKS endpoint, so TUN mode cannot be layered on it"))
      else if caps.requiresPrivileges && !r.isPrivileged then
        some (.permissionDenied ("backend `" ++ caps.id ++ "` requires elevated privileges"))
      else none

/-- A worker thread. -/
inductive Worker where
  | running (cancelled : Bool)
  /-- The thread has nothing left to do; it is not gone yet. -/
  | finished
  | exited
  deriving DecidableEq

/-- Where a call stands. -/
inductive Call where
  /-- A start that waits for the lock and for the flag to be clear. -/
  | starting (r : StartRequest)
  /-- A start with the lock. -/
  | opening (r : StartRequest)
  /-- A start that joins a worker that ended by itself. -/
  | reaping (r : StartRequest) (w : ℕ)
  /-- A start that found the slot empty. -/
  | spawning (r : StartRequest)
  /-- A begin_stop that waits for the lock. -/
  | beginning
  /-- A begin_stop with the lock that has set the flag. -/
  | beginAborting (w : ℕ)
  /-- A stop that waits for the lock. -/
  | stopping
  /-- A stop with the lock that has taken the worker. -/
  | taking (w : ℕ)
  | cancelling (w : ℕ) (alreadyStopping : Bool)
  | aborting (w : ℕ)
  | deciding (w : ℕ)
  /-- A stop, or the reaper in its place, that waits for the worker. -/
  | joining (w : ℕ) (inBackground : Bool)
  | clearing (w : ℕ) (inBackground : Bool)

/-- The entry points. -/
inductive Entry where
  | start (r : StartRequest)
  | beginStop
  | stop

/-- Where a call of an entry point begins. -/
def Entry.first : Entry → Call
  | .start r => .starting r
  | .beginStop => .beginning
  | .stop => .stopping

/-- What can be seen from outside. -/
inductive Event where
  | spawned (w : ℕ)
  | exited (w : ℕ)
  /-- The bridge is told to abort, for the session of a worker. -/
  | aborted (w : ℕ)
  /-- The flag is cleared by whoever took a worker. -/
  | cleared (w : ℕ)
  | returned (c : ℕ) (error : Option CoreError)
  deriving DecidableEq

/-- The supervisor with its workers and the calls under way. -/
structure Supervisor where
  /-- The call that holds the lock of the slot. -/
  lock : Option ℕ
  /-- The slot. -/
  running : Option ℕ
  /-- The flag. -/
  stopping : Bool
  /-- The number of the next worker. -/
  nextWorker : ℕ
  /-- All workers that were spawned. -/
  workers : ℕ → Option Worker
  /-- The calls under way. -/
  calls : ℕ → Option Call

namespace Supervisor

/-- A new supervisor. -/
def new : Supervisor := ⟨none,none,false,0,fun _ => none,fun _ => none⟩

/-- A thread goes on in a call, or has none any more. -/
def setCall (s : Supervisor) (c : ℕ) (call : Option Call) : Supervisor :=
  {s with calls := Function.update s.calls c call}

/-- A call moves on. -/
def goto (s : Supervisor) (c : ℕ) (call : Call) : Supervisor := s.setCall c (some call)

/-- A call returns. -/
def leave (s : Supervisor) (c : ℕ) : Supervisor := s.setCall c none

/-- Does the handle of a worker say that its thread has ended? -/
def isFinished (s : Supervisor) (w : ℕ) : Bool :=
  s.workers w=some .finished || s.workers w=some .exited

/-- Tell a worker to end. -/
def cancel (s : Supervisor) (w : ℕ) : Supervisor :=
  match s.workers w with
  | some (.running _) => {s with workers := Function.update s.workers w (some (.running true))}
  | _ => s

/-- One step of a call. A start may find its deadline passed, and the system may
refuse a thread. -/
def advance (s : Supervisor) (c : ℕ) (expired : Bool) (fault : Option String) :
    Call → Option (Supervisor × List Event)
  | .starting r =>
    if s.lock.isSome then none
    else if s.stopping then
      if expired then some (s.leave c,[.returned c (some (.timeout 2))]) else some (s,[])
    else some ({s.goto c (.opening r) with lock := some c},[])
  | .opening r =>
    match s.running with
    | none => some (s.goto c (.spawning r),[])
    | some w =>
      if s.isFinished w then some (s.goto c (.reaping r w),[])
      else some ({s.leave c with lock := none},[.returned c (some .alreadyRunning)])
  | .reaping r w =>
    if s.workers w=some .exited then some ({s.goto c (.spawning r) with running := none},[])
    else none
  | .spawning r =>
    match r.refusal,fault with
    | some e,_ => some ({s.leave c with lock := none},[.returned c (some e)])
    | none,some e =>
      some ({s.leave c with lock := none},
        [.returned c (some (.internal ("failed to spawn session thread: " ++ e)))])
    | none,none =>
      let w := s.nextWorker
      some ({s.leave c with
        lock := none
        running := some w
        nextWorker := w+1
        workers := Function.update s.workers w (some (.running false))},
        [.spawned w,.returned c none])
  | .beginning =>
    if s.lock.isSome then none
    else match s.running with
      | none => some (s.leave c,[.returned c none])
      | some w =>
        if s.stopping then some (s.leave c,[.returned c none])
        else some ({(s.cancel w).goto c (.beginAborting w) with lock := some c, stopping := true},[])
  | .beginAborting w => some ({s.leave c with lock := none},[.aborted w,.returned c none])
  | .stopping =>
    if s.lock.isSome then none
    else match s.running with
      | none => some (s.leave c,[.returned c none])
      | some w => some ({s.goto c (.taking w) with lock := some c, running := none},[])
  | .taking w =>
    some ({s.goto c (.cancelling w s.stopping) with lock := none, stopping := true},[])
  | .cancelling w alreadyStopping =>
    some ((s.cancel w).goto c (if alreadyStopping then .deciding w else .aborting w),[])
  | .aborting w => some (s.goto c (.deciding w),[.aborted w])
  | .deciding w =>
    if s.isFinished w then some (s.goto c (.joining w false),[])
    else match fault with
      | none => some (s.goto c (.joining w true),[.returned c none])
      -- the handle of the worker is lost with the reaper that could not be spawned
      | some e =>
        some (s.leave c,[.returned c (some (.internal ("failed to spawn session reaper: " ++ e)))])
  | .joining w inBackground =>
    if s.workers w=some .exited then some (s.goto c (.clearing w inBackground),[]) else none
  | .clearing w inBackground =>
    some ({s.leave c with stopping := false},
      .cleared w::if inBackground then [] else [.returned c none])

end Supervisor

/-- What may happen next. -/
inductive Action where
  /-- A thread calls an entry point. -/
  | call (c : ℕ) (entry : Entry)
  /-- A call takes its next step. -/
  | step (c : ℕ) (expired : Bool) (fault : Option String)
  /-- A worker comes to its end. -/
  | finish (w : ℕ)
  /-- The thread of a worker is gone. -/
  | exit (w : ℕ)

/-- One step of the whole; nothing when a call has to wait. -/
def Supervisor.exec (s : Supervisor) : Action → Option (Supervisor × List Event)
  | .call c entry =>
    match s.calls c with
    | none => some (s.goto c entry.first,[])
    | some _ => none
  | .step c expired fault => (s.calls c).bind (s.advance c expired fault)
  | .finish w =>
    match s.workers w with
    | some (.running _) => some ({s with workers := Function.update s.workers w (some .finished)},[])
    | _ => none
  | .exit w =>
    match s.workers w with
    | some .finished =>
      some ({s with workers := Function.update s.workers w (some .exited)},[.exited w])
    | _ => none

/-- Calls from any threads in any order. -/
def machine : Machine Supervisor Action Event where
  start s := s=Supervisor.new
  allowed _ _ := True
  exec := Supervisor.exec

/-- A worker whose thread is there. -/
def Supervisor.Alive (s : Supervisor) (w : ℕ) : Prop := ∃ x, s.workers w=some x ∧ x≠.exited

/-- All workers of a history have exited. -/
def AllExited (t : List Event) : Prop := ∀ w, .spawned w∈t → .exited w∈t

/-- What comes before an event: a worker is only spawned, and the flag only
cleared, when all workers so far have exited. -/
def InTurn (before : List Event) : Event → Prop
  | .spawned _ | .cleared _ => AllExited before
  | _ => True

/-- What the supervisor is to keep. -/
structure Supervised (t : List Event) (s : Supervisor) : Prop where
  /-- There is one worker at most. -/
  one_worker : ∀ w w', s.Alive w → s.Alive w' → w=w'
  /-- Spawning and clearing the flag wait for the worker before. -/
  in_turn : Guarded InTurn t
  /-- The bridge is told to abort once for each session at most. -/
  aborted_once : ∀ w, t.count (.aborted w)≤1

end MsnGuard.SessionSupervisor
