import MsnGuard.SessionEndpoints

/-!
# The thread of a session and the data plane it shares

The thread of a session makes its attempts in a loop: it starts the carrier and the exit, raises
the TUN bridge, serves until something ends and stops what it started. The data plane is shared
with the calls that pause and resume the bridge, most of it under one lock.
-/

namespace MsnGuard.SessionThreads

open TransitionRuns
open SessionSupervisor (CoreError Supervisor StartRequest)
open SessionEndpoints (SessionConfig Endpoints LiveTun RetryPolicy isTransient shouldRetry
  startPsiphonThroughTunnel)

/-- How long health checks are left out after the bridge was changed, in
milliseconds. -/
def tunSettle : ℕ := 5000

/-- As many checks have to fail one after the other. -/
def tunHealthFailTicks : ℕ := 3

/-- The pause before an attempt, in seconds. -/
def backoffSecs (attempt : ℕ) : ℕ := min (2 ^ min attempt 5) 30

/-- The two backends of an attempt. -/
inductive Hop where
  | carrier
  | exit
  deriving DecidableEq

/-- What follows when the handles of an attempt are stopped. -/
inductive Next where
  | leave (outcome : Option CoreError)
  /-- The error counts unless the session is being stopped. -/
  | leaveUnlessCancelled (e : CoreError)
  /-- Another attempt is made or not. -/
  | decide (outcome : Option CoreError)
  deriving DecidableEq

/-- What follows when the exit alone is stopped. -/
inductive AfterExit where
  | serve (endpoints : Endpoints) (unhealthy : ℕ)
  | fail (e : CoreError)
  deriving DecidableEq

/-- Where the thread of a session stands. -/
inductive Phase where
  /-- The runtime of the thread is being built. -/
  | building
  /-- The top of the loop. -/
  | head
  /-- The carrier is being started. -/
  | dialling
  /-- The exit is being started in front of the carrier. -/
  | chaining (carrier : Endpoints)
  /-- The endpoints are known; the thread waits for the lock. -/
  | raising (endpoints : Endpoints)
  /-- The thread has the lock and has published the endpoints. -/
  | publishing (endpoints : Endpoints)
  /-- The thread has the lock and starts the bridge. -/
  | lifting (endpoints : Endpoints)
  /-- Has the session been stopped in the meantime? -/
  | checking (endpoints : Endpoints)
  /-- The session is up; the pump has seen some checks fail. -/
  | serving (endpoints : Endpoints) (carrierUp : Bool) (unhealthy : ℕ)
  /-- An exit is being stopped on its own. -/
  | dropping (h : ℕ) (next : AfterExit)
  /-- The carrier is back and the exit is being started again. -/
  | restarting (endpoints carrier : Endpoints) (unhealthy : ℕ)
  /-- The session is being stopped, the bridge first. -/
  | cancelling
  /-- The attempt is over; the thread waits for the lock. -/
  | ending (outcome : Option CoreError)
  /-- The thread has the lock, nothing is published any more, the bridge is next. -/
  | lowering (outcome : Option CoreError)
  /-- The handles of the attempt are being stopped. -/
  | tearing (next : Next)
  | backingOff
  /-- The loop is left; its guard waits for the lock. -/
  | returning (outcome : Option CoreError)
  /-- As before, after a panic. -/
  | unwinding
  /-- The loop is left; the bridge is stopped once more. -/
  | closing
  | draining
  | done
  deriving DecidableEq

/-- The thread of a session. -/
structure Thread where
  /-- The settings. -/
  config : SessionConfig
  /-- The number of the attempt. -/
  attempt : ℕ
  /-- The number of the next handle. -/
  nextHandle : ℕ
  /-- The handle of the carrier. -/
  carrier : Option ℕ
  /-- The handle of the exit. -/
  exit : Option ℕ
  /-- Where the thread stands. -/
  phase : Phase
  deriving DecidableEq

/-- What a tick of the pump came to. -/
inductive Tick where
  /-- The lock was taken. -/
  | busy
  /-- The session has no TUN device. -/
  | noTun
  | paused
  | settling
  | failed
  | healthy
  deriving DecidableEq

/-- What a thread does that others can see. -/
inductive ThreadEvent where
  | attempt (n : ℕ)
  | started (hop : Hop) (h : ℕ)
  | stopped (hop : Hop) (h : ℕ)
  | bridgeStarted
  | bridgeStopped
  | connected
  | pumpStarted
  | ticked (tick : Tick)
  | pumpEnded (e : CoreError)
  | backoff (secs : ℕ)
  /-- An attempt would be next, and there is none. -/
  | gaveUp
  | returned (outcome : Option CoreError)
  deriving DecidableEq

/-- What a thread reads of the shared data. -/
structure View where
  /-- Is the session being stopped? -/
  cancelled : Bool
  /-- Is the bridge paused? -/
  paused : Bool
  /-- Was the bridge changed a short time ago? -/
  settling : Bool
  /-- Is the lock taken? -/
  busy : Bool
  deriving DecidableEq

/-- What wakes a thread. -/
inductive Input where
  | runtime (error : Option String)
  | cancelSeen
  | backendUp (endpoints : Endpoints)
  /-- The start fails or takes too long. -/
  | backendFailed (e : CoreError)
  | carrierEnded (outcome : Option CoreError) (detail : String)
  | exitResult (result : Except CoreError Endpoints)
  | exitEnded (outcome : Option CoreError)
  /-- The carrier goes down or comes back, then with these endpoints. -/
  | carrierChanged (carrier : Endpoints)
  /-- The bridge starts, or it fails. -/
  | bridgeResult (error : Option CoreError)
  /-- A tick of the pump, with what a check would answer. -/
  | tick (health : Option CoreError)
  | slept
  /-- Nothing to wait for. -/
  | proceed
  | panic

/-- What a step of a thread does to the shared data. -/
inductive Effect where
  | none
  /-- Take the lock and publish. -/
  | publish (live : LiveTun)
  | unlock
  /-- The bridge is up; let go of the lock. -/
  | raise
  /-- The bridge did not start; let go of the lock. -/
  | raiseFailed
  /-- Take the lock and withdraw what is published. -/
  | withdraw
  /-- Stop the bridge and let go of the lock. -/
  | lowerUnlock
  /-- Stop the bridge, whoever has the lock. -/
  | lower
  /-- Under the lock, withdraw what is published and the mark that it is paused. -/
  | retire
  /-- A panic lets go of the lock. -/
  | abandon

namespace Thread

/-- The thread of a new session. -/
def new (config : SessionConfig) : Thread := ⟨config,0,0,none,none,.building⟩

/-- The thread goes on elsewhere. -/
def goto (th : Thread) (phase : Phase) : Thread := {th with phase := phase}

/-- The carrier is up. -/
def obtainCarrier (th : Thread) : Thread :=
  {th with carrier := some th.nextHandle, nextHandle := th.nextHandle+1}

/-- An exit is up; it is kept, or it is only to be stopped again. -/
def obtainExit (th : Thread) (kept : Bool) : Thread :=
  {th with exit := if kept then some th.nextHandle else th.exit, nextHandle := th.nextHandle+1}

/-- What a step leads to. -/
abbrev Outcome := Thread × Effect × List ThreadEvent

/-- Another attempt follows after a pause, or the session ends. -/
def retry (policy : RetryPolicy) (cancelled : Bool) (th : Thread) (outcome : Option CoreError) :
    Outcome :=
  if shouldRetry policy th.attempt cancelled then
    ({th with attempt := th.attempt+1, phase := .backingOff},.none,
      [.backoff (backoffSecs (th.attempt+1))])
  else (th.goto (.returning outcome),.none,if cancelled then [] else [.gaveUp])

/-- What follows when the handles of an attempt are stopped. -/
def settle (policy : RetryPolicy) (cancelled : Bool) (th : Thread) : Next → Outcome
  | .leave outcome => (th.goto (.returning outcome),.none,[])
  | .leaveUnlessCancelled e =>
    (th.goto (.returning (if cancelled then none else some e)),.none,[])
  | .decide outcome =>
    if outcome=none ∧ cancelled=true then (th.goto (.returning none),.none,[])
    else th.retry policy cancelled outcome

/-- The exit in front of the carrier, on the way up. -/
def chain (th : Thread) (carrier : Endpoints) (result : Except CoreError Endpoints) : Outcome :=
  match startPsiphonThroughTunnel carrier result with
  | .error e => (th.goto (.tearing (.leaveUnlessCancelled e)),.none,[])
  | .ok exit =>
    ((th.obtainExit true).goto
      (if exit.socks=none then
        .tearing (.leave (some (.startFailed "Psiphon exit has no SOCKS endpoint")))
      else .raising {exit with peerIp := carrier.peerIp}),
      .none,[.started .exit th.nextHandle])

/-- The exit in front of a carrier that is back. -/
def rechain (th : Thread) (endpoints carrier : Endpoints) (unhealthy : ℕ)
    (result : Except CoreError Endpoints) : Outcome :=
  match startPsiphonThroughTunnel carrier result with
  | .error e => (th.goto (.ending (some e)),.none,[])
  | .ok exit =>
    if exit.socks=endpoints.socks then
      ((th.obtainExit true).goto (.serving endpoints true unhealthy),.none,
        [.started .exit th.nextHandle,.connected])
    else
      ((th.obtainExit false).goto
        (.dropping th.nextHandle (.fail (.internal "Psiphon exit came back on another port"))),
        .none,[.started .exit th.nextHandle])

/-- A tick of the pump; the lock is only taken when it is free. -/
def pump (view : View) (th : Thread) (endpoints : Endpoints) (carrierUp : Bool) (unhealthy : ℕ)
    (health : Option CoreError) : Outcome :=
  let again n := th.goto (.serving endpoints carrierUp n)
  if view.busy then (again unhealthy,.none,[.ticked .busy])
  else if !th.config.isTun then (again unhealthy,.none,[.ticked .noTun])
  else if view.paused || view.settling then
    (again 0,.none,[.ticked (if view.paused then .paused else .settling)])
  else match health with
    | some e =>
      if tunHealthFailTicks≤unhealthy+1 then
        (th.goto (.ending (some e)),.none,[.ticked .failed,.pumpEnded e])
      else (again (unhealthy+1),.none,[.ticked .failed])
    | none => (again 0,.none,[.ticked .healthy])

/-- The carrier goes down or comes back under a session with an exit. -/
def carrierTurned (th : Thread) (endpoints carrier : Endpoints) (carrierUp : Bool)
    (unhealthy : ℕ) : Outcome :=
  if carrierUp then
    match th.exit with
    | some h =>
      ({th with exit := none, phase := .dropping h (.serve endpoints unhealthy)},.none,[])
    | none => (th.goto (.serving endpoints false unhealthy),.none,[])
  else (th.goto (.restarting endpoints carrier unhealthy),.none,[])

/-- One handle after the other is stopped, the exit first. -/
def tearDown (policy : RetryPolicy) (cancelled : Bool) (th : Thread) (next : Next) : Outcome :=
  match th.exit,th.carrier with
  | some h,_ => ({th with exit := none},.none,[.stopped .exit h])
  | none,some h => ({th with carrier := none},.none,[.stopped .carrier h])
  | none,none => th.settle policy cancelled next

/-- One step of the loop of a session and of what its thread does around it. -/
def advance (policy : RetryPolicy) (view : View) (th : Thread) : Phase → Input → Option Outcome
  | .building,.runtime none => some (th.goto .head,.none,[])
  | .building,.runtime (some _) => some (th.goto .done,.none,[])
  | .head,.proceed =>
    if view.cancelled then some (th.goto (.returning none),.none,[])
    else some (th.goto .dialling,.none,[.attempt th.attempt])
  | .dialling,.cancelSeen | .backingOff,.cancelSeen =>
    if view.cancelled then some (th.goto (.returning none),.none,[]) else none
  | .dialling,.backendUp endpoints =>
    some (th.obtainCarrier.goto
      (if th.config.chained then .chaining endpoints else .raising endpoints),
      .none,[.started .carrier th.nextHandle])
  | .dialling,.backendFailed e =>
    if isTransient e then some (th.retry policy view.cancelled (some e))
    else some (th.goto (.returning (some e)),.none,[])
  | .chaining _,.carrierEnded _ detail =>
    some (th.goto (.tearing (.leaveUnlessCancelled
      (.startFailed ("Aether dropped while Psiphon was connecting" ++ detail)))),.none,[])
  | .chaining carrier,.exitResult result => some (th.chain carrier result)
  | .raising endpoints,.proceed =>
    some (th.goto (.publishing endpoints),.publish ⟨th.config,endpoints⟩,[])
  | .publishing endpoints,.proceed =>
    if th.config.isTun && !view.cancelled && !view.paused then
      some (th.goto (.lifting endpoints),.none,[])
    else some (th.goto (.checking endpoints),.unlock,[])
  | .lifting endpoints,.bridgeResult none =>
    some (th.goto (.checking endpoints),.raise,[.bridgeStarted])
  | .lifting _,.bridgeResult (some e) =>
    some (th.goto (.tearing (.leave (some e))),.raiseFailed,[])
  | .checking endpoints,.proceed =>
    if view.cancelled then some (th.goto .cancelling,.none,[])
    else some (th.goto (.serving endpoints true 0),.none,[.connected,.pumpStarted])
  | .serving _ _ _,.cancelSeen | .restarting _ _ _,.cancelSeen =>
    if view.cancelled then some (th.goto .cancelling,.none,[]) else none
  | .serving _ _ _,.carrierEnded outcome _ | .restarting _ _ _,.carrierEnded outcome _ =>
    some (th.goto (.ending outcome),.none,[])
  | .serving _ _ _,.exitEnded outcome =>
    if th.exit.isSome then some (th.goto (.ending outcome),.none,[]) else none
  | .serving endpoints carrierUp unhealthy,.carrierChanged carrier =>
    if th.config.chained then some (th.carrierTurned endpoints carrier carrierUp unhealthy)
    else none
  | .serving endpoints carrierUp unhealthy,.tick health =>
    some (th.pump view endpoints carrierUp unhealthy health)
  | .dropping h (.serve endpoints unhealthy),.proceed =>
    some (th.goto (.serving endpoints false unhealthy),.none,[.stopped .exit h])
  | .dropping h (.fail e),.proceed => some (th.goto (.ending (some e)),.none,[.stopped .exit h])
  | .restarting endpoints carrier unhealthy,.exitResult result =>
    some (th.rechain endpoints carrier unhealthy result)
  | .cancelling,.proceed => some (th.goto (.tearing (.leave none)),.lower,[.bridgeStopped])
  | .ending outcome,.proceed => some (th.goto (.lowering outcome),.withdraw,[])
  | .lowering outcome,.proceed =>
    some (th.goto (.tearing (.decide outcome)),.lowerUnlock,[.bridgeStopped])
  | .tearing next,.proceed => some (th.tearDown policy view.cancelled next)
  | .backingOff,.slept => some (th.goto .head,.none,[])
  | .returning outcome,.proceed => some (th.goto .closing,.retire,[.returned outcome])
  | .unwinding,.proceed => some (th.goto .closing,.retire,[])
  | .closing,.proceed => some (th.goto .draining,.lower,[.bridgeStopped])
  | .draining,.proceed => some (th.goto .done,.none,[])
  | phase,.panic =>
    match phase with
    | .building | .returning _ | .unwinding | .closing | .draining | .done => none
    | _ => some (th.goto .unwinding,.abandon,[])
  | _,_ => none

end Thread

/-- Who has the lock of the data plane. -/
inductive Holder where
  /-- A start of a session. -/
  | start (c : ℕ)
  /-- A call that pauses or resumes the bridge. -/
  | call (c : ℕ)
  /-- The thread of a session. -/
  | thread (w : ℕ)
  deriving DecidableEq

/-- The data plane. -/
structure Plane where
  /-- Who has the lock. -/
  control : Option Holder
  /-- Is the bridge paused? -/
  paused : Bool
  /-- Until when health checks are left out. -/
  settle : Option ℕ
  /-- What is published, and by which session. -/
  live : Option (ℕ × LiveTun)
  /-- Is the bridge up, and for which session? -/
  bridge : Option ℕ

namespace Plane

/-- Let go of the lock. -/
def unlock (p : Plane) : Plane := {p with control := none}

/-- The bridge stops. -/
def lower (p : Plane) : Plane := {p with bridge := none}

/-- The bridge starts. -/
def raise (p : Plane) (w : ℕ) : Plane := {p with bridge := some w}

/-- Health checks are left out for a while. -/
def hold (p : Plane) (now : ℕ) : Plane := {p with settle := some (now+tunSettle)}

/-- Take the lock, if it is free. -/
def acquire (p : Plane) (holder : Holder) : Option Plane :=
  if p.control=none then some {p with control := some holder} else none

/-- The effect of a step of a thread; nothing when the lock is not free. -/
def apply (p : Plane) (now w : ℕ) : Effect → Option Plane
  | .none => some p
  | .publish live => (p.acquire (.thread w)).map fun p => {p with live := some (w,live)}
  | .unlock => some p.unlock
  | .raise => some ((p.raise w).hold now).unlock
  | .raiseFailed => some p.lower.unlock
  | .withdraw => (p.acquire (.thread w)).map fun p => {p with live := none}
  | .lowerUnlock => some p.lower.unlock
  | .lower => some p.lower
  | .retire =>
    (p.acquire (.thread w)).map fun p => {p with live := none, paused := false}.unlock
  | .abandon => some (if p.control=some (.thread w) then p.unlock else p)

end Plane

/-- Where a call that pauses or resumes the bridge stands. -/
inductive TunCall where
  | pausing
  | pauseRunning
  | pauseFlag
  | pauseSwap
  | pauseHold
  | pauseStop
  | resuming
  | resumeRunning
  | resumeFlag
  | resumePaused
  | resumeLive
  | resumeStart (w : ℕ) (live : LiveTun)
  | recheckFlag
  | recheckRunning
  | resumeStop
  | resumeHold
  | resumeClear

/-- What can be seen from outside. -/
inductive Event where
  | supervisor (e : SessionSupervisor.Event)
  | thread (w : ℕ) (e : ThreadEvent)
  /-- A call starts the bridge for a session. -/
  | bridgeStarted (c w : ℕ)
  /-- A call stops the bridge. -/
  | bridgeStopped (c : ℕ)
  | returned (c : ℕ) (error : Option CoreError)
  deriving DecidableEq

/-- The supervisor, the threads of its sessions and the data plane. -/
structure World where
  /-- The slot, the flag, and the starts and stops under way. -/
  sup : Supervisor
  /-- The time in milliseconds. -/
  now : ℕ
  /-- The data plane. -/
  plane : Plane
  /-- The settings that the starts under way came with. -/
  configs : ℕ → SessionConfig
  /-- The threads. -/
  threads : ℕ → Option Thread
  /-- The calls that pause and resume the bridge. -/
  calls : ℕ → Option TunCall

namespace World

/-- Nothing has happened yet. -/
def initial (config : SessionConfig) : World :=
  ⟨Supervisor.new,0,⟨none,false,none,none,none⟩,fun _ => config,fun _ => none,fun _ => none⟩

/-- Is there a session whose thread has not ended? -/
def isRunning (s : World) : Bool := s.sup.running.any fun w => !s.sup.isFinished w

/-- Is the session of a thread being stopped? -/
def cancelled (s : World) (w : ℕ) : Bool := s.sup.workers w=some (.running true)

/-- What the thread of a session reads. -/
def view (s : World) (w : ℕ) : View :=
  ⟨s.cancelled w,s.plane.paused,s.plane.settle.any fun deadline => decide (s.now<deadline),
    s.plane.control.isSome⟩

/-- One step of a thread. -/
def threadStep (policy : RetryPolicy) (s : World) (w : ℕ) (input : Input) :
    Option (World × List Event) :=
  match s.threads w with
  | none => none
  | some th =>
    match th.advance policy (s.view w) th.phase input with
    | none => none
    | some (th',effect,events) =>
      match s.plane.apply s.now w effect with
      | none => none
      | some plane =>
        some ({s with plane := plane, threads := Function.update s.threads w (some th')},
          events.map (.thread w))

/-- The end of a call under the lock. -/
def leaveCall (c : ℕ) (p : Plane) (error : Option CoreError) :
    Plane × Option TunCall × List Event := (p.unlock,none,[.returned c error])

/-- One step of a call that pauses or resumes the bridge; a bridge it starts may fail. -/
def callAdvance (s : World) (c : ℕ) (error : Option CoreError) :
    TunCall → Option (Plane × Option TunCall × List Event)
  | .pausing => (s.plane.acquire (.call c)).map fun p => (p,some .pauseRunning,[])
  | .pauseRunning =>
    if s.sup.lock.isSome then none
    else if s.isRunning then some (s.plane,some .pauseFlag,[])
    else some (leaveCall c s.plane none)
  | .pauseFlag =>
    if s.sup.stopping then some (leaveCall c s.plane none) else some (s.plane,some .pauseSwap,[])
  | .pauseSwap =>
    if s.plane.paused then some (leaveCall c s.plane none)
    else some ({s.plane with paused := true},some .pauseHold,[])
  | .pauseHold => some (s.plane.hold s.now,some .pauseStop,[])
  | .pauseStop => some (s.plane.lower.unlock,none,[.bridgeStopped c,.returned c none])
  | .resuming => (s.plane.acquire (.call c)).map fun p => (p,some .resumeRunning,[])
  | .resumeRunning =>
    if s.sup.lock.isSome then none
    else if s.isRunning then some (s.plane,some .resumeFlag,[])
    else some (leaveCall c s.plane (some (.internal "no session to resume TUN for")))
  | .resumeFlag =>
    if s.sup.stopping then
      some (leaveCall c s.plane (some (.internal "no session to resume TUN for")))
    else some (s.plane,some .resumePaused,[])
  | .resumePaused =>
    if s.plane.paused then some (s.plane,some .resumeLive,[])
    else some (leaveCall c s.plane none)
  | .resumeLive =>
    match s.plane.live.filter fun live => live.2.config.isTun with
    | none =>
      some (leaveCall c s.plane
        (some (.internal "no live session to re-raise the TUN data plane on")))
    | some (w,live) => some (s.plane,some (.resumeStart w live),[])
  | .resumeStart w _ =>
    match error with
    | some e => some (leaveCall c s.plane.lower (some e))
    | none => some (s.plane.raise w,some .recheckFlag,[.bridgeStarted c w])
  | .recheckFlag => some (s.plane,some (if s.sup.stopping then .resumeStop else .recheckRunning),[])
  | .recheckRunning =>
    if s.sup.lock.isSome then none
    else some (s.plane,some (if s.isRunning then .resumeHold else .resumeStop),[])
  | .resumeStop =>
    some (s.plane.lower.unlock,none,
      [.bridgeStopped c,.returned c (some (.internal "session stopped during TUN resume"))])
  | .resumeHold => some (s.plane.hold s.now,some .resumeClear,[])
  | .resumeClear => some (leaveCall c {s.plane with paused := false} none)

/-- One step of a call that pauses or resumes the bridge. -/
def callStep (s : World) (c : ℕ) (error : Option CoreError) : Option (World × List Event) :=
  match s.calls c with
  | none => none
  | some call =>
    (s.callAdvance c error call).map fun (plane,call',events) =>
      ({s with plane := plane, calls := Function.update s.calls c call'},events)

end World

/-- Is a call of the supervisor one that starts a session? -/
def isStart : SessionSupervisor.Call → Bool
  | .starting _ | .opening _ | .reaping _ _ | .spawning _ => true
  | _ => false

/-- Does a start keep the lock of the data plane? -/
def keepsControl : Option SessionSupervisor.Call → Bool
  | some (.opening _) | some (.reaping _ _) | some (.spawning _) => true
  | _ => false

/-- Does a call of the supervisor tell the bridge to abort? -/
def aborts : SessionSupervisor.Call → Bool
  | .beginAborting _ | .aborting _ => true
  | _ => false

/-- A start that goes as far as spawning withdraws what an earlier session left. -/
def resetPlane (p : Plane) : SessionSupervisor.Call → Plane
  | .spawning r => if r.refusal=none then {p with paused := false, live := none} else p
  | _ => p

/-- The thread that a start spawns. -/
def spawn (config : SessionConfig) (w : ℕ) (fault : Option String) (threads : ℕ → Option Thread) :
    SessionSupervisor.Call → ℕ → Option Thread
  | .spawning r =>
    if r.refusal=none ∧ fault=none then Function.update threads w (some (Thread.new config))
    else threads
  | _ => threads

namespace World

/-- One step of a start, which has the lock of the data plane. -/
def startStep (s : World) (c : ℕ) (fault : Option String) (call : SessionSupervisor.Call)
    (sup : Supervisor) : World :=
  let plane := resetPlane s.plane call
  {s with
    sup := sup
    plane := if keepsControl (sup.calls c) then plane else plane.unlock
    threads := spawn (s.configs c) s.sup.nextWorker fault s.threads call}

/-- One step of a start or a stop of a session. An abort of the bridge may bring
it down. -/
def supStep (s : World) (c : ℕ) (expired : Bool) (fault : Option String) (lowers : Bool) :
    Option (World × List Event) :=
  match s.sup.calls c with
  | none => none
  | some call =>
    match s.sup.advance c expired fault call with
    | none => none
    | some (sup,events) =>
      if isStart call then
        if s.plane.control=some (.start c) then
          some (s.startStep c fault call sup,events.map .supervisor)
        else none
      else
        some ({s with
          sup := sup
          plane := if aborts call && lowers then s.plane.lower else s.plane},
          events.map .supervisor)

/-- A step of the supervisor that concerns nothing else. -/
def supOnly (s : World) (a : SessionSupervisor.Action) : Option (World × List Event) :=
  (s.sup.exec a).map fun (sup,events) => ({s with sup := sup},events.map .supervisor)

end World

/-- What may happen next. -/
inductive Action where
  /-- A start of a session with its settings. -/
  | callStart (c : ℕ) (r : StartRequest) (config : SessionConfig)
  | callStop (c : ℕ) (begins : Bool)
  /-- A start takes the lock of the data plane, before it looks at the flag. -/
  | lockStart (c : ℕ)
  /-- A step of a start or a stop. -/
  | sup (c : ℕ) (expired : Bool) (fault : Option String) (lowers : Bool)
  /-- A step of the thread of a session. -/
  | thread (w : ℕ) (input : Input)
  /-- A thread has nothing left to do. -/
  | finish (w : ℕ)
  /-- A thread is gone. -/
  | exit (w : ℕ)
  /-- A call pauses or resumes the bridge. -/
  | callTun (c : ℕ) (resume : Bool)
  | tun (c : ℕ) (error : Option CoreError)
  | elapse (ms : ℕ)

/-- One step of the whole; nothing when something has to wait. -/
def World.exec (policy : RetryPolicy) (s : World) : Action → Option (World × List Event)
  | .callStart c r config =>
    {s with configs := Function.update s.configs c config}.supOnly (.call c (.start r))
  | .callStop c begins => s.supOnly (.call c (if begins then .beginStop else .stop))
  | .lockStart c =>
    match s.sup.calls c with
    | some (.starting _) =>
      (s.plane.acquire (.start c)).map fun plane => ({s with plane := plane},[])
    | _ => none
  | .sup c expired fault lowers => s.supStep c expired fault lowers
  | .thread w input => s.threadStep policy w input
  | .finish w =>
    match s.threads w with
    | some th =>
      if th.phase=.done then
        {s with threads := Function.update s.threads w none}.supOnly (.finish w)
      else none
    | none => none
  | .exit w => s.supOnly (.exit w)
  | .callTun c resume =>
    match s.calls c with
    | some _ => none
    | none =>
      some ({s with
        calls := Function.update s.calls c (some (if resume then .resuming else .pausing))},[])
  | .tun c error => s.callStep c error
  | .elapse ms => some ({s with now := s.now+ms},[])

/-- The settings of a start are those it is asked for. -/
def Action.allowed : Action → Bool
  | .callStart _ r config => r.isTun == config.isTun
  | _ => true

/-- Sessions with everything that happens around them. -/
def machine (policy : RetryPolicy) : Machine World Action Event where
  start s := ∃ config, s=World.initial config
  allowed _ a := a.allowed=true
  exec := World.exec policy

/-- A session alone: what it reads and what wakes it may be anything. -/
def loop (policy : RetryPolicy) : Machine Thread (View × Input) ThreadEvent where
  start th := ∃ config, th=Thread.new config
  allowed _ _ := True
  exec th a := (th.advance policy a.1 th.phase a.2).map fun (th',_,events) => (th',events)

/-- What the thread of a session has done. -/
def history (w : ℕ) (t : List Event) : List ThreadEvent :=
  t.filterMap fun
    | .thread w' e => if w'=w then some e else none
    | _ => none

/-- What is found by executing actions of sessions that meet a condition is found in
a run. -/
theorem exists_session_run (policy : RetryPolicy) (config : SessionConfig)
    (cond : World → Action → Bool) (actions : List Action) (P : List Event → World → Prop)
    [∀ t s, Decidable (P t s)]
    (h : ((machine policy).replay (fun s a => a.allowed && cond s a) (World.initial config)
      actions).any (fun r => decide (P r.2 r.1))=true) :
    ∃ t s, (machine policy).Run (fun _ s a => cond s a=true) t s ∧ P t s :=
  Machine.exists_run _ (fun _ _ _ hpass => Bool.and_eq_true_iff.mp hpass) ⟨config,rfl⟩ actions h

/-- An engine with a TUN device. -/
def tunConfig : SessionConfig := ⟨.aether,.tun,false⟩

/-- A start of it with a descriptor of the platform. -/
def tunRequest : StartRequest := ⟨true,true,false,.ok ⟨"aether",true,false⟩⟩

/-- The first session is started and comes up to the point where it starts the bridge. -/
def upToBridge : List Action :=
  [.callStart 0 tunRequest tunConfig,.lockStart 0,.sup 0 false none false,.sup 0 false none false,
    .sup 0 false none false,.thread 0 (.runtime none),.thread 0 .proceed,
    .thread 0 (.backendUp (SessionEndpoints.localEndpoints 1819)),.thread 0 .proceed,
    .thread 0 .proceed]

/-- What can be seen of that. -/
def seenUpToBridge : List Event :=
  [.supervisor (.spawned 0),.supervisor (.returned 0 none),.thread 0 (.attempt 0),
    .thread 0 (.started .carrier 0)]

end MsnGuard.SessionThreads
