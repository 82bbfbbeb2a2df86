import MsnGuard.IpAddresses
import MsnGuard.SessionSupervisor

/-!
# The endpoint of the TUN bridge

A session brings its backend up and, when Psiphon is to be the exit, Psiphon in front of it.
Then it publishes the endpoints for the TUN bridge and serves until something ends. Other
threads pause the bridge and raise it again from what the session published.
-/

namespace MsnGuard.SessionEndpoints

open RustText IpAddresses TransitionRuns SessionSupervisor

/-- The engines a session can run on. -/
inductive Backend where
  | aether
  | psiphon
  deriving DecidableEq

/-- What a session offers. -/
inductive Mode where
  | proxy
  | tun
  deriving DecidableEq

/-- The settings of a session that its loop reads. -/
structure SessionConfig where
  /-- The engine. -/
  backend : Backend
  /-- Proxies only, or a TUN device as well. -/
  mode : Mode
  /-- Psiphon is started in front of the engine. -/
  throughTunnel : Bool
  deriving DecidableEq

/-- Does the session have a TUN device? -/
def SessionConfig.isTun (config : SessionConfig) : Bool := config.mode=.tun

/-- Does the session have Psiphon in front of another engine? -/
def SessionConfig.chained (config : SessionConfig) : Bool :=
  config.throughTunnel && config.backend≠.psiphon

/-- What a backend brought up. -/
structure Endpoints where
  /-- The SOCKS listener. -/
  socks : Option SocketAddr
  /-- The HTTP listener. -/
  http : Option SocketAddr
  /-- The servers it may dial. -/
  peerIp : Option Text
  /-- Does the SOCKS listener carry UDP? -/
  udp : Bool
  /-- Is the gateway of Psiphon used for names? -/
  psiphonDns : Bool
  deriving DecidableEq

/-- What the session publishes for the bridge. -/
structure LiveTun where
  /-- The settings of the session. -/
  config : SessionConfig
  /-- The endpoints of the attempt. -/
  endpoints : Endpoints

/-- When the session tries again. -/
structure RetryPolicy where
  /-- Does it try again at all? -/
  autoReconnect : Bool
  /-- How often in a row, zero for any number. -/
  maxReconnects : ℕ

/-- Errors that do not go away by trying again. -/
def isTransient : CoreError → Bool
  | .notInitialized | .nullArgument _ | .abiMismatch _ | .invalidConfig _ | .backendUnavailable _
  | .permissionDenied _ => false
  | .alreadyRunning | .startFailed _ | .timeout _ | .internal _ => true

/-- Is there another attempt? -/
def shouldRetry (policy : RetryPolicy) (attempt : ℕ) (cancelled : Bool) : Bool :=
  policy.autoReconnect && !cancelled &&
    (policy.maxReconnects=0 || decide (attempt<policy.maxReconnects))

/-- Start Psiphon in front of an engine; how it ends is known with it. -/
def startPsiphonThroughTunnel (aether : Endpoints) (result : Except CoreError Endpoints) :
    Except CoreError Endpoints :=
  match aether.socks with
  | none => .error (.startFailed "Psiphon through the tunnel needs Aether's SOCKS listener")
  | some _ => result

/-- Where the loop of a session stands. -/
inductive Phase where
  /-- There is no session. -/
  | idle
  /-- The engine is being started. -/
  | connecting
  /-- The exit is being started in front of the engine. -/
  | chaining (carrier : Endpoints)
  /-- The endpoints are known and not published yet. -/
  | raising (endpoints : Endpoints) (hasExit : Bool)
  | serving (endpoints : Endpoints) (hasExit carrierUp : Bool)
  /-- The engine is back and the exit is being started again. -/
  | restarting (endpoints carrier : Endpoints)
  /-- The attempt is over and the endpoints are still published. -/
  | ending (outcome : Option CoreError)
  | ended (outcome : Option CoreError)
  /-- The pause before the next attempt. -/
  | waiting
  /-- The loop returns; what it published is withdrawn with it. -/
  | returning (outcome : Option CoreError)

/-- An attempt: the number of the session, and of the attempt in it. -/
abbrev AttemptId := ℕ × ℕ

/-- What can be seen from outside. -/
inductive Event where
  | carrierStarted (id : AttemptId) (endpoints : Endpoints)
  | exitStarted (id : AttemptId) (endpoints : Endpoints)
  | bridgeStarted (id : AttemptId) (config : SessionConfig) (endpoints : Endpoints)
  | bridgeStopped
  | returned (id : AttemptId) (outcome : Option CoreError)

/-- A session with what other threads share with it. -/
structure Session where
  /-- The settings. -/
  config : SessionConfig
  /-- The number of the session. -/
  number : ℕ
  /-- The number of the attempt. -/
  attempt : ℕ
  /-- Is the session told to end? -/
  cancelled : Bool
  /-- Is the bridge paused? -/
  tunPaused : Bool
  /-- What is published for the bridge. -/
  liveTun : Option LiveTun
  /-- Where the loop stands. -/
  phase : Phase

/-- The running attempt. -/
def Session.id (s : Session) : AttemptId := (s.number,s.attempt)

/-- What wakes the loop. -/
inductive Input where
  /-- The session sees that it is told to end. -/
  | cancelSeen
  | backendUp (endpoints : Endpoints)
  | backendFailed (e : CoreError)
  | carrierEnded (outcome : Option CoreError) (detail : String)
  | exitResult (result : Except CoreError Endpoints)
  /-- The attempt of the bridge to start gives an error or none. -/
  | bridgeResult (error : Option CoreError)
  | exitEnded (outcome : Option CoreError)
  | carrierChanged (carrier : Endpoints)
  | pumpEnded (outcome : Option CoreError)
  /-- Nothing to wait for. -/
  | proceed

namespace Session

/-- The end of an attempt whose exit did not come up. -/
def chainFailed (s : Session) (e : CoreError) : Session :=
  {s with phase := .returning (if s.cancelled then none else some e)}

/-- The next attempt, or the end of the session. -/
def retry (policy : RetryPolicy) (s : Session) (outcome : Option CoreError) : Session :=
  if outcome=none ∧ s.cancelled=true then {s with phase := .returning none}
  else if shouldRetry policy s.attempt s.cancelled then
    {s with attempt := s.attempt+1, phase := .waiting}
  else {s with phase := .returning outcome}

/-- One step of the loop. -/
def advance (policy : RetryPolicy) (s : Session) : Phase → Input → Option (Session × List Event)
  | .connecting,.cancelSeen | .waiting,.cancelSeen => some ({s with phase := .returning none},[])
  | .connecting,.backendUp endpoints =>
    some ({s with
      phase := if s.config.chained then .chaining endpoints else .raising endpoints false},
      [.carrierStarted s.id endpoints])
  | .connecting,.backendFailed e =>
    if isTransient e && shouldRetry policy s.attempt s.cancelled then
      some ({s with attempt := s.attempt+1, phase := .waiting},[])
    else some ({s with phase := .returning (some e)},[])
  | .chaining _,.carrierEnded _ detail =>
    some (s.chainFailed (.startFailed ("Aether dropped while Psiphon was connecting" ++ detail)),[])
  | .chaining carrier,.exitResult result =>
    match startPsiphonThroughTunnel carrier result with
    | .error e => some (s.chainFailed e,[])
    | .ok exit =>
      if exit.socks=none then
        some ({s with
          phase := .returning (some (.startFailed "Psiphon exit has no SOCKS endpoint"))},
          [.exitStarted s.id exit])
      else
        some ({s with phase := .raising {exit with peerIp := carrier.peerIp} true},
          [.exitStarted s.id exit])
  | .raising endpoints hasExit,.bridgeResult error =>
    let published := {s with liveTun := some ⟨s.config,endpoints⟩}
    if s.config.isTun && !s.cancelled && !s.tunPaused then
      match error with
      | some e =>
        some ({published with phase := .returning (some e)},
          [.bridgeStarted s.id s.config endpoints])
      | none =>
        some ({published with phase := .serving endpoints hasExit true},
          [.bridgeStarted s.id s.config endpoints])
    else if s.cancelled then some ({published with phase := .returning none},[.bridgeStopped])
    else some ({published with phase := .serving endpoints hasExit true},[])
  | .serving _ _ _,.cancelSeen | .restarting _ _,.cancelSeen =>
    some ({s with phase := .returning none},[.bridgeStopped])
  | .serving _ _ _,.carrierEnded outcome _ | .serving _ true _,.exitEnded outcome
  | .serving _ _ _,.pumpEnded outcome | .restarting _ _,.carrierEnded outcome _ =>
    some ({s with phase := .ending outcome},[])
  | .serving endpoints _ carrierUp,.carrierChanged carrier =>
    if s.config.chained then
      if carrierUp then some ({s with phase := .serving endpoints false false},[])
      else some ({s with phase := .restarting endpoints carrier},[])
    else none
  | .restarting endpoints carrier,.exitResult result =>
    match startPsiphonThroughTunnel carrier result with
    | .error e => some ({s with phase := .ending (some e)},[])
    | .ok exit =>
      if exit.socks=endpoints.socks then
        some ({s with phase := .serving endpoints true true},[.exitStarted s.id exit])
      else
        some ({s with
          phase := .ending (some (.internal "Psiphon exit came back on another port"))},
          [.exitStarted s.id exit])
  | .ending outcome,.proceed =>
    some ({s with liveTun := none, phase := .ended outcome},[.bridgeStopped])
  | .ended outcome,.proceed => some (s.retry policy outcome,[])
  | .waiting,.proceed => some ({s with phase := .connecting},[])
  | .returning outcome,.proceed =>
    some ({s with liveTun := none, tunPaused := false, phase := .idle},[.returned s.id outcome])
  | _,_ => none

end Session

/-- What the session and the other threads do. -/
inductive Action where
  /-- A start, which waits until there is no session any more. -/
  | start (config : SessionConfig)
  | cancel
  /-- The loop goes on. -/
  | loop (input : Input)
  /-- The bridge is paused, if the caller finds a session that is not being stopped. -/
  | pauseTun (isRunning stopping : Bool)
  /-- The bridge is raised again; the session may be stopped in the meantime. -/
  | resumeTun (isRunning stopping : Bool) (error : Option CoreError) (stoppedAfter : Bool)

/-- One step of the whole. -/
def Session.exec (policy : RetryPolicy) (s : Session) : Action → Option (Session × List Event)
  | .start config =>
    match s.phase with
    | .idle =>
      some ({s with
        config := config
        number := s.number+1
        attempt := 0
        cancelled := false
        tunPaused := false
        liveTun := none
        phase := .connecting},[])
    | _ => none
  | .cancel => some ({s with cancelled := true},[])
  | .loop input => s.advance policy s.phase input
  | .pauseTun isRunning stopping =>
    if !isRunning || stopping || s.tunPaused then some (s,[])
    else some ({s with tunPaused := true},[.bridgeStopped])
  | .resumeTun isRunning stopping error stoppedAfter =>
    if !isRunning || stopping || !s.tunPaused then some (s,[])
    else match s.liveTun.filter (fun live => live.config.isTun) with
      | none => some (s,[])
      | some live =>
        match error,stoppedAfter with
        | some _,_ => some (s,[.bridgeStarted s.id live.config live.endpoints])
        | none,true => some (s,[.bridgeStarted s.id live.config live.endpoints,.bridgeStopped])
        | none,false =>
          some ({s with tunPaused := false},[.bridgeStarted s.id live.config live.endpoints])

/-- Before the first session. -/
def Session.initial (config : SessionConfig) : Session :=
  ⟨config,0,0,false,false,none,.idle⟩

/-- Sessions one after the other, with other threads beside them. -/
def machine (policy : RetryPolicy) : Machine Session Action Event where
  start s := ∃ config, s=Session.initial config
  allowed _ _ := True
  exec := Session.exec policy

/-- The SOCKS address of the endpoints was reported by an exit of the attempt. -/
def Reported (t : List Event) (id : AttemptId) (endpoints : Endpoints) : Prop :=
  ∃ exit : Endpoints, .exitStarted id exit∈t ∧ exit.socks=endpoints.socks ∧ endpoints.socks≠none

/-- A bridge of a session with a chained exit is started on an address that an
exit of the running attempt has reported before. -/
def ThroughExit (before : List Event) : Event → Prop
  | .bridgeStarted id config endpoints => config.chained=true → Reported before id endpoints
  | _ => True

/-- Phases in which nothing is published. -/
def Phase.dark : Phase → Prop
  | .idle | .connecting | .chaining _ | .raising _ _ | .ended _ | .waiting => True
  | .serving _ _ _ | .restarting _ _ | .ending _ | .returning _ => False

/-- What holds between the loop, what is published and the history. -/
structure Sound (t : List Event) (s : Session) : Prop where
  /-- What is published belongs to the running attempt. -/
  published : ∀ live, s.liveTun=some live → live.config=s.config ∧
    (s.config.chained=true → Reported t s.id live.endpoints)
  dark : s.phase.dark → s.liveTun=none
  /-- What is about to be published as well. -/
  raising : ∀ endpoints hasExit, s.phase=.raising endpoints hasExit →
    s.config.chained=true → Reported t s.id endpoints
  through : Guarded ThroughExit t

theorem Reported.later {t : List Event} {id : AttemptId} {endpoints : Endpoints}
    (h : Reported t id endpoints) (new : List Event) : Reported (t++new) id endpoints := by
  obtain ⟨exit,hstarted,hsocks,hsome⟩ := h
  exact ⟨exit,List.mem_append_left _ hstarted,hsocks,hsome⟩

namespace Sound

variable {t : List Event} {s : Session}

theorem initial (config : SessionConfig) : Sound [] (Session.initial config) where
  published := nofun
  dark _ := rfl
  raising := nofun
  through := guarded_nil _

/-- With nothing published there is little to keep. -/
theorem unpublished (hthrough : Guarded ThroughExit t) (hlive : s.liveTun=none)
    (hphase : ∀ endpoints hasExit, s.phase≠.raising endpoints hasExit) : Sound t s where
  published live hsome := by
    rw [hlive] at hsome
    cases hsome
  dark _ := hlive
  raising endpoints hasExit heq := absurd heq (hphase endpoints hasExit)
  through := hthrough

/-- The loop goes on in the same attempt. -/
theorem goto (h : Sound t s) (phase : Phase) (hdark : phase.dark → s.liveTun=none)
    (hraising : ∀ endpoints hasExit, phase=.raising endpoints hasExit →
      s.config.chained=true → Reported t s.id endpoints) : Sound t {s with phase := phase} where
  __ := h
  dark := hdark
  raising := hraising

/-- The loop goes on to a phase in which the endpoints may be published. -/
theorem lit (h : Sound t s) (phase : Phase) (hdark : ¬phase.dark) :
    Sound t {s with phase := phase} := by
  refine h.goto phase (fun hd => absurd hd hdark) ?_
  rintro endpoints hasExit rfl
  exact absurd trivial hdark

/-- The history grows. -/
theorem append (h : Sound t s) (e : Event) (he : ThroughExit t e) : Sound (t++[e]) s where
  published live hlive := by
    obtain ⟨hconfig,hreported⟩ := h.published live hlive
    exact ⟨hconfig,fun hchained => (hreported hchained).later _⟩
  dark := h.dark
  raising endpoints hasExit hphase hchained := (h.raising endpoints hasExit hphase hchained).later _
  through := h.through.concat he

/-- The endpoints are published. -/
theorem publish (h : Sound t s) {endpoints : Endpoints} {hasExit : Bool}
    (hphase : s.phase=.raising endpoints hasExit) (phase : Phase) (hdark : ¬phase.dark) :
    Sound t {s with liveTun := some ⟨s.config,endpoints⟩, phase := phase} where
  published := by
    rintro live ⟨⟩
    exact ⟨rfl,h.raising endpoints hasExit hphase⟩
  dark hd := absurd hd hdark
  raising := by
    rintro endpoints' hasExit' rfl
    exact absurd trivial hdark
  through := h.through

end Sound

/-- Every state that a step leads to keeps what holds. -/
def Keeps (t : List Event) (next : Option (Session × List Event)) : Prop :=
  ∀ s' new, next=some (s',new) → Sound (t++new) s'

theorem keeps_none (t : List Event) : Keeps t none := by rintro s' new ⟨⟩

theorem keeps_some {t new : List Event} {s : Session} (h : Sound (t++new) s) :
    Keeps t (some (s,new)) := by
  rintro s' new' ⟨⟩
  exact h

theorem keeps_silent {t : List Event} {s : Session} (h : Sound t s) : Keeps t (some (s,[])) :=
  keeps_some (by rwa [List.append_nil])

section Steps

variable {t : List Event} {s : Session} (policy : RetryPolicy)
variable {carrier endpoints : Endpoints} {hasExit : Bool}

section

variable (h : Sound t s)

include h

theorem keeps_connecting (hphase : s.phase=.connecting) (input : Input) :
    Keeps t (s.advance policy .connecting input) := by
  have hlive : s.liveTun=none := h.dark (by rw [hphase]; trivial)
  cases input with
  | cancelSeen => exact keeps_silent (h.lit _ id)
  | backendUp endpoints =>
    refine keeps_some ((h.append (.carrierStarted s.id endpoints) trivial).goto _ (fun _ => hlive) ?_)
    intro endpoints' hasExit heq hchained
    rw [if_pos hchained] at heq
    cases heq
  | backendFailed e =>
    simp only [Session.advance]
    split
    · exact keeps_silent (Sound.unpublished h.through hlive (by simp))
    · exact keeps_silent (h.lit _ id)
  | _ => exact keeps_none t

theorem keeps_chaining (hphase : s.phase=.chaining carrier) (input : Input) :
    Keeps t (s.advance policy (.chaining carrier) input) := by
  have hlive : s.liveTun=none := h.dark (by rw [hphase]; trivial)
  cases input with
  | carrierEnded outcome detail => exact keeps_silent (h.lit _ id)
  | exitResult result =>
    simp only [Session.advance]
    split
    · exact keeps_silent (h.lit _ id)
    · rename_i exit hexit
      split
      · exact keeps_some ((h.append (.exitStarted s.id exit) trivial).lit _ id)
      · rename_i hsocks
        refine keeps_some ((h.append (.exitStarted s.id exit) trivial).goto _ (fun _ => hlive) ?_)
        rintro endpoints hasExit ⟨⟩ _
        exact ⟨exit,by simp [Session.id],rfl,hsocks⟩
  | _ => exact keeps_none t

/-- The endpoints are published and the bridge is started on them. -/
theorem keeps_raising (hphase : s.phase=.raising endpoints hasExit)
    (input : Input) : Keeps t (s.advance policy (.raising endpoints hasExit) input) := by
  cases input with
  | bridgeResult error =>
    have hthrough : ThroughExit t (.bridgeStarted s.id s.config endpoints) :=
      h.raising endpoints hasExit hphase
    simp only [Session.advance]
    split
    · cases error with
      | some e | none => exact keeps_some ((h.publish hphase _ id).append _ hthrough)
    · split
      · exact keeps_some ((h.publish hphase _ id).append _ trivial)
      · exact keeps_silent (h.publish hphase _ id)
  | _ => exact keeps_none t

theorem keeps_serving {carrierUp : Bool} (input : Input) :
    Keeps t (s.advance policy (.serving endpoints hasExit carrierUp) input) := by
  cases input with
  | cancelSeen => exact keeps_some ((h.lit _ id).append _ trivial)
  | carrierEnded outcome detail | pumpEnded outcome => exact keeps_silent (h.lit _ id)
  | exitEnded outcome =>
    cases hasExit with
    | true => exact keeps_silent (h.lit _ id)
    | false => exact keeps_none t
  | carrierChanged carrier =>
    simp only [Session.advance]
    split
    · split
      · exact keeps_silent (h.lit _ id)
      · exact keeps_silent (h.lit _ id)
    · exact keeps_none t
  | _ => exact keeps_none t

theorem keeps_restarting (input : Input) :
    Keeps t (s.advance policy (.restarting endpoints carrier) input) := by
  cases input with
  | cancelSeen => exact keeps_some ((h.lit _ id).append _ trivial)
  | carrierEnded outcome detail => exact keeps_silent (h.lit _ id)
  | exitResult result =>
    simp only [Session.advance]
    split
    · exact keeps_silent (h.lit _ id)
    · rename_i exit _
      split
      · exact keeps_some ((h.append (.exitStarted s.id exit) trivial).lit _ id)
      · exact keeps_some ((h.append (.exitStarted s.id exit) trivial).lit _ id)
  | _ => exact keeps_none t

theorem keeps_ended {outcome : Option CoreError} (hphase : s.phase=.ended outcome)
    (input : Input) : Keeps t (s.advance policy (.ended outcome) input) := by
  have hlive : s.liveTun=none := h.dark (by rw [hphase]; trivial)
  cases input with
  | proceed =>
    simp only [Session.advance,Session.retry]
    split
    · exact keeps_silent (h.lit _ id)
    · split
      · exact keeps_silent (Sound.unpublished h.through hlive (by simp))
      · exact keeps_silent (h.lit _ id)
  | _ => exact keeps_none t

/-- Every step of the loop keeps what holds. -/
theorem keeps_advance (input : Input) : Keeps t (s.advance policy s.phase input) := by
  cases hphase : s.phase with
  | idle => cases input <;> exact keeps_none t
  | connecting => exact keeps_connecting policy h hphase input
  | chaining carrier => exact keeps_chaining policy h hphase input
  | raising endpoints hasExit => exact keeps_raising policy h hphase input
  | serving endpoints hasExit carrierUp => exact keeps_serving policy h input
  | restarting endpoints carrier => exact keeps_restarting policy h input
  | ending outcome | returning outcome =>
    cases input with
    | proceed =>
      exact keeps_some (Sound.unpublished (h.through.concat trivial) rfl (by simp))
    | _ => exact keeps_none t
  | ended outcome => exact keeps_ended policy h hphase input
  | waiting =>
    have hlive : s.liveTun=none := h.dark (by rw [hphase]; trivial)
    cases input with
    | cancelSeen => exact keeps_silent (h.lit _ id)
    | proceed => exact keeps_silent (Sound.unpublished h.through hlive (by simp))
    | _ => exact keeps_none t

/-- The bridge is raised again on what the running attempt has published. -/
theorem keeps_resume (isRunning stopping : Bool) (error : Option CoreError)
    (stoppedAfter : Bool) :
    Keeps t (s.exec policy (.resumeTun isRunning stopping error stoppedAfter)) := by
  simp only [Session.exec]
  split
  · exact keeps_silent h
  · split
    · exact keeps_silent h
    · rename_i live hfilter
      have hlive : s.liveTun=some live := (Option.filter_eq_some_iff.mp hfilter).1
      obtain ⟨hconfig,hreported⟩ := h.published live hlive
      have hthrough : ThroughExit t (.bridgeStarted s.id live.config live.endpoints) := by
        intro hchained
        rw [hconfig] at hchained
        exact hreported hchained
      cases error with
      | some e => exact keeps_some (h.append _ hthrough)
      | none =>
        cases stoppedAfter with
        | true =>
          have hstopped := (h.append _ hthrough).append .bridgeStopped trivial
          rw [List.append_assoc] at hstopped
          exact keeps_some hstopped
        | false =>
          have hresumed := h.append _ hthrough
          exact keeps_some ⟨hresumed.published,hresumed.dark,hresumed.raising,hresumed.through⟩

/-- Every step of the whole keeps what holds. -/
theorem keeps_exec (a : Action) : Keeps t (s.exec policy a) := by
  cases a with
  | start config =>
    simp only [Session.exec]
    split
    · exact keeps_silent (Sound.unpublished h.through rfl (by simp))
    · exact keeps_none t
  | cancel => exact keeps_silent ⟨h.published,h.dark,h.raising,h.through⟩
  | loop input => exact keeps_advance policy h input
  | pauseTun isRunning stopping =>
    simp only [Session.exec]
    split
    · exact keeps_silent h
    · have hpaused := h.append .bridgeStopped trivial
      exact keeps_some ⟨hpaused.published,hpaused.dark,hpaused.raising,hpaused.through⟩
  | resumeTun isRunning stopping error stoppedAfter =>
    exact keeps_resume policy h isRunning stopping error stoppedAfter

end

end Steps

/-- In every run of sessions, a bridge of a session with a chained exit is only
started on an address that an exit of the running attempt has reported. -/
theorem bridge_through_exit {policy : RetryPolicy} {t : List Event} {s : Session}
    (h : (machine policy).Run always t s) : Guarded ThroughExit t := by
  have hsound : Sound t s := by
    refine h.invariant Sound ?_ ?_
    · rintro _ ⟨config,rfl⟩
      exact Sound.initial config
    · intro t s a s' new hs _ _ hexec
      exact keeps_exec policy hs a s' new hexec
  exact hsound.through

/-- Psiphon in front of the engine, with a TUN device. -/
def chainedConfig : SessionConfig := ⟨.aether,.tun,true⟩

/-- Endpoints with a SOCKS listener on the given port of this machine. -/
def localEndpoints (port : ℕ) : Endpoints :=
  ⟨some ⟨.v4 (ipv4OfOctets 127 0 0 1),port⟩,none,none,false,false⟩

/-- The exit comes up, the bridge is started on it, paused and raised again: both
times the address is the one of the exit. -/
theorem resumed_through_exit : Guarded ThroughExit [.carrierStarted (1,0) (localEndpoints 1819),
    .exitStarted (1,0) (localEndpoints 1080),.bridgeStarted (1,0) chainedConfig (localEndpoints 1080),
    .bridgeStopped,.bridgeStarted (1,0) chainedConfig (localEndpoints 1080)] := by
  have hidle : (machine ⟨true,0⟩).Run always [] (Session.initial chainedConfig) := .start ⟨_,rfl⟩
  have hstarted := hidle.next (.start chainedConfig) trivial trivial rfl
  have hcarrier := hstarted.next (.loop (.backendUp (localEndpoints 1819))) trivial trivial rfl
  have hexit := hcarrier.next (.loop (.exitResult (.ok (localEndpoints 1080)))) trivial trivial rfl
  have hraised := hexit.next (.loop (.bridgeResult none)) trivial trivial rfl
  have hpaused := hraised.next (.pauseTun true false) trivial trivial rfl
  have hresumed := hpaused.next (.resumeTun true false none false) trivial trivial rfl
  exact bridge_through_exit hresumed

end MsnGuard.SessionEndpoints
