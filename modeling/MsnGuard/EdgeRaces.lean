import MsnGuard.DnsQueries
import MsnGuard.FiniteTables
import MsnGuard.KotlinText
import MsnGuard.TransitionRuns

/-!
# The race of the address resolvers

The resolver of edge addresses asks several endpoints at once and takes the first answer. An
endpoint whose first request throws is left out of the next races, and a request that is
cancelled because another has won throws as well. No endpoint is left out for another cause than
its own failure as long as no first request is cancelled.
-/

namespace MsnGuard.EdgeRaces

open DnsQueries FiniteTables KotlinText TransitionRuns
open RustText hiding trim isWhitespace
open SmartDnsMessages (word)

def dnsTypeA : ℕ := 1

def dnsTypeAaaa : ℕ := 28

def dnsLabelMaxBytes : ℕ := 63

def dnsNameMaxBytes : ℕ := 255

/-- The largest answer that is read. -/
def maxResponseBytes : ℕ := 4096

/-- How long an answer is used again. -/
def cacheTtlMs : ℤ := 5*60000

/-- How long an endpoint is left out after a failure. -/
def failureBackoffMs : ℤ := 30*60000

section Messages

/-- `buildQuery`: nothing for a name without labels, with a label that is too long or that is too
long as a whole. -/
def buildQuery (hostname : Text) (type : ℕ) : Option Bytes :=
  let labels := ((pieces hostname).filter fun label => !label.isEmpty).map asciiBytes
  if labels.isEmpty then none
  else if labels.any fun label => label.isEmpty || dnsLabelMaxBytes<label.length then none
  else if dnsNameMaxBytes<1+(labels.map fun label => 1+label.length).sum then none
  else some (layout (head 0) labels (UInt16.ofNat type))

/-- `skipName`: the place behind a name that begins at a place. -/
def skipName (message : Bytes) (offset : ℕ) : Option ℕ := labelsFrom offset 0
where
  labelsFrom (offset consumed : ℕ) : Option ℕ :=
    match message[offset]? with
    | none => none
    | some length =>
      if length=0 then some (offset+1)
      else if length &&& 0xC0=0xC0 then
        if offset+2 ≤ message.length then some (offset+2) else none
      else if dnsLabelMaxBytes<length.toNat then none
      else if dnsNameMaxBytes<consumed+(1+length.toNat) then none
      else labelsFrom (offset+(1+length.toNat)) (consumed+(1+length.toNat))
  termination_by dnsNameMaxBytes-consumed

/-- The place behind a number of questions. -/
def skipQuestions (message : Bytes) : ℕ → ℕ → Option ℕ
  | 0,offset => some offset
  | count+1,offset =>
    (skipName message offset).bind fun next => skipQuestions message count (next+4)

/-- The length of an address of a type. -/
def expectedRdLength (wantType : ℕ) : ℕ := if wantType=dnsTypeA then 4 else 16

/-- The addresses among a number of records, up to the first that is cut off. -/
def recordAddresses (hostAddress : Bytes → Text) (message : Bytes) (wantType : ℕ) :
    ℕ → ℕ → List Text
  | 0,_ => []
  | count+1,start =>
    match skipName message start with
    | none => []
    | some offset =>
      if message.length<offset+10 then []
      else
        let type := word message offset
        let rdLength := word message (offset+8)
        if message.length<offset+10+rdLength then []
        else
          let rest := recordAddresses hostAddress message wantType count (offset+10+rdLength)
          if type=wantType ∧ rdLength=expectedRdLength wantType then
            hostAddress ((message.drop (offset+10)).take rdLength)::rest
          else rest

/-- `parseAddresses`: the addresses of a type in an answer. -/
def parseAddresses (hostAddress : Bytes → Text) (response : Bytes) (wantType : ℕ) : List Text :=
  if response.length<12 then []
  else if (response.getD 3 0) &&& 0x0F≠0 then []
  else if word response 6=0 then []
  else match skipQuestions response (word response 4) 12 with
    | none => []
    | some offset => recordAddresses hostAddress response wantType (word response 6) offset

/-- What `post` returns of a complete answer; it throws on a status without success and on a body
that is too long. -/
def post (code : ℕ) (body : Bytes) : Option Bytes :=
  if ¬(200≤code ∧ code<300) then none
  else if maxResponseBytes<body.length then none
  else some body

/-- `isAddressLiteral`: anything with a colon, and four numbers of one byte. -/
def isAddressLiteral (host : Text) : Bool :=
  if host.contains ':' then true
  else
    let parts := pieces host
    decide (parts.length=4) && parts.all fun part =>
      !part.isEmpty && decide (part.length≤3) && part.all isDigit &&
        (toIntOrNull part).any fun n => decide (n≤255)

/-- `endpointUrlFor`: the address that is asked at an address literal. -/
def endpointUrlFor (table : CaseTable) (address : Text) : Option Text :=
  let host := toLowercase table (trim address)
  if !isAddressLiteral host then none
  else
    let authority := if host.contains ':' then ['[']++host++[']'] else host
    some ("https://".toList++authority ++ "/dns-query".toList)

end Messages

section Machine

/-- Why a first request came to nothing: on its own, or because it was cancelled. -/
inductive Cause where
  | own
  | cancelled
  deriving DecidableEq

/-- What `queryOne` returns, with the cause behind it if it is nothing. -/
inductive Result where
  | failed (cause : Cause)
  | addresses (list : List Text)

/-- How far an attempt has come. While it asks, its request stands among those in flight; the flags
tell the second request from the first and whether it has been cancelled. -/
inductive Attempt where
  | waiting
  | asking (second cancelled : Bool)
  | between
  | returned (result : Result)
  | recorded (result : Result)
  | ended

/-- What an attempt does or meets: it starts, an answer comes, its request fails, its request fails
because it has been cancelled, it goes on to the second request. -/
inductive Stride where
  | start
  | respond (code : ℕ) (body : Bytes)
  | fail
  | abort
  | again

/-- `queryOne` and `post`: the first request asks for addresses of four bytes, the second, if there
are none, for those of sixteen. -/
def Attempt.stride (hostAddress : Bytes → Text) : Attempt → Stride → Option Attempt
  | .waiting,.start => some (.asking false false)
  | .asking false _,.respond code body =>
    match post code body with
    | none => some (.returned (.failed .own))
    | some response =>
      match parseAddresses hostAddress response dnsTypeA with
      | [] => some .between
      | v4 => some (.returned (.addresses v4))
  | .asking true _,.respond code body =>
    match post code body with
    | none => some (.returned (.addresses []))
    | some response =>
      some (.returned (.addresses (parseAddresses hostAddress response dnsTypeAaaa)))
  | .asking false _,.fail => some (.returned (.failed .own))
  | .asking true _,.fail => some (.returned (.addresses []))
  | .asking false true,.abort => some (.returned (.failed .cancelled))
  | .asking true true,.abort => some (.returned (.addresses []))
  | .between,.again => some (.asking true false)
  | _,_ => none

/-- The cancellation of the request in flight, if there is one. -/
def Attempt.cancelCall : Attempt → Attempt
  | .asking second _ => .asking second true
  | a => a

/-- The cancellation of the job, which stops it only before it has started. -/
def Attempt.cancelJob : Attempt → Attempt
  | .waiting => .ended
  | a => a

/-- Has the attempt come to its end? -/
def Attempt.isEnded : Attempt → Bool
  | .ended => true
  | _ => false

/-- A race is waited for, or closed by cancelling the requests and then the jobs that are left. -/
inductive Phase where
  | awaiting
  | closing (calls jobs : List ℕ)

/-- One call of `queryEndpoints`: the attempts with their endpoints, the number of those without an
answer yet, the answer that won and what is returned, nothing if the caller was cancelled. -/
structure Race where
  host : Text
  attempts : List (Text × Attempt)
  outstanding : ℤ
  winner : Option (Option (Text × List Text))
  phase : Phase
  outcome : Option (List Text)

structure CacheEntry where
  addresses : List Text
  resolvedAtMs : ℤ

/-- The clock, the answers that are kept, the endpoints that are left out and the races. -/
structure Resolver where
  now : ℤ
  cache : AList fun _ : Text => CacheEntry
  suppressedUntilMs : AList fun _ : Text => ℤ
  races : Table Race

/-- The clock moves, a name is resolved, an attempt goes on, its result is recorded and counted, the
race is decided or its caller cancelled, with the order in which the requests are visited, a request
is visited, a job is cancelled, the race returns, the answers are forgotten. -/
inductive Action where
  | clock (now : ℤ)
  | resolve (r : ℕ) (hostname : Text) (endpointAddresses : List Text)
  | advance (r i : ℕ) (stride : Stride)
  | record (r i : ℕ)
  | count (r i : ℕ)
  | await (r : ℕ) (order : List ℕ)
  | cancel (r : ℕ) (order : List ℕ)
  | visit (r : ℕ) (hits : Bool)
  | cancelJob (r : ℕ)
  | leave (r : ℕ)
  | invalidate

/-- An endpoint is left out until a time, with the cause; a name has been resolved. -/
inductive Event where
  | suppressed (endpoint : Text) (cause : Cause) (untilMs : ℤ)
  | resolved (r : ℕ) (address : Option Text)
  deriving DecidableEq

/-- The conversions of the platform. -/
structure Platform where
  table : CaseTable
  hostAddress : Bytes → Text

variable (P : Platform)

def Resolver.isSuppressed (n : Resolver) (endpoint : Text) : Bool :=
  decide (n.now<(n.suppressedUntilMs.lookup endpoint).getD 0)

/-- `resolve` up to the race: an answer at once, or a race with its endpoints. -/
def Resolver.prepare (n : Resolver) (hostname : Text) (endpointAddresses : List Text) :
    Option Text ⊕ Race :=
  let host := toLowercase P.table (trim hostname)
  if endpointAddresses.isEmpty || host.isEmpty || host.any (fun c => decide (128≤c.toNat)) ||
      isAddressLiteral host then .inl none
  else
    match (n.cache.lookup host).filter fun c => decide (n.now-c.resolvedAtMs<cacheTtlMs) with
    | some cached => .inl cached.addresses.head?
    | none =>
      let endpoints := (endpointAddresses.filterMap (endpointUrlFor P.table)).eraseDups.filter
        fun endpoint => !n.isSuppressed endpoint
      if endpoints.isEmpty || (buildQuery host dnsTypeA).isNone ||
          (buildQuery host dnsTypeAaaa).isNone then .inl none
      else .inr
        {host
         attempts := endpoints.map fun endpoint => (endpoint,.waiting)
         outstanding := endpoints.length
         winner := none
         phase := .awaiting
         outcome := none}

/-- The attempt at a place becomes another one. -/
def Race.put (race : Race) (i : ℕ) (endpoint : Text) (a : Attempt) : Race :=
  {race with attempts := race.attempts.set i (endpoint,a)}

/-- The result that is recorded counts: an answer with an address wins if none has won yet, and
without one the race is lost with the last attempt. -/
def Race.counted (race : Race) (endpoint : Text) : Result → Race
  | .addresses (first::rest) =>
    {race with winner := race.winner.or (some (some (endpoint,first::rest)))}
  | _ =>
    let outstanding := race.outstanding-1
    {race with
      outstanding
      winner := if outstanding=0 then race.winner.or (some none) else race.winner}

/-- What a result does to the endpoints that are left out. -/
def Resolver.recorded (n : Resolver) (endpoint : Text) :
    Result → (AList fun _ : Text => ℤ) × List Event
  | .failed cause =>
    (n.suppressedUntilMs.insert endpoint (n.now+failureBackoffMs),
      [.suppressed endpoint cause (n.now+failureBackoffMs)])
  | .addresses [] => (n.suppressedUntilMs,[])
  | .addresses _ => (n.suppressedUntilMs.erase endpoint,[])

/-- The jobs of a race are cancelled before they have started. -/
def Race.cancelJobs (race : Race) : Race :=
  {race with attempts := race.attempts.map fun p => (p.1,p.2.cancelJob)}

/-- What is done to one race, apart from the table of the endpoints. -/
def Race.exec (race : Race) : Action → Option Race
  | .advance _ i stride =>
    match race.attempts[i]? with
    | some (endpoint,a) => (a.stride P.hostAddress stride).map (race.put i endpoint)
    | none => none
  | .count _ i =>
    match race.attempts[i]? with
    | some (endpoint,.recorded result) =>
      some ((race.put i endpoint .ended).counted endpoint result)
    | _ => none
  | .await _ order =>
    match race.phase,race.winner with
    | .awaiting,some result =>
      if order.isPerm (List.range race.attempts.length) then
        some {race with
          phase := .closing order (List.range race.attempts.length)
          outcome := some ((result.map Prod.snd).getD [])}
      else none
    | _,_ => none
  | .cancel _ order =>
    if order.isPerm (List.range race.attempts.length) then
      match race.phase with
      | .awaiting => some {race.cancelJobs with
          phase := .closing order (List.range race.attempts.length),outcome := none}
      | .closing _ _ => some {race.cancelJobs with outcome := none}
    else none
  | .visit _ hits =>
    match race.phase with
    | .closing (i::calls) jobs =>
      let visited := {race with phase := .closing calls jobs}
      match race.attempts[i]? with
      | some (endpoint,a) => some (if hits then visited.put i endpoint a.cancelCall else visited)
      | none => some visited
    | _ => none
  | .cancelJob _ =>
    match race.phase with
    | .closing [] (i::jobs) =>
      let passed := {race with phase := .closing [] jobs}
      match race.attempts[i]? with
      | some (endpoint,a) => some (passed.put i endpoint a.cancelJob)
      | none => some passed
    | _ => none
  | _ => none

/-- What a race leaves behind: an answer with addresses is kept. -/
def Resolver.left (n : Resolver) (r : ℕ) (race : Race) : Resolver × List Event :=
  let n := {n with races := n.races.erase r}
  match race.outcome with
  | none => (n,[])
  | some [] => (n,[.resolved r none])
  | some (first::rest) =>
    ({n with cache := n.cache.insert race.host ⟨first::rest,n.now⟩},[.resolved r (some first)])

/-- The race that an action belongs to. -/
def Action.race : Action → ℕ
  | .resolve r _ _ => r
  | .advance r _ _ => r
  | .record r _ => r
  | .count r _ => r
  | .await r _ => r
  | .cancel r _ => r
  | .visit r _ => r
  | .cancelJob r => r
  | .leave r => r
  | _ => 0

def exec (n : Resolver) : Action → Option (Resolver × List Event)
  | .clock now => some ({n with now},[])
  | .invalidate => some ({n with cache := ∅},[])
  | .resolve r hostname endpointAddresses =>
    if (n.races.lookup r).isSome then none
    else match n.prepare P hostname endpointAddresses with
      | .inl answer => some (n,[.resolved r answer])
      | .inr race => some ({n with races := n.races.insert r race},[])
  | .record r i =>
    match n.races.lookup r with
    | none => none
    | some race =>
      match race.attempts[i]? with
      | some (endpoint,.returned result) =>
        let (suppressedUntilMs,new) := n.recorded endpoint result
        some ({n with
          suppressedUntilMs
          races := n.races.insert r (race.put i endpoint (.recorded result))},new)
      | _ => none
  | .leave r =>
    match n.races.lookup r with
    | none => none
    | some race =>
      match race.phase with
      | .closing [] [] =>
        if race.attempts.all fun p => p.2.isEnded then some (n.left r race) else none
      | _ => none
  | a =>
    match n.races.lookup a.race with
    | none => none
    | some race =>
      (race.exec P a).map fun race' => ({n with races := n.races.insert a.race race'},[])

/-- The resolver from its first call on. -/
def machine : Machine Resolver Action Event where
  start n := ∃ now, n=⟨now,∅,∅,∅⟩
  allowed _ _ := True
  exec := exec P

/-- An endpoint is left out for its own failure alone. -/
def OwnFailure : Event → Prop
  | .suppressed _ cause _ => cause=.own
  | .resolved _ _ => True

/-- Is the request that is visited next a first one? -/
def Race.firstNext (race : Race) : Bool :=
  match race.phase with
  | .closing (i::_) _ =>
    match race.attempts[i]? with
    | some (_,.asking false _) => true
    | _ => false
  | _ => false

/-- What a step must not do: cancel a first request. -/
def sparing (n : Resolver) : Action → Bool
  | .visit r true => (n.races.lookup r).all fun race => !race.firstNext
  | _ => true

/-- No first request has been cancelled, and none failed for that. -/
def Attempt.Honest : Attempt → Prop
  | .asking second cancelled => second=false → cancelled=false
  | .returned (.failed cause) => cause=.own
  | .recorded (.failed cause) => cause=.own
  | _ => True

def Race.Honest (race : Race) : Prop := ∀ p∈race.attempts, p.2.Honest

def Resolver.Honest (n : Resolver) : Prop := ∀ r race, n.races.lookup r=some race → race.Honest

end Machine

section Runs

variable {P : Platform}
variable {a : Attempt} {i r : ℕ} {endpoint hostname : Text} {n n' : Resolver}
  {endpointAddresses : List Text} {new : List Event}

theorem Attempt.Honest.stride {a' : Attempt} {s : Stride} {hostAddress : Bytes → Text}
    (h : a.Honest) (hs : a.stride hostAddress s=some a') : a'.Honest := by
  unfold Attempt.stride at hs
  split at hs
  case h_1 =>
    cases hs
    exact fun _ => rfl
  case h_2 =>
    split at hs
    · cases hs
      rfl
    · split at hs <;> cases hs <;> trivial
  case h_3 => split at hs <;> cases hs <;> trivial
  case h_4 =>
    cases hs
    rfl
  case h_5 =>
    cases hs
    trivial
  case h_6 =>
    -- a first request that has been cancelled
    exact absurd (h rfl) (by decide)
  case h_7 =>
    cases hs
    trivial
  case h_8 =>
    cases hs
    exact fun hfirst => absurd hfirst (by decide)
  case h_9 => cases hs

theorem Attempt.Honest.cancelJob (h : a.Honest) : a.cancelJob.Honest := by
  unfold Attempt.cancelJob
  split
  · trivial
  · exact h

/-- A request that is not a first one may be cancelled. -/
theorem Attempt.Honest.cancelCall (h : a.Honest)
    (hfirst : ∀ cancelled, a≠.asking false cancelled) : a.cancelCall.Honest := by
  unfold Attempt.cancelCall
  split
  case h_1 second cancelled =>
    intro hsecond
    exact absurd (congrArg (Attempt.asking · cancelled) hsecond) (hfirst cancelled)
  case h_2 => exact h

theorem Race.Honest.put {race : Race} (h : race.Honest) (ha : a.Honest) :
    (race.put i endpoint a).Honest := by
  intro p hp
  rcases List.mem_or_eq_of_mem_set hp with hold | rfl
  · exact h p hold
  · exact ha

theorem Race.Honest.at {race : Race} (h : race.Honest) (hi : race.attempts[i]?=some (endpoint,a)) :
    a.Honest :=
  h (endpoint,a) (List.mem_of_getElem? hi)

theorem Race.Honest.counted {race : Race} (h : race.Honest) (endpoint : Text) (result : Result) :
    (race.counted endpoint result).Honest := by
  unfold Race.counted
  split <;> exact h

theorem Race.Honest.cancelJobs {race : Race} (h : race.Honest) : race.cancelJobs.Honest := by
  intro p hp
  obtain ⟨q,hq,rfl⟩ := List.mem_map.mp hp
  exact (h q hq).cancelJob

/-- What is done to a race without cancelling a first request keeps it honest. -/
theorem Race.Honest.exec {race race' : Race} {a : Action} (h : race.Honest)
    (hvisit : ∀ r, a=.visit r true → race.firstNext=false)
    (he : race.exec P a=some race') : race'.Honest := by
  cases a with
  | advance r i stride =>
    simp only [Race.exec] at he
    split at he
    case h_1 endpoint a hi =>
      obtain ⟨a',ha',rfl⟩ := Option.map_eq_some_iff.mp he
      exact h.put ((h.at hi).stride ha')
    case h_2 => cases he
  | count r i =>
    simp only [Race.exec] at he
    split at he
    case h_1 endpoint result hi =>
      cases he
      have hended : (race.put i endpoint .ended).Honest := h.put trivial
      exact hended.counted endpoint result
    case h_2 => cases he
  | await r order =>
    simp only [Race.exec] at he
    split at he
    case h_1 =>
      split_ifs at he
      cases he
      exact h
    case h_2 => cases he
  | cancel r order =>
    simp only [Race.exec] at he
    split_ifs at he
    split at he <;> cases he <;> exact h.cancelJobs
  | visit r hits =>
    simp only [Race.exec] at he
    split at he
    case h_1 i calls jobs hphase =>
      split at he
      case h_1 endpoint a hi =>
        cases he
        cases hits with
        | false => exact h
        | true =>
          have hnot := hvisit r rfl
          have hspared : ∀ cancelled, a≠.asking false cancelled := by
            rintro cancelled rfl
            simp [Race.firstNext,hphase,hi] at hnot
          exact Race.Honest.put h ((h.at hi).cancelCall hspared)
      case h_2 =>
        cases he
        exact h
    case h_2 => cases he
  | cancelJob r =>
    simp only [Race.exec] at he
    split at he
    case h_1 i jobs hphase =>
      split at he
      case h_1 endpoint a hi =>
        cases he
        exact Race.Honest.put h (h.at hi).cancelJob
      case h_2 =>
        cases he
        exact h
    case h_2 => cases he
  | clock now | resolve r hostname endpointAddresses | record r i | leave r | invalidate => cases he

/-- A race begins with attempts that have not started. -/
theorem honest_prepare {race : Race} (h : n.prepare P hostname endpointAddresses=.inr race) :
    race.Honest := by
  simp only [Resolver.prepare] at h
  split at h
  · cases h
  · split at h
    · cases h
    · split_ifs at h
      cases h
      intro p hp
      obtain ⟨endpoint,-,rfl⟩ := List.mem_map.mp hp
      trivial

theorem Resolver.Honest.insert {n : Resolver} (h : n.Honest) {r : ℕ} {race : Race}
    (hrace : race.Honest) : ∀ r' race', (n.races.insert r race).lookup r'=some race' →
      race'.Honest := by
  intro r' race' hlook
  rcases lookup_of_insert hlook with ⟨-,rfl⟩ | ⟨-,hold⟩
  · exact hrace
  · exact h r' race' hold

/-- An honest result leaves its endpoint out for its own failure alone. -/
theorem ownFailure_of_recorded {result : Result} (h : (Attempt.returned result).Honest) :
    ∀ e∈(n.recorded endpoint result).2, OwnFailure e := by
  intro e he
  unfold Resolver.recorded at he
  split at he
  · rw [List.mem_singleton.mp he]
    exact h
  · cases he
  · cases he

theorem Resolver.Honest.record (h : n.Honest) (he : exec P n (.record r i)=some (n',new)) :
    n'.Honest ∧ ∀ e∈new, OwnFailure e := by
  simp only [EdgeRaces.exec] at he
  split at he
  case h_1 => cases he
  case h_2 race hrace =>
    split at he
    case h_1 endpoint result hi =>
      cases he
      have hresult : (Attempt.returned result).Honest := (h r race hrace).at hi
      refine ⟨h.insert (Race.Honest.put (h r race hrace) ?_),ownFailure_of_recorded hresult⟩
      cases result with
      | failed cause => exact hresult
      | addresses list => trivial
    case h_2 => cases he

theorem Resolver.Honest.leave (h : n.Honest) (he : exec P n (.leave r)=some (n',new)) :
    n'.Honest ∧ ∀ e∈new, OwnFailure e := by
  have herased : ∀ r' race', (n.races.erase r).lookup r'=some race' → race'.Honest :=
    fun r' race' hlook => h r' race' (lookup_of_erase hlook)
  simp only [EdgeRaces.exec] at he
  split at he
  case h_1 => cases he
  case h_2 race hrace =>
    split at he
    case h_1 =>
      split_ifs at he
      simp only [Resolver.left] at he
      split at he <;> cases he
      · exact ⟨herased,by simp⟩
      · exact ⟨herased,by simp [OwnFailure]⟩
      · exact ⟨herased,by simp [OwnFailure]⟩
    case h_2 => cases he

theorem Resolver.Honest.resolve (h : n.Honest)
    (he : exec P n (.resolve r hostname endpointAddresses)=some (n',new)) :
    n'.Honest ∧ ∀ e∈new, OwnFailure e := by
  simp only [EdgeRaces.exec] at he
  split at he
  · cases he
  · split at he
    case h_1 answer hanswer =>
      cases he
      exact ⟨h,by simp [OwnFailure]⟩
    case h_2 race hrace =>
      cases he
      exact ⟨h.insert (honest_prepare hrace),by simp⟩

/-- What is done to one race of the resolver. -/
theorem Resolver.Honest.within {a : Action} (h : n.Honest) (hcond : sparing n a=true)
    (he : (match n.races.lookup a.race with
      | none => none
      | some race => (race.exec P a).map fun race' =>
        ({n with races := n.races.insert a.race race'},([] : List Event)))=some (n',new)) :
    n'.Honest ∧ ∀ e∈new, OwnFailure e := by
  cases hlook : n.races.lookup a.race with
  | none => simp [hlook] at he
  | some race =>
    simp only [hlook] at he
    obtain ⟨race',hrace',heq⟩ := Option.map_eq_some_iff.mp he
    cases heq
    refine ⟨h.insert ((h _ race hlook).exec ?_ hrace'),by simp⟩
    rintro r rfl
    simp only [Action.race] at hlook
    simpa [sparing,hlook] using hcond

/-- One step that cancels no first request keeps the resolver honest, and leaves an endpoint out for
its own failure alone. -/
theorem Resolver.Honest.step {n n' : Resolver} {a : Action} {new : List Event} (h : n.Honest)
    (hcond : sparing n a=true) (he : exec P n a=some (n',new)) :
    n'.Honest ∧ ∀ e∈new, OwnFailure e := by
  cases a with
  | clock now | invalidate =>
    cases he
    exact ⟨h,by simp⟩
  | resolve r hostname endpointAddresses => exact h.resolve he
  | record r i => exact h.record he
  | leave r => exact h.leave he
  | advance r i stride | count r i | await r order | cancel r order | visit r hits
  | cancelJob r => exact h.within hcond he

/-- In a run in which no first request is cancelled, every endpoint that is left out has failed on
its own. -/
theorem run_suppresses_own_failures (P : Platform) {t : List Event} {n : Resolver}
    (h : (machine P).Run (fun _ n a => sparing n a=true) t n) : ∀ e∈t, OwnFailure e := by
  refine (h.safe Resolver.Honest OwnFailure ?_ ?_).2
  · rintro n ⟨now,rfl⟩ r race hlook
    simp at hlook
  · intro t n a n' new hinv _ hcond he
    exact hinv.step hcond he

/-- Case mappings of ASCII, and addresses that are shown as numbers with full stops. -/
def asciiPlatform : Platform :=
  ⟨.plain,fun address => ".".toList.intercalate (address.map fun b => decimal b.toNat)⟩

/-- A name is asked for at two endpoints, and both requests are sent. -/
def bothAsked : List Action :=
  [.resolve 0 "example.com".toList ["1.1.1.1".toList,"8.8.8.8".toList],.advance 0 0 .start,
    .advance 0 1 .start]

/-- An answer with one address. -/
def oneAddress : Bytes := [0,0,0x81,0x80,0,0,0,1,0,0,0,0,0xC0,0x0C,0,1,0,1,0,0,0,60,0,4,1,2,3,4]

/-- An attempt gets the answer and it is recorded and counted. -/
def answered (i : ℕ) : List Action :=
  [.advance 0 i (.respond 200 oneAddress),.record 0 i,.count 0 i]

/-- The first endpoint fails on its own and is left out, the second answers, and nothing is in
flight when the race is closed. -/
theorem run_suppresses_failed_endpoint : ∃ t n,
    (machine asciiPlatform).Run (fun _ n a => sparing n a=true) t n ∧
      n.isSuppressed "https://1.1.1.1/dns-query".toList=true ∧ t.length=2 ∧
      ∀ e∈t, OwnFailure e := by
  obtain ⟨t,n,hrun,hsuppressed,hlength⟩ : ∃ t n,
      (machine asciiPlatform).Run (fun _ n a => sparing n a=true) t n ∧
        n.isSuppressed "https://1.1.1.1/dns-query".toList=true ∧ t.length=2 :=
    Machine.exists_run sparing (fun _ _ _ h => ⟨trivial,h⟩) ⟨0,rfl⟩
      (bothAsked++[.advance 0 0 .fail,.record 0 0,.count 0 0]++answered 1 ++
        [.await 0 [0,1],.visit 0 true,.visit 0 true,.cancelJob 0,.cancelJob 0,.leave 0])
      (by decide +kernel)
  exact ⟨t,n,hrun,hsuppressed,hlength,run_suppresses_own_failures asciiPlatform hrun⟩

/-- The first endpoint answers while the request to the second is under way. That one is cancelled,
comes back as a failure, and the endpoint is left out for half an hour. -/
theorem cancelled_endpoint_suppressed : ∃ t n, (machine asciiPlatform).Run always t n ∧
    Event.suppressed "https://8.8.8.8/dns-query".toList .cancelled failureBackoffMs∈t ∧
      n.now=0 ∧ n.isSuppressed "https://8.8.8.8/dns-query".toList=true :=
  Machine.exists_run (fun _ _ => true) (fun _ _ _ _ => ⟨trivial,trivial⟩) ⟨0,rfl⟩
    (bothAsked++answered 0 ++
      [.await 0 [0,1],.visit 0 true,.visit 0 true,.advance 0 1 .abort,.record 0 1])
    (by decide +kernel)

end Runs

end MsnGuard.EdgeRaces
