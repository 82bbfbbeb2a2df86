import MsnGuard.UpstreamDetours

/-!
# Detours of sockets that take over an address

A newer socket may have the address of one that is gone while the guard or the pump of the older
detour has yet to take its entry out. An entry is only taken out under its own number, and no
number is given twice.
-/

namespace MsnGuard.DetourReuse

open IpAddresses RoutingRules TransitionRuns FiniteTables Function
open UpstreamDetours

/-- The guard of a detour. Dropping it stops the pump first. -/
inductive Guard where
  | held
  | aborting
  | dropped
  deriving DecidableEq

/-- How far the attaching of a detour has come, and the detour after it. -/
inductive Progress where
  /-- The relay and the shim are being opened. -/
  | opening (client peer : SocketAddr)
  | shimmed (route : Route)
  | numbered (route : Route) (id : ℕ)
  | inserted (route : Route) (id : ℕ)
  | attached (route : Route) (id : ℕ) (guard : Guard) (pump : Pump)
  /-- No detour came of it. -/
  | over

/-- The table and the detours of a process. -/
structure Process where
  /-- The table. -/
  detours : Detours
  /-- The number of the next detour. -/
  nextId : ℕ
  /-- The calls that attach a detour, with what came of them. -/
  calls : ℕ → Option Progress

/-- The process before its first detour. -/
def Process.initial : Process := ⟨fun _ => none,1,fun _ => none⟩

/-- What the tasks of the process do, one step each. -/
inductive Action where
  /-- A detour is to be attached to a socket with any local address. -/
  | call (n : ℕ) (client peer : SocketAddr)
  /-- The relay and the shim are there, or they are not or nobody waits any more. -/
  | opened (n : ℕ) (associated : Bool) (shimPort : Option ℕ)
  | number (n : ℕ)
  | insert (n : ℕ)
  | spawn (n : ℕ)
  | abort (n : ℕ)
  /-- The guard that is being dropped takes the entry out. -/
  | forgetGuard (n : ℕ)
  | pump (n : ℕ) (input : PumpInput)
  /-- The task of a pump that ended takes the entry out. -/
  | forgetPump (n : ℕ)
  /-- The task of a pump is stopped. -/
  | stopped (n : ℕ)

namespace Process

/-- A call has come further. -/
def set (p : Process) (n : ℕ) (progress : Progress) : Process :=
  {p with calls := Function.update p.calls n (some progress)}

/-- One step of one call. -/
def advance (p : Process) (n : ℕ) : Progress → Action → Option (Process × List Event)
  | .opening client peer,.opened _ associated shimPort =>
    match attachDetourVia client peer associated shimPort with
    | .detoured route => some (p.set n (.shimmed route),[])
    | .undetoured | .failed => some (p.set n .over,[])
  | .shimmed route,.number _ =>
    some ({p with nextId := p.nextId+1}.set n (.numbered route p.nextId),[])
  | .numbered route id,.insert _ =>
    let entry : Detour := ⟨id,route.shim,route.peer⟩
    some ({p with detours := Function.update p.detours route.client (some entry)}.set n
      (.inserted route id),[])
  | .inserted route id,.spawn _ => some (p.set n (.attached route id .held (.running none)),[])
  | .attached route id .held pump,.abort _ =>
    some (p.set n (.attached route id .aborting pump),[])
  | .attached route id .aborting pump,.forgetGuard _ =>
    some ({p with detours := forgetDetour p.detours route.client id}.set n
      (.attached route id .dropped pump),[])
  | .attached route id guard (.running replyTo),.pump _ input =>
    let round := pumpRound route replyTo input
    some (p.set n (.attached route id guard ((round.1.map Pump.running).getD .ended)),round.2)
  | .attached route id guard .ended,.forgetPump _ =>
    some ({p with detours := forgetDetour p.detours route.client id}.set n
      (.attached route id guard .gone),[])
  | .attached route id guard (.running _),.stopped _ =>
    if guard=.held then none else some (p.set n (.attached route id guard .gone),[])
  | _,_ => none

end Process

/-- The call that takes the step. -/
def Action.caller : Action → ℕ
  | .call n _ _ | .opened n _ _ | .number n | .insert n | .spawn n | .abort n | .forgetGuard n
  | .pump n _ | .forgetPump n | .stopped n => n

/-- One step of the process. -/
def Process.exec (p : Process) (a : Action) : Option (Process × List Event) :=
  match p.calls a.caller with
  | some progress => p.advance a.caller progress a
  | none =>
    match a with
    | .call n client peer => some (p.set n (.opening client peer),[])
    | _ => none

/-- Any number of calls, drops and ends of pumps, in any order and at any addresses. -/
def machine : Machine Process Action Event where
  start p := p=Process.initial
  allowed _ _ := True
  exec := Process.exec

/-- The route and the number of a call, once it has one. -/
def Progress.entry : Progress → Option (Route × ℕ)
  | .numbered route id | .inserted route id | .attached route id _ _ => some (route,id)
  | .opening _ _ | .shimmed _ | .over => none

/-- The route and the number of a call, if there is such a call and it has one. -/
def Process.entry (p : Process) (n : ℕ) : Option (Route × ℕ) := (p.calls n).bind Progress.entry

/-- An entry of the table belongs to a call. -/
def Process.Owns (p : Process) (n : ℕ) (client : SocketAddr) (detour : Detour) : Prop :=
  ∃ route, p.entry n=some (route,detour.id) ∧ route.client=client ∧
    detour.shim=route.shim ∧ detour.peer=route.peer

/-- The entries a step may take away: a guard or a pump takes out the entry of its own
detour, and a new entry takes the place of the one at its address. -/
def Action.Replaces (p : Process) (client : SocketAddr) (detour : Detour) : Action → Prop
  | .forgetGuard n | .forgetPump n => p.Owns n client detour
  | .insert n => ∃ route id, p.entry n=some (route,id) ∧ route.client=client
  | _ => False

/-- What one step does to the table and to the numbers. -/
inductive Moves (p : Process) : Action → Process → Prop
  | quiet {a : Action} {p' : Process} : (∀ n, p'.entry n=p.entry n) →
      p'.detours=p.detours → p'.nextId=p.nextId → Moves p a p'
  | number {a : Action} {p' : Process} (route : Route) :
      (∀ n, p'.entry n=if n=a.caller then some (route,p.nextId) else p.entry n) →
      p'.detours=p.detours → p'.nextId=p.nextId+1 →
      p.entry a.caller=none → Moves p a p'
  | insert {n : ℕ} {p' : Process} {route : Route} {id : ℕ} : (∀ m, p'.entry m=p.entry m) →
      p'.detours=Function.update p.detours route.client (some ⟨id,route.shim,route.peer⟩) →
      p'.nextId=p.nextId → p.entry n=some (route,id) → Moves p (.insert n) p'
  | forget {a : Action} {p' : Process} {route : Route} {id : ℕ} :
      a=.forgetGuard a.caller ∨ a=.forgetPump a.caller → (∀ m, p'.entry m=p.entry m) →
      p'.detours=forgetDetour p.detours route.client id →
      p'.nextId=p.nextId → p.entry a.caller=some (route,id) → Moves p a p'

theorem entry_set (p : Process) (n : ℕ) (progress : Progress) (m : ℕ) :
    (p.set n progress).entry m=if m=n then progress.entry else p.entry m := by
  change (update p.calls n (some progress) m).bind Progress.entry=_
  split
  · rename_i heq
    rw [heq,update_self]
    rfl
  · rename_i hne
    rw [update_of_ne hne]
    rfl

/-- A call that keeps its route and its number changes no entry. -/
theorem entry_set_same {p : Process} {n : ℕ} {progress : Progress}
    (h : progress.entry=p.entry n) (m : ℕ) : (p.set n progress).entry m=p.entry m := by
  rw [entry_set]
  split
  · rename_i heq
    rw [heq,h]
  · rfl

theorem exec_moves {p p' : Process} {a : Action} {events : List Event}
    (h : p.exec a=some (p',events)) : Moves p a p' := by
  unfold Process.exec at h
  split at h
  case h_1 progress hsome =>
    have hentry : p.entry a.caller=progress.entry := by
      rw [Process.entry,hsome]
      rfl
    unfold Process.advance at h
    split at h
    case h_1 =>
      split at h
      all_goals
        cases h
        exact .quiet (entry_set_same hentry.symm) rfl rfl
    case h_2 route m =>
      cases h
      exact .number route (entry_set _ _ _) rfl rfl hentry
    case h_3 route id m =>
      cases h
      exact .insert (entry_set_same hentry.symm) rfl rfl hentry
    case h_4 =>
      cases h
      exact .quiet (entry_set_same hentry.symm) rfl rfl
    case h_5 =>
      cases h
      exact .quiet (entry_set_same hentry.symm) rfl rfl
    case h_6 =>
      cases h
      exact .forget (.inl rfl) (entry_set_same hentry.symm) rfl rfl hentry
    case h_7 =>
      cases h
      exact .quiet (entry_set_same hentry.symm) rfl rfl
    case h_8 =>
      cases h
      exact .forget (.inr rfl) (entry_set_same hentry.symm) rfl rfl hentry
    case h_9 =>
      split_ifs at h
      cases h
      exact .quiet (entry_set_same hentry.symm) rfl rfl
    case h_10 => cases h
  case h_2 hnone =>
    split at h
    · rename_i n client peer
      cases h
      have hentry : p.entry n=none := by
        change (p.calls n).bind Progress.entry=none
        rw [show p.calls n=none from hnone]
        rfl
      exact .quiet (entry_set_same hentry.symm) rfl rfl
    · cases h

/-- Numbers are given once, and every entry belongs to a call. -/
structure Process.Sound (p : Process) : Prop where
  fresh : ∀ {n route id}, p.entry n=some (route,id) → id<p.nextId
  apart : ∀ {n m route route' id}, p.entry n=some (route,id) → p.entry m=some (route',id) → n=m
  owned : ∀ {client detour}, p.detours client=some detour → ∃ n, p.Owns n client detour

namespace Process.Sound

variable {p p' : Process} {a : Action}
variable {n : ℕ} {client : SocketAddr} {detour : Detour}

theorem initial : Process.initial.Sound where
  fresh h := by cases h
  apart h := by cases h
  owned h := by cases h

/-- Owners stay owners while no call loses its number. -/
theorem owns_of_entry (hentry : p'.entry n=p.entry n) (h : p.Owns n client detour) :
    p'.Owns n client detour := by
  unfold Process.Owns at h ⊢
  rwa [hentry]

/-- A step that keeps the numbers is sound if every entry it leaves has an owner. -/
theorem of_entry (h : p.Sound) (hentry : ∀ n, p'.entry n=p.entry n)
    (hnext : p'.nextId=p.nextId)
    (howned : ∀ {client detour}, p'.detours client=some detour →
      ∃ n, p.Owns n client detour) : p'.Sound where
  fresh hn := by
    rw [hentry] at hn
    rw [hnext]
    exact h.fresh hn
  apart hn hm := by
    rw [hentry] at hn hm
    exact h.apart hn hm
  owned hdetour := by
    obtain ⟨n,hn⟩ := howned hdetour
    exact ⟨n,owns_of_entry (hentry n) hn⟩

/-- A new number is larger than those that were given. -/
theorem number (h : p.Sound) {route : Route} (hnone : p.entry n=none)
    (hentry : ∀ m, p'.entry m=if m=n then some (route,p.nextId) else p.entry m)
    (hdetours : p'.detours=p.detours) (hnext : p'.nextId=p.nextId+1) : p'.Sound where
  fresh {m route' id} hm := by
    rw [hentry] at hm
    rw [hnext]
    split at hm
    · cases hm
      exact Nat.lt_succ_self _
    · exact (h.fresh hm).trans (Nat.lt_succ_self _)
  apart {m m' route' route'' id} hm hm' := by
    rw [hentry] at hm hm'
    split at hm <;> split at hm'
    · rename_i hleft hright
      rw [hleft,hright]
    · cases hm
      exact absurd (h.fresh hm') (lt_irrefl _)
    · cases hm'
      exact absurd (h.fresh hm) (lt_irrefl _)
    · exact h.apart hm hm'
  owned hdetour := by
    rw [hdetours] at hdetour
    obtain ⟨m,hm⟩ := h.owned hdetour
    have hne : m≠n := by
      rintro rfl
      obtain ⟨route',hroute',-⟩ := hm
      rw [hnone] at hroute'
      cases hroute'
    exact ⟨m,owns_of_entry (by rw [hentry,if_neg hne]) hm⟩

theorem step (h : p.Sound) (hmove : Moves p a p') : p'.Sound := by
  cases hmove with
  | quiet hentry hdetours hnext =>
    refine h.of_entry hentry hnext fun hdetour => h.owned ?_
    rwa [hdetours] at hdetour
  | number route hentry hdetours hnext hnone => exact h.number hnone hentry hdetours hnext
  | @insert n _ route id hentry hdetours hnext hn =>
    refine h.of_entry hentry hnext fun hdetour => ?_
    rw [hdetours] at hdetour
    rcases update_eq_some hdetour with ⟨rfl,hnew⟩ | ⟨-,hold⟩
    · cases hnew
      exact ⟨n,route,hn,rfl,rfl,rfl⟩
    · exact h.owned hold
  | forget _ hentry hdetours hnext hn =>
    refine h.of_entry hentry hnext fun hdetour => h.owned ?_
    rw [hdetours] at hdetour
    unfold forgetDetour at hdetour
    split at hdetour
    · rcases update_eq_some hdetour with ⟨-,hnone⟩ | ⟨-,hold⟩
      · cases hnone
      · exact hold
    · exact hdetour

/-- An entry has one owner. -/
theorem existsUnique_owner (h : p.Sound) (hdetour : p.detours client=some detour) :
    ∃! n, p.Owns n client detour := by
  obtain ⟨n,hn⟩ := h.owned hdetour
  refine ⟨n,hn,fun m hm => ?_⟩
  obtain ⟨route,hroute,-⟩ := hn
  obtain ⟨route',hroute',-⟩ := hm
  exact h.apart hroute' hroute

/-- A step that takes an entry away may do so. -/
theorem replaces (h : p.Sound) (hmove : Moves p a p') (hdetour : p.detours client=some detour)
    (hgone : p'.detours client≠some detour) : a.Replaces p client detour := by
  cases hmove with
  | quiet _ hdetours _ | number _ _ hdetours _ _ =>
    rw [hdetours] at hgone
    exact absurd hdetour hgone
  | @insert n _ route id _ hdetours _ hn =>
    refine ⟨route,id,hn,?_⟩
    by_contra hne
    rw [hdetours,update_of_ne (Ne.symm hne)] at hgone
    exact hgone hdetour
  | @forget _ _ route id hforget _ hdetours _ hn =>
    have hid : detour.id=id := by
      by_contra hne
      rw [hdetours,forgetDetour_other hdetour hne] at hgone
      exact hgone rfl
    obtain ⟨n,hown⟩ := h.owned hdetour
    have hentry := hown
    obtain ⟨route',hroute',-⟩ := hentry
    have hcaller : n=a.caller := by
      rw [hid] at hroute'
      exact h.apart hroute' hn
    rw [hcaller] at hown
    rcases hforget with heq | heq
    · rw [heq]
      exact hown
    · rw [heq]
      exact hown

end Process.Sound

theorem sound_of_run {t : List Event} {p : Process} (h : machine.Run always t p) : p.Sound := by
  refine h.invariant (fun _ p => p.Sound) ?_ ?_
  · rintro p rfl
    exact .initial
  · intro t p a p' new hsound _ _ hexec
    exact hsound.step (exec_moves hexec)

/-- Whatever is attached, dropped and ended in whatever order and at whatever addresses:
an entry has one owner and goes away only when its owner takes it out or a new entry
takes its place; and while it is there what is sent to the far end goes to the shim and
comes back from the far end, and other sources are what they are. -/
theorem entries_of_run {t : List Event} {p : Process} (h : machine.Run always t p)
    {client : SocketAddr} {detour : Detour} (hdetour : p.detours client=some detour) :
    (∃! n, p.Owns n client detour) ∧
      (∀ a p' events, p.exec a=some (p',events) → p'.detours client≠some detour →
        a.Replaces p client detour) ∧
      realSource p.detours client (relayTarget p.detours client detour.peer)=detour.peer ∧
      ∀ source, source≠detour.shim → realSource p.detours client source=source := by
  have hsound := sound_of_run h
  refine ⟨hsound.existsUnique_owner hdetour,?_,realSource_relayTarget hdetour _,?_⟩
  · intro a p' events hexec hgone
    exact hsound.replaces (exec_moves hexec) hdetour hgone
  · intro source hne
    rw [realSource,hdetour]
    exact if_neg (Ne.symm hne)

/-- A local address that two sockets have, one after the other. -/
def sharedClient : SocketAddr := ⟨.v4 (ipv4OfOctets 0 0 0 0),40000⟩

/-- The far end of the first socket and the one of the second. -/
def farEnd (last : ℕ) : SocketAddr := ⟨.v4 (ipv4OfOctets 1 1 1 last),443⟩

/-- A second socket takes the address over; then the pump of the first detour ends and
its guard is dropped. -/
def takenOver : List Action :=
  [.call 0 sharedClient (farEnd 1),.opened 0 true (some 5001),.number 0,.insert 0,.spawn 0,
    .call 1 sharedClient (farEnd 2),.opened 1 true (some 5002),.number 1,.insert 1,.spawn 1,
    .pump 0 (.shim none true),.abort 0,.forgetPump 0,.forgetGuard 0]

/-- The entry of the second detour. -/
def newerDetour : Detour := ⟨2,⟨.v4 (ipv4OfOctets 127 0 0 1),5002⟩,farEnd 2⟩

theorem taken_over : ∃ t p, machine.Run always t p ∧
    p.detours sharedClient=some newerDetour ∧ (∃! n, p.Owns n sharedClient newerDetour) ∧
    realSource p.detours sharedClient (relayTarget p.detours sharedClient (farEnd 2))=farEnd 2 := by
  obtain ⟨t,p,hrun,hdetour⟩ : ∃ t p, machine.Run always t p ∧
      p.detours sharedClient=some newerDetour :=
    Machine.exists_run (fun _ _ => true) (fun _ _ _ _ => ⟨trivial,trivial⟩) rfl takenOver
      (by decide +kernel)
  obtain ⟨howner,-,hround,-⟩ := entries_of_run hrun hdetour
  exact ⟨t,p,hrun,hdetour,howner,hround⟩

end MsnGuard.DetourReuse
