import Mathlib.Data.Finset.Card

/-!
# Telling a dead session from dead destinations

The health tracker keeps the destinations that stayed silent since something last worked.
-/

namespace MsnGuard.HealthVerdicts

inductive Verdict
  | targetFailure | sessionUnhealthy | sessionUnauthenticated

/-- Why no stream was opened; `SocketTimeoutException` extends `InterruptedIOException`. -/
inductive Cause
  | null | connectTimeout | interruptedIo | other
  | connectRejected (statusCode : Option ℤ)

def isSilence : Cause → Bool
  | .null | .connectTimeout | .interruptedIo => true
  | .other | .connectRejected _ => false

def invalidatesSession : Cause → Bool
  | .connectRejected statusCode => statusCode∈[some 401,some 403,some 407]
  | _ => false

variable {κ : Type} [DecidableEq κ]

def maxDistinctTimeoutTargets : ℕ := 10

/-- What a failure makes of `timeoutTargets`, and the verdict. -/
def observeFailure (timeoutTargets : Finset κ) (target : κ) (cause : Cause) : Finset κ×Verdict :=
  if invalidatesSession cause then (∅,.sessionUnauthenticated)
  else if !isSilence cause then (timeoutTargets,.targetFailure)
  else if (insert target timeoutTargets).card < maxDistinctTimeoutTargets then
    (insert target timeoutTargets,.targetFailure)
  else (∅,.sessionUnhealthy)

inductive Call (κ : Type)
  | observeSuccess | reset
  | observeFailure (target : κ) (cause : Cause)

/-- The set and the verdicts after some calls, the last call first. -/
def observe : List (Call κ) → Finset κ×List Verdict
  | [] => (∅,[])
  | .observeFailure target cause::calls =>
    let (targets,verdict) := observeFailure (observe calls).1 target cause
    (targets,verdict::(observe calls).2)
  | _::calls => (∅,(observe calls).2)

/-- The calls end in failures, none a rejected pass, whose silent destinations are these. -/
inductive Silent : Finset κ → List (Call κ) → Prop
  | start (calls : List (Call κ)) : Silent ∅ calls
  | fail {s calls} (target cause) : Silent s calls → invalidatesSession cause=false →
    Silent (if isSilence cause then insert target s else s) (.observeFailure target cause::calls)

/-- The set is what the last failures left silent, and below the limit. -/
theorem silent_observe (calls : List (Call κ)) :
    Silent (observe calls).1 calls ∧ (observe calls).1.card < maxDistinctTimeoutTargets := by
  induction calls with
  | nil => exact ⟨.start _,Nat.succ_pos 9⟩
  | cons c calls ih =>
    have hstart := Silent.start (c::calls)
    cases c with
    | observeSuccess | reset => exact ⟨hstart,Nat.succ_pos 9⟩
    | observeFailure target cause =>
      have hfail := ih.1.fail target cause
      simp only [observe,observeFailure]
      grind [Finset.card_empty]

/-- A stretch that condemns nobody leaves all its silent destinations in the set. -/
theorem Silent.subset {s} {calls : List (Call κ)} (h : Silent s calls) :
    .sessionUnhealthy∈(observe calls).2 ∨ s⊆(observe calls).1 := by
  induction h with
  | start => exact .inr (Finset.empty_subset _)
  | fail target cause h hc ih =>
    simp only [observe,observeFailure,hc]
    grind

/-- Over every run of calls the tracker condemns the session exactly if ten destinations stayed
silent in a stretch of failures without a success, a reset or a rejected pass. -/
theorem sessionUnhealthy_iff (calls : List (Call κ)) : .sessionUnhealthy∈(observe calls).2 ↔
    ∃ s earlier, earlier <:+ calls ∧ Silent s earlier ∧ maxDistinctTimeoutTargets ≤ s.card := by
  constructor
  · intro h
    induction calls with
    | nil => simp [observe] at h
    | cons c calls ih =>
      cases c with
      | observeSuccess | reset => grind [observe]
      | observeFailure target cause =>
        simp only [observe,List.mem_cons,observeFailure] at h
        have hs := (silent_observe calls).1.fail target cause
        grind
  · rintro ⟨s,earlier,⟨later,rfl⟩,hs,hcard⟩
    have hmem : .sessionUnhealthy∈(observe earlier).2 := hs.subset.resolve_right fun hsub =>
      absurd (hcard.trans (Finset.card_le_card hsub)) (silent_observe earlier).2.not_ge
    induction later with
    | nil => exact hmem
    | cons c later ih => cases c <;> simp [observe,ih]

end MsnGuard.HealthVerdicts
