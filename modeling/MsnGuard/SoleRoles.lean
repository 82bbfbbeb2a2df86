import Mathlib.Tactic

/-!
# Threads of which one at most has a part

Where a thread stands amounts to a part in a protocol, and for most places the part is none. A
protocol in which one thread at most has a part is in a state that tells which thread it is.
-/

namespace MsnGuard.SoleRoles

open Function

variable {κ ρ : Type} [Inhabited ρ]
variable {c : ℕ}

/-- The parts of the threads of a table; a thread without a call has none. -/
def parts (f : κ → ρ) (calls : ℕ → Option κ) (c : ℕ) : ρ := (calls c).elim default f

variable {f : κ → ρ} {calls : ℕ → Option κ}

theorem parts_some {call : κ} (h : calls c=some call) : parts f calls c=f call := by
  rw [parts,h]
  rfl

theorem parts_none (h : calls c=none) : parts f calls c=default := by
  rw [parts,h]
  rfl

/-- A thread that moves on changes its own part only. -/
theorem parts_update (f : κ → ρ) (calls : ℕ → Option κ) (c : ℕ) (call : Option κ) :
    parts f (update calls c call)=
      update (parts f calls) c (call.elim default f) := by
  funext c'
  rcases eq_or_ne c' c with rfl | hne
  · rw [parts,update_self,update_self]
  · rw [parts,update_of_ne hne,update_of_ne hne,parts]

/-- One thread has a part. -/
def only (c : ℕ) (r : ρ) : ℕ → ρ := Function.update (fun _ => default) c r

theorem only_self (c : ℕ) (r : ρ) : only c r c=r := update_self ..

theorem only_default (c : ℕ) : only c (default : ρ)=fun _ => default := update_eq_self c _

variable {r : ρ}

/-- A thread with a part is the one. -/
theorem only_eq {c' : ℕ} {r' : ρ} (h : only c r c'=r') (hr : r'≠default) : c=c' ∧ r=r' := by
  rcases eq_or_ne c' c with rfl | hne
  · rw [only_self] at h
    exact ⟨rfl,h⟩
  · rw [only,update_of_ne hne] at h
    exact absurd h.symm hr

/-- The parts when a thread has one in hand, or none has. -/
def inHand : Option (ℕ × ρ) → ℕ → ρ
  | none => fun _ => default
  | some (c,r) => only c r

/-- A thread with a part tells what is in hand. -/
theorem inHand_eq {hand : Option (ℕ × ρ)} (h : inHand hand c=r) (hr : r≠default) :
    hand=some (c,r) := by
  cases hand with
  | none => exact absurd h.symm hr
  | some one =>
    obtain ⟨rfl,rfl⟩ := only_eq h hr
    rfl

variable {role : ℕ → ρ}

/-- A thread takes a part that nobody has. -/
theorem update_idle (h : role=fun _ => default) (c : ℕ) (r : ρ) :
    update role c r=only c r := by rw [h,only]

/-- The thread that has a part takes another. -/
theorem update_only (h : role=only c r) (r' : ρ) :
    update role c r'=only c r' := by rw [h,only,update_idem,only]

/-- The thread that has a part lays it down. -/
theorem update_only_default (h : role=only c r) :
    update role c default=fun _ => default := by rw [update_only h,only_default]

end MsnGuard.SoleRoles
