import Mathlib.Tactic

/-!
# Registries of handles

Owners hold handles of resources. The registry is exact when every handle that is held refers to
a live resource of the right kind, every live resource is held, and no handle is held twice.
-/

namespace MsnGuard.HandleRegistry

open Function

variable {κ η τ : Type} [DecidableEq κ] [DecidableEq η]

/-- Who holds which handle, and which resources live. -/
structure Registry (κ η τ : Type) where
  /-- The handle of an owner. -/
  owner : κ → Option η
  /-- The resource of a handle. -/
  live : η → Option τ

namespace Registry

/-- Hand a resource to an owner. -/
def add (r : Registry κ η τ) (k : κ) (h : η) (l : τ) : Registry κ η τ :=
  ⟨Function.update r.owner k (some h),Function.update r.live h (some l)⟩

/-- Remove an owner and its resource. -/
def release (r : Registry κ η τ) (k : κ) (h : η) : Registry κ η τ :=
  ⟨Function.update r.owner k none,Function.update r.live h none⟩

theorem add_owner (r : Registry κ η τ) (k : κ) (h : η) (l : τ) :
    (r.add k h l).owner=update r.owner k (some h) := rfl

theorem add_live (r : Registry κ η τ) (k : κ) (h : η) (l : τ) :
    (r.add k h l).live=update r.live h (some l) := rfl

theorem release_owner (r : Registry κ η τ) (k : κ) (h : η) :
    (r.release k h).owner=update r.owner k none := rfl

theorem release_live (r : Registry κ η τ) (k : κ) (h : η) :
    (r.release k h).live=update r.live h none := rfl

/-- Held handles and live resources correspond one to one. -/
structure Exact (kind : κ → τ → Prop) (r : Registry κ η τ) : Prop where
  /-- A held handle is live and of the owner's kind. -/
  live_of_owner : ∀ k h, r.owner k=some h → ∃ l, r.live h=some l ∧ kind k l
  /-- A live handle is held. -/
  owner_of_live : ∀ h l, r.live h=some l → ∃ k, r.owner k=some h
  /-- A handle is held once. -/
  injective : ∀ k k' h, r.owner k=some h → r.owner k'=some h → k=k'

/-- The changes that a well-behaved program makes. -/
inductive Step (kind : κ → τ → Prop) (r : Registry κ η τ) : Registry κ η τ → Prop
  | stay : Step kind r r
  | add {k : κ} {h : η} {l : τ} : r.owner k=none → r.live h=none → kind k l →
      Step kind r (r.add k h l)
  | release {k : κ} {h : η} : r.owner k=some h → Step kind r (r.release k h)

variable {kind : κ → τ → Prop} {r r' : Registry κ η τ}

omit [DecidableEq κ] [DecidableEq η] in
/-- Two different owners have different handles. -/
theorem Exact.ne_of_ne (hr : r.Exact kind) {k k' : κ} {h h' : η} (hk : r.owner k=some h)
    (hk' : r.owner k'=some h') (hne : k'≠k) : h'≠h := by
  intro heq
  rw [heq] at hk'
  exact hne (hr.injective k' k h hk' hk)

theorem Exact.add (hr : r.Exact kind) {k : κ} {h : η} {l : τ} (hk : r.owner k=none)
    (hh : r.live h=none) (hl : kind k l) : (r.add k h l).Exact kind := by
  have hfresh : ∀ k', r.owner k'≠some h := by
    intro k' hk'
    rcases hr.live_of_owner k' h hk' with ⟨l',hlive,-⟩
    rw [hh] at hlive
    cases hlive
  have howner : ∀ k' h', (r.add k h l).owner k'=some h' →
      (k'=k ∧ h'=h) ∨ (k'≠k ∧ h'≠h ∧ r.owner k'=some h') := by
    intro k' h' hk'
    by_cases heq : k'=k
    · rw [heq,add_owner,update_self] at hk'
      exact .inl ⟨heq,(Option.some.inj hk').symm⟩
    · rw [add_owner,update_of_ne heq] at hk'
      exact .inr ⟨heq,fun hsame => hfresh k' (hsame ▸ hk'),hk'⟩
  constructor
  · intro k' h' hk'
    rcases howner k' h' hk' with ⟨rfl,rfl⟩ | ⟨-,hne,hold⟩
    · exact ⟨l,update_self ..,hl⟩
    · rcases hr.live_of_owner k' h' hold with ⟨l',hlive,hkind⟩
      exact ⟨l',(update_of_ne hne ..).trans hlive,hkind⟩
  · intro h' l' hlive
    by_cases heq : h'=h
    · exact ⟨k,by rw [heq]; exact update_self ..⟩
    · rw [add_live,update_of_ne heq] at hlive
      rcases hr.owner_of_live h' l' hlive with ⟨k',hk'⟩
      have hne : k'≠k := by
        intro hsame
        rw [hsame,hk] at hk'
        cases hk'
      exact ⟨k',(update_of_ne hne ..).trans hk'⟩
  · intro k₁ k₂ h' h₁ h₂
    rcases howner k₁ h' h₁ with ⟨rfl,rfl⟩ | ⟨-,hne₁,hold₁⟩
    · rcases howner k₂ h' h₂ with ⟨rfl,-⟩ | ⟨-,hne₂,-⟩
      · rfl
      · exact absurd rfl hne₂
    · rcases howner k₂ h' h₂ with ⟨-,rfl⟩ | ⟨-,-,hold₂⟩
      · exact absurd rfl hne₁
      · exact hr.injective k₁ k₂ h' hold₁ hold₂

theorem Exact.release (hr : r.Exact kind) {k : κ} {h : η} (hk : r.owner k=some h) :
    (r.release k h).Exact kind := by
  have howner : ∀ k' h', (r.release k h).owner k'=some h' → k'≠k ∧ h'≠h ∧ r.owner k'=some h' := by
    intro k' h' hk'
    by_cases heq : k'=k
    · rw [heq,release_owner,update_self] at hk'
      cases hk'
    · rw [release_owner,update_of_ne heq] at hk'
      exact ⟨heq,hr.ne_of_ne hk hk' heq,hk'⟩
  constructor
  · intro k' h' hk'
    rcases howner k' h' hk' with ⟨-,hne,hold⟩
    rcases hr.live_of_owner k' h' hold with ⟨l,hlive,hkind⟩
    exact ⟨l,(update_of_ne hne ..).trans hlive,hkind⟩
  · intro h' l hlive
    have hne : h'≠h := by
      intro heq
      rw [heq,release_live,update_self] at hlive
      cases hlive
    rw [release_live,update_of_ne hne] at hlive
    rcases hr.owner_of_live h' l hlive with ⟨k',hk'⟩
    have hother : k'≠k := by
      intro heq
      rw [heq,hk] at hk'
      exact hne (Option.some.inj hk').symm
    exact ⟨k',(update_of_ne hother ..).trans hk'⟩
  · intro k₁ k₂ h' h₁ h₂
    exact hr.injective k₁ k₂ h' (howner k₁ h' h₁).2.2 (howner k₂ h' h₂).2.2

/-- Every change keeps the registry exact. -/
theorem Exact.step (hr : r.Exact kind) (h : Step kind r r') : r'.Exact kind := by
  cases h with
  | stay => exact hr
  | add hk hh hl => exact hr.add hk hh hl
  | release hk => exact hr.release hk

end Registry

end MsnGuard.HandleRegistry
