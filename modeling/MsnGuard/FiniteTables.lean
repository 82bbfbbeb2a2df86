import Mathlib.Data.List.AList
import Mathlib.Tactic

/-!
# Finite tables seen as functions

A table maps finitely many numbers to values. A view looks at one aspect of
every value. Inserting into a table and erasing from it update the view at one
place, and a change that keeps the aspect keeps the view.
-/

namespace MsnGuard.FiniteTables

open List Option Function

variable {α β : Type}
variable {k k' : ℕ}

/-- A map from numbers to values. -/
abbrev Table (α : Type) := AList fun _ : ℕ => α

/-- One aspect of the values of a table. -/
def view (f : α → β) (t : Table α) (k : ℕ) : Option β := (t.lookup k).map f

variable {f : α → β} {t : Table α}

theorem view_eq_some {b : β} :
    view f t k=some b ↔ ∃ a, t.lookup k=some a ∧ f a=b := map_eq_some_iff

theorem view_eq_none : view f t k=none ↔ t.lookup k=none := map_eq_none_iff

variable {a : α}

theorem view_of_lookup (h : t.lookup k=some a) : view f t k=some (f a) := by
  rw [view,h,map_some]

theorem lookup_insert_eq (t : Table α) (k k' : ℕ) (a : α) :
    (t.insert k a).lookup k'=if k'=k then some a else t.lookup k' := by
  by_cases h : k'=k
  · rw [if_pos h,h,AList.lookup_insert]
  · rw [if_neg h,AList.lookup_insert_ne h]

theorem lookup_erase_eq (t : Table α) (k k' : ℕ) :
    (t.erase k).lookup k'=if k'=k then none else t.lookup k' := by
  by_cases h : k'=k
  · rw [if_pos h,h,AList.lookup_erase]
  · rw [if_neg h,AList.lookup_erase_ne h]

/-- What a table with an inserted value holds is that value or was there. -/
theorem lookup_of_insert {b : α} (h : (t.insert k a).lookup k'=some b) :
    k'=k ∧ b=a ∨ k'≠k ∧ t.lookup k'=some b := by
  rw [lookup_insert_eq] at h
  split at h
  case isTrue heq => exact .inl ⟨heq,(some.inj h).symm⟩
  case isFalse hne => exact .inr ⟨hne,h⟩

theorem lookup_of_erase (h : (t.erase k).lookup k'=some a) : t.lookup k'=some a := by
  rw [lookup_erase_eq] at h
  split at h
  · cases h
  · exact h

theorem view_insert (f : α → β) (t : Table α) (k : ℕ) (a : α) :
    view f (t.insert k a)=update (view f t) k (some (f a)) := by
  funext k'
  by_cases h : k'=k
  · rw [view,lookup_insert_eq,if_pos h,h,update_self,map_some]
  · rw [view,lookup_insert_eq,if_neg h,update_of_ne h,view]

theorem view_erase (f : α → β) (t : Table α) (k : ℕ) :
    view f (t.erase k)=update (view f t) k none := by
  funext k'
  by_cases h : k'=k
  · rw [view,lookup_erase_eq,if_pos h,h,update_self,map_none]
  · rw [view,lookup_erase_eq,if_neg h,update_of_ne h,view]

/-- A new value with the same aspect does not change the view. -/
theorem view_insert_same {a' : α} (h : t.lookup k=some a) (hf : f a'=f a) :
    view f (t.insert k a')=view f t := by
  rw [view_insert,hf,←view_of_lookup h,update_eq_self]

/-- What a map with one place changed holds is new or was there. -/
theorem update_eq_some {κ : Type} [DecidableEq κ] {f : κ → Option α} {k k' : κ} {new : Option α}
    (h : update f k new k'=some a) : k'=k ∧ new=some a ∨ k'≠k ∧ f k'=some a := by
  rcases eq_or_ne k' k with rfl | hne
  · rw [update_self] at h
    exact .inl ⟨rfl,h⟩
  · rw [update_of_ne hne] at h
    exact .inr ⟨hne,h⟩

section Size

theorem length_insert_le (t : Table α) (k : ℕ) (a : α) :
    (t.insert k a).entries.length≤t.entries.length+1 := by
  rw [AList.entries_insert,length_cons]
  exact Nat.succ_le_succ (kerase_sublist k t.entries).length_le

theorem length_erase_le (t : Table α) (k : ℕ) : (t.erase k).entries.length≤t.entries.length :=
  (kerase_sublist k t.entries).length_le

theorem length_erase_lt {t : Table α} {k : ℕ} (h : (t.lookup k).isSome=true) :
    (t.erase k).entries.length<t.entries.length := by
  obtain ⟨a,front,back,_,hentries,herase⟩ := exists_of_kerase (AList.lookup_isSome.mp h)
  have hsmall : (t.erase k).entries=front++back := herase
  rw [hsmall,hentries,length_append,length_append,length_cons]
  omega

/-- A table holds only what another one holds, and is smaller if anything is missing. -/
structure Shrinks (small big : Table α) : Prop where
  holds : ∀ k a, small.lookup k=some a → big.lookup k=some a
  length : small.entries.length≤big.entries.length
  missing : ∀ k, (big.lookup k).isSome=true →
    (small.lookup k).isSome=true ∨ small.entries.length<big.entries.length

theorem Shrinks.refl (t : Table α) : Shrinks t t := ⟨fun _ _ h => h,le_rfl,fun _ h => .inl h⟩

theorem Shrinks.trans {t t' t'' : Table α} (h : Shrinks t' t) (h' : Shrinks t'' t') :
    Shrinks t'' t where
  holds k a ha := h.holds k a (h'.holds k a ha)
  length := h'.length.trans h.length
  missing k hk := by
    rcases h.missing k hk with hmid | hless
    · rcases h'.missing k hmid with hsmall | hless
      · exact .inl hsmall
      · exact .inr (hless.trans_le h.length)
    · exact .inr (h'.length.trans_lt hless)

theorem shrinks_erase (t : Table α) (k : ℕ) : Shrinks (t.erase k) t where
  holds _ _ h := lookup_of_erase h
  length := length_erase_le t k
  missing k' hk' := by
    by_cases h : k'=k
    · rw [h] at hk'
      exact .inr (length_erase_lt hk')
    · left
      rwa [lookup_erase_eq,if_neg h]

theorem shrinks_empty (t : Table α) : Shrinks (∅ : Table α) t where
  holds _ _ h := by cases h
  length := Nat.zero_le _
  missing k hk := .inr ((Nat.zero_le _).trans_lt (length_erase_lt hk))

end Size

end MsnGuard.FiniteTables
