import Mathlib.Data.List.AList
import MsnGuard.FloatFormats
import MsnGuard.RustText

/-!
# Preference files and their editors

A preference file maps keys to values of six types. An editor collects changes and writes them
when it is committed: a clear first, however late it was asked for, then the last change of
every key.
-/

namespace MsnGuard.PreferenceFiles

open RustText FloatFormats List

/-- The values a preference file can hold. -/
inductive Value where
  | boolean (b : Bool)
  | int (n : Int32)
  | long (n : Int64)
  | float (x : Single)
  | string (s : Text)
  | stringSet (s : Finset Text)
  deriving DecidableEq

section Files

variable {α : Type}

/-- A file: its keys are different, its order is the order in which it is walked. -/
abbrev File (α : Type) := AList (fun _ : Text => α)

theorem lookup_insert_eq (file : File α) (k k' : Text) (v : α) :
    (file.insert k v).lookup k'=if k'=k then some v else file.lookup k' := by
  split
  case isTrue h => rw [h,AList.lookup_insert]
  case isFalse h => rw [AList.lookup_insert_ne h]

theorem lookup_erase_eq (file : File α) (k k' : Text) :
    (file.erase k).lookup k'=if k'=k then none else file.lookup k' := by
  split
  case isTrue h => rw [h,AList.lookup_erase]
  case isFalse h => rw [AList.lookup_erase_ne h]

/-- The entries of a file are what it says under its keys. -/
theorem mem_entries_iff {file : File α} {k : Text} {v : α} :
    (⟨k,v⟩ : Sigma fun _ : Text => α)∈file.entries ↔ file.lookup k=some v :=
  AList.mem_lookup_iff.symm

/-- What an editor has collected: the clear and the last change of each key, where a change is
a new value or a removal. -/
structure Editor (α : Type) where
  cleared : Bool
  changes : File (Option α)

namespace Editor

/-- An editor with nothing to write. -/
def fresh : Editor α := ⟨false,∅⟩

/-- Collect a new value for a key. -/
def put (e : Editor α) (k : Text) (v : α) : Editor α := {e with changes := e.changes.insert k v}

/-- Collect the removal of a key. -/
def remove (e : Editor α) (k : Text) : Editor α :=
  {e with changes := e.changes.insert k none}

/-- Ask for everything to go before the changes are written. -/
def clear (e : Editor α) : Editor α := {e with cleared := true}

end Editor

/-- Write one collected change. -/
def writeChange (file : File α) (change : Sigma fun _ : Text => Option α) : File α :=
  match change.2 with
  | some v => file.insert change.1 v
  | none => file.erase change.1

/-- The file after a commit of the editor. -/
def commit (e : Editor α) (file : File α) : File α :=
  e.changes.entries.foldl writeChange (if e.cleared then ∅ else file)

theorem lookup_writeChange (file : File α) (change : Sigma fun _ : Text => Option α) (k : Text) :
    (writeChange file change).lookup k=if k=change.1 then change.2 else file.lookup k := by
  unfold writeChange
  cases h : change.2 with
  | none => exact lookup_erase_eq file change.1 k
  | some v => exact lookup_insert_eq file change.1 k v

/-- Changes of other keys do not touch a key. -/
theorem lookup_foldl_other {changes : List (Sigma fun _ : Text => Option α)} {k : Text}
    (h : ∀ change∈changes, change.1≠k) (file : File α) :
    (changes.foldl writeChange file).lookup k=file.lookup k := by
  induction changes generalizing file with
  | nil => rfl
  | cons change changes ih =>
    have hhead : k≠change.1 := (h change mem_cons_self).symm
    rw [foldl_cons,ih fun c hc => h c (mem_cons_of_mem _ hc),lookup_writeChange,
      if_neg hhead]

/-- Changes of different keys are written in whatever order they are collected. -/
theorem lookup_foldl {changes : List (Sigma fun _ : Text => Option α)}
    (hnodup : changes.NodupKeys) (file : File α) (k : Text) :
    (changes.foldl writeChange file).lookup k=(changes.dlookup k).getD (file.lookup k) := by
  induction changes generalizing file with
  | nil => rfl
  | cons change changes ih =>
    obtain ⟨key,c⟩ := change
    have hparts := nodupKeys_cons.mp hnodup
    rw [foldl_cons]
    by_cases hk : k=key
    · subst hk
      have hother : ∀ change∈changes, change.1≠k := by
        intro change hc he
        have hmem : change.1∈changes.keys := mem_map_of_mem hc
        exact hparts.1 (he ▸ hmem)
      rw [lookup_foldl_other hother,lookup_writeChange,if_pos rfl,dlookup_cons_eq]
      rfl
    · have hskip : dlookup k (⟨key,c⟩::changes)=dlookup k changes :=
        dlookup_cons_ne changes ⟨key,c⟩ hk
      rw [ih hparts.2,lookup_writeChange,if_neg hk,hskip]

/-- What a commit leaves under a key. -/
theorem lookup_commit (e : Editor α) (file : File α) (k : Text) :
    (commit e file).lookup k=
      (e.changes.lookup k).getD (if e.cleared then none else file.lookup k) := by
  unfold commit
  rw [lookup_foldl e.changes.nodupKeys]
  cases e.cleared with
  | true | false => rfl

/-- One put and a commit. -/
theorem lookup_commit_put (file : File α) (k q : Text) (v : α) :
    (commit (Editor.fresh.put k v) file).lookup q=if q=k then some v else file.lookup q := by
  rw [lookup_commit]
  simp only [Editor.put,Editor.fresh,lookup_insert_eq,AList.lookup_empty]
  split
  · rfl
  · rfl

/-- One removal and a commit. -/
theorem lookup_commit_remove (file : File α) (k q : Text) :
    (commit (Editor.fresh.remove k) file).lookup q=if q=k then none else file.lookup q := by
  rw [lookup_commit]
  simp only [Editor.remove,Editor.fresh,lookup_insert_eq,AList.lookup_empty]
  split
  · rfl
  · rfl

/-- A put that is collected last wins, and changes nothing of the other keys. -/
theorem lookup_put (e : Editor α) (k q : Text) (v : α) :
    (e.put k v).changes.lookup q=if q=k then some (some v) else e.changes.lookup q :=
  lookup_insert_eq e.changes k q (some v)

/-- A removal that is collected last wins, and changes nothing of the other keys. -/
theorem lookup_remove (e : Editor α) (k q : Text) :
    (e.remove k).changes.lookup q=if q=k then some none else e.changes.lookup q :=
  lookup_insert_eq e.changes k q none

end Files

end MsnGuard.PreferenceFiles
