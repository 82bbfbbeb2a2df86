import Mathlib.Data.List.AList

/-!
# Environments of a process and the writes that change them

A program changes its environment by a list of writes, each of which sets one variable or
removes it. What a variable holds afterwards is its last write, and without a write the value it
had.
-/

namespace MsnGuard.ProcessEnvironments

open List Function

variable {κ ν : Type}
variable {c : Bool}

/-- The values of the variables of a process. -/
abbrev Env (κ ν : Type) := κ → Option ν

/-- A process in which no variable is set. -/
def unsetEnv : Env κ ν := fun _ => none

/-- One write to an environment or to a map of variables. -/
inductive Write (κ ν : Type) where
  /-- The variable gets a value. -/
  | set (k : κ) (v : ν)
  /-- The variable is removed. -/
  | unset (k : κ)

/-- The variable that is written. -/
def Write.key : Write κ ν → κ
  | .set k _ => k
  | .unset k => k

/-- What the variable holds after the write. -/
def Write.value : Write κ ν → Option ν
  | .set _ v => some v
  | .unset _ => none

/-- The variables of a list of writes. -/
def keys (ws : List (Write κ ν)) : List κ := ws.map Write.key

/-- The variables that a list of writes removes somewhere. -/
def removed : List (Write κ ν) → List κ
  | [] => []
  | .set _ _::ws => removed ws
  | .unset k::ws => k::removed ws

/-- Writes that are made under a condition. -/
def onlyIf (c : Bool) (ws : List (Write κ ν)) : List (Write κ ν) := if c then ws else []

@[simp] theorem keys_nil : keys ([] : List (Write κ ν))=[] := rfl

@[simp] theorem keys_set (k : κ) (v : ν) (ws : List (Write κ ν)) :
    keys (.set k v::ws)=k::keys ws := rfl

@[simp] theorem keys_unset (k : κ) (ws : List (Write κ ν)) :
    keys (.unset k::ws)=k::keys ws := rfl

@[simp] theorem keys_append (ws ws' : List (Write κ ν)) :
    keys (ws++ws')=keys ws++keys ws' := map_append

variable {ws : List (Write κ ν)} {k : κ}

@[simp] theorem mem_keys_onlyIf : k∈keys (onlyIf c ws) ↔ c=true ∧ k∈keys ws := by
  cases c <;> simp [onlyIf]

@[simp] theorem removed_nil : removed ([] : List (Write κ ν))=[] := rfl

@[simp] theorem removed_set (k : κ) (v : ν) (ws : List (Write κ ν)) :
    removed (.set k v::ws)=removed ws := rfl

@[simp] theorem removed_unset (k : κ) (ws : List (Write κ ν)) :
    removed (.unset k::ws)=k::removed ws := rfl

@[simp] theorem removed_append (ws ws' : List (Write κ ν)) :
    removed (ws++ws')=removed ws++removed ws' := by
  induction ws with
  | nil => rfl
  | cons w ws ih => cases w <;> simp [ih]

@[simp] theorem mem_removed_onlyIf : k∈removed (onlyIf c ws) ↔ c=true ∧ k∈removed ws := by
  cases c <;> simp [onlyIf]

/-- A finite map of variables to values. -/
abbrev Settings (κ ν : Type) := AList fun _ : κ => ν

/-- Set every variable of a map. -/
def setAll (m : Settings κ ν) : List (Write κ ν) := m.entries.map fun entry => .set entry.1 entry.2

theorem mem_keys_setAll {m : Settings κ ν} : k∈keys (setAll m) ↔ k∈m := by
  rw [AList.mem_keys,AList.keys,List.keys,keys,setAll,List.map_map]
  rfl

theorem removed_setAll (m : Settings κ ν) : removed (setAll m)=[] := by
  rw [setAll]
  induction m.entries with
  | nil => rfl
  | cons entry rest ih => exact ih

/-- Remove the variables of a list. -/
def unsetAll (ks : List κ) : List (Write κ ν) := ks.map .unset

theorem keys_unsetAll (ks : List κ) : keys (unsetAll ks : List (Write κ ν))=ks := by
  rw [keys,unsetAll,List.map_map]
  exact map_id ks

theorem removed_unsetAll (ks : List κ) : removed (unsetAll ks : List (Write κ ν))=ks := by
  rw [unsetAll]
  induction ks with
  | nil => rfl
  | cons k ks ih => rw [map_cons,removed_unset,ih]

variable [DecidableEq κ]

/-- One write to an environment. -/
def Write.run (w : Write κ ν) (e : Env κ ν) : Env κ ν := Function.update e w.key w.value

/-- Writes to an environment, one after the other. -/
def exec (ws : List (Write κ ν)) (e : Env κ ν) : Env κ ν := ws.foldl (fun e w => w.run e) e

@[simp] theorem exec_nil (e : Env κ ν) : exec [] e=e := rfl

@[simp] theorem exec_cons (w : Write κ ν) (ws : List (Write κ ν)) (e : Env κ ν) :
    exec (w::ws) e=exec ws (w.run e) := rfl

/-- A variable that is not written keeps its value. -/
theorem exec_of_not_mem (h : k ∉ keys ws) (e : Env κ ν) : exec ws e k=e k := by
  induction ws generalizing e with
  | nil => rfl
  | cons w ws ih =>
    have hne : k≠w.key := fun heq => h (heq ▸ mem_cons_self)
    rw [exec_cons,ih fun hmem => h (mem_cons_of_mem _ hmem),Write.run,
      update_of_ne hne]

/-- A variable that is written does not depend on the value it had. -/
theorem exec_of_mem (h : k∈keys ws) (e e' : Env κ ν) : exec ws e k=exec ws e' k := by
  induction ws generalizing e e' with
  | nil => cases h
  | cons w ws ih =>
    by_cases hlater : k∈keys ws
    · exact ih hlater _ _
    · have hk : k=w.key := (mem_cons.mp h).resolve_right hlater
      rw [exec_cons,exec_cons,exec_of_not_mem hlater,exec_of_not_mem hlater,hk,Write.run,
        Write.run,update_self,update_self]

/-- Among writes to different variables each one decides what its variable holds. -/
theorem exec_of_nodup (hws : (keys ws).Nodup) {w : Write κ ν} (h : w∈ws) (e : Env κ ν) :
    exec ws e w.key=w.value := by
  induction ws generalizing e with
  | nil => cases h
  | cons w' ws ih =>
    obtain ⟨hnew,hrest⟩ := nodup_cons.mp hws
    rcases mem_cons.mp h with rfl | hmem
    · rw [exec_cons,exec_of_not_mem hnew,Write.run,update_self]
    · exact ih hrest hmem _

/-- Writes leave nothing of an earlier environment exactly where it differs only
in variables that they write. -/
theorem exec_eq_exec_iff (ws : List (Write κ ν)) (e e' : Env κ ν) :
    exec ws e=exec ws e' ↔ ∀ k ∉ keys ws, e k=e' k := by
  constructor
  · intro h k hk
    rw [←exec_of_not_mem hk e,←exec_of_not_mem hk e',h]
  · intro h
    funext k
    by_cases hk : k∈keys ws
    · exact exec_of_mem hk e e'
    · rw [exec_of_not_mem hk,exec_of_not_mem hk,h k hk]

/-- A variable that is never removed is set afterwards if it is written or was set. -/
theorem exec_isSome (h : k ∉ removed ws) (e : Env κ ν) :
    (exec ws e k).isSome ↔ k∈keys ws ∨ (e k).isSome := by
  induction ws generalizing e with
  | nil => simp
  | cons w ws ih =>
    cases w with
    | set j v =>
      rw [exec_cons,ih h,keys_set,mem_cons,or_assoc]
      by_cases hj : k=j
      · simp [Write.run,Write.key,Write.value,hj]
      · simp [Write.run,Write.key,hj]
    | unset j =>
      rw [removed_unset,mem_cons,not_or] at h
      rw [exec_cons,ih h.2,keys_unset,mem_cons,or_assoc]
      simp [Write.run,Write.key,h.1]

/-- One write to a map. -/
def Write.fill (w : Write κ ν) (m : Settings κ ν) : Settings κ ν :=
  match w with
  | .set k v => m.insert k v
  | .unset k => m.erase k

/-- Writes to a map, one after the other. -/
def fill (ws : List (Write κ ν)) (m : Settings κ ν) : Settings κ ν :=
  ws.foldl (fun m w => w.fill m) m

theorem fill_append (ws ws' : List (Write κ ν)) (m : Settings κ ν) :
    fill (ws++ws') m=fill ws' (fill ws m) := foldl_append

theorem Write.lookup_fill (w : Write κ ν) (m : Settings κ ν) (k : κ) :
    (w.fill m).lookup k=w.run (m.lookup) k := by
  cases w with
  | set j v =>
    by_cases hj : k=j
    · rw [hj,Write.fill,AList.lookup_insert,Write.run,Write.key,update_self,Write.value]
    · rw [Write.fill,AList.lookup_insert_ne hj,Write.run,Write.key,update_of_ne hj]
  | unset j =>
    by_cases hj : k=j
    · rw [hj,Write.fill,AList.lookup_erase,Write.run,Write.key,update_self,Write.value]
    · rw [Write.fill,AList.lookup_erase_ne hj,Write.run,Write.key,update_of_ne hj]

/-- A map is filled as an environment is written. -/
theorem lookup_fill (ws : List (Write κ ν)) (m : Settings κ ν) (k : κ) :
    (fill ws m).lookup k=exec ws (m.lookup) k := by
  induction ws generalizing m with
  | nil => rfl
  | cons w ws ih =>
    have hw : (fun j => (w.fill m).lookup j)=w.run fun j => m.lookup j :=
      funext fun j => w.lookup_fill m j
    rw [exec_cons,←hw]
    exact ih (w.fill m)

/-- A new map has the variables that are written and not removed. -/
theorem mem_fill_empty (h : k ∉ removed ws) : k∈fill ws ∅ ↔ k∈keys ws := by
  rw [←AList.lookup_isSome,lookup_fill,exec_isSome h]
  simp

end MsnGuard.ProcessEnvironments
