import Mathlib.Tactic

/-!
# Runs of a machine with a history

A machine executes actions that its surroundings allow. An action leads to a new state and adds
events to the history, or stops the machine with an error. What holds at the start and is kept
by every step of a run holds at its end.
-/

namespace MsnGuard.TransitionRuns

open List

variable {σ α ε : Type}

/-- A machine over states, actions and events. -/
structure Machine (σ α ε : Type) where
  /-- The states in which a run may begin. -/
  start : σ → Prop
  /-- What the surroundings may do in a state. -/
  allowed : σ → α → Prop
  /-- The next state and the new events, or nothing when the machine fails. -/
  exec : σ → α → Option (σ × List ε)

/-- No condition on the steps. -/
def always : List ε → σ → α → Prop := fun _ _ _ => True

/-- The histories and states that runs reach whose steps all meet a condition. -/
inductive Machine.Run (m : Machine σ α ε) (cond : List ε → σ → α → Prop) : List ε → σ → Prop
  | start {s : σ} : m.start s → Run m cond [] s
  | step {t : List ε} {s s' : σ} {a : α} {new : List ε} : Run m cond t s → m.allowed s a →
      cond t s a → m.exec s a=some (s',new) → Run m cond (t++new) s'

namespace Machine

variable {m : Machine σ α ε} {cond : List ε → σ → α → Prop}
variable {t new : List ε} {s s' : σ} {check : σ → α → Bool} {k : ℕ}

/-- A run goes on by an action. -/
theorem Run.next (h : m.Run cond t s) (a : α) (ha : m.allowed s a) (hc : cond t s a)
    (he : m.exec s a=some (s',new)) : m.Run cond (t++new) s' := .step h ha hc he

/-- Execute actions one after the other, as long as each passes a check. -/
def replay (m : Machine σ α ε) (check : σ → α → Bool) : σ → List α → Option (σ × List ε)
  | s,[] => some (s,[])
  | s,a::rest =>
    if check s a then
      (m.exec s a).bind fun (s',new) =>
        (m.replay check s' rest).map fun (s'',more) => (s'',new++more)
    else none

/-- A run goes on by actions that pass a check. -/
theorem Run.replay (hcheck : ∀ t s a, check s a=true → m.allowed s a ∧ cond t s a)
    (actions : List α) (h : m.Run cond t s) (he : m.replay check s actions=some (s',new)) :
    m.Run cond (t++new) s' := by
  induction actions generalizing t s new with
  | nil =>
    cases he
    rwa [append_nil]
  | cons a rest ih =>
    simp only [Machine.replay] at he
    split at he
    · rename_i hpass
      obtain ⟨⟨mid,first⟩,hfirst,hrest⟩ := Option.bind_eq_some_iff.mp he
      obtain ⟨⟨last,more⟩,hmore,heq⟩ := Option.map_eq_some_iff.mp hrest
      cases heq
      obtain ⟨hallowed,hcond⟩ := hcheck t s a hpass
      rw [←append_assoc]
      exact ih (h.next a hallowed hcond hfirst) hmore
    · cases he

/-- What is found by executing actions one after the other is found in a run. -/
theorem exists_run {P : List ε → σ → Prop} [∀ t s, Decidable (P t s)] (check : σ → α → Bool)
    (hcheck : ∀ t s a, check s a=true → m.allowed s a ∧ cond t s a) (hs : m.start s)
    (actions : List α)
    (he : (m.replay check s actions).any (fun r => decide (P r.2 r.1))=true) :
    ∃ t s', m.Run cond t s' ∧ P t s' := by
  cases hreplay : m.replay check s actions with
  | none =>
    rw [hreplay] at he
    cases he
  | some r =>
    rw [hreplay] at he
    exact ⟨r.2,r.1,(Run.start hs).replay hcheck actions hreplay,of_decide_eq_true he⟩

/-- What is found by executing actions is found in a run, along with what every run has. -/
theorem exists_run_with {P Q : List ε → σ → Prop} [∀ t s, Decidable (P t s)]
    (check : σ → α → Bool) (hcheck : ∀ t s a, check s a=true → m.allowed s a ∧ cond t s a)
    (hs : m.start s) (actions : List α)
    (he : (m.replay check s actions).any (fun r => decide (P r.2 r.1))=true)
    (hall : ∀ t s', m.Run cond t s' → Q t s') : ∃ t s', m.Run cond t s' ∧ P t s' ∧ Q t s' := by
  obtain ⟨t,s',hrun,hfound⟩ := exists_run check hcheck hs actions he
  exact ⟨t,s',hrun,hfound,hall t s' hrun⟩

/-- What holds at the start and is kept by every step holds along every run. -/
theorem Run.invariant (inv : List ε → σ → Prop) (hstart : ∀ s, m.start s → inv [] s)
    (hstep : ∀ t s a s' new, inv t s → m.allowed s a → cond t s a →
      m.exec s a=some (s',new) → inv (t++new) s') (h : m.Run cond t s) : inv t s := by
  induction h with
  | start hs => exact hstart _ hs
  | step _ ha hc he ih => exact hstep _ _ _ _ _ ih ha hc he

/-- What every step keeps holds in every state, and what the steps from such states add
to the history is all that is in it. -/
theorem Run.safe (inv : σ → Prop) (good : ε → Prop) (hstart : ∀ s, m.start s → inv s)
    (hstep : ∀ t s a s' new, inv s → m.allowed s a → cond t s a → m.exec s a=some (s',new) →
      inv s' ∧ ∀ e∈new, good e) (h : m.Run cond t s) : inv s ∧ ∀ e∈t, good e := by
  induction h with
  | start hs => exact ⟨hstart _ hs,by simp⟩
  | step hrun ha hc he ih =>
    obtain ⟨hinv,hgood⟩ := ih
    obtain ⟨hinv',hnew⟩ := hstep _ _ _ _ _ hinv ha hc he
    refine ⟨hinv',fun e hmem => ?_⟩
    rcases mem_append.mp hmem with hold | hadded
    · exact hgood e hold
    · exact hnew e hadded

/-- A run that meets a condition is a run. -/
theorem Run.unrestricted (h : m.Run cond t s) : m.Run always t s := by
  induction h with
  | start hs => exact .start hs
  | step _ ha _ he ih => exact .step ih ha trivial he

end Machine

/-- What is kept of a history stays as long as no event changes it. -/
theorem foldl_eq_self {β : Type} {f : β → ε → β} {t : List ε} (h : ∀ e∈t, ∀ b, f b e=b)
    (b : β) : t.foldl f b=b := by
  induction t with
  | nil => rfl
  | cons e rest ih =>
    rw [foldl_cons,h e mem_cons_self b]
    exact ih fun e' he' => h e' (mem_cons_of_mem e he')

/-- Every event of a history meets a condition on the history before it. -/
def Guarded (guard : List ε → ε → Prop) (t : List ε) : Prop :=
  ∀ front e back, t=front++e::back → guard front e

theorem guarded_nil (guard : List ε → ε → Prop) : Guarded guard [] := by
  intro front e back h
  simp at h

/-- A history grows by an event that meets the condition. -/
theorem Guarded.concat {guard : List ε → ε → Prop} {t : List ε} {e : ε} (h : Guarded guard t)
    (he : guard t e) : Guarded guard (t++[e]) := by
  intro front e' back heq
  rcases eq_nil_or_concat' back with rfl | ⟨rest,last,rfl⟩
  · obtain ⟨rfl,hlast⟩ := append_inj' heq rfl
    obtain rfl := singleton_inj.mp hlast
    exact he
  · have hassoc : t++[e]=(front++e'::rest)++[last] := by
      rw [heq,append_assoc,cons_append]
    exact h front e' rest (append_inj' hassoc rfl).1

/-- A history grows by events that meet the condition whatever came before. -/
theorem Guarded.append {guard : List ε → ε → Prop} {t new : List ε} (h : Guarded guard t)
    (hnew : ∀ e∈new, ∀ front, guard front e) : Guarded guard (t++new) := by
  induction new generalizing t with
  | nil => rwa [append_nil]
  | cons e rest ih =>
    rw [append_cons]
    exact ih (h.concat (hnew e mem_cons_self t))
      (fun e' he' => hnew e' (mem_cons_of_mem e he'))

/-- Every event that opens something is followed by one that closes it. -/
def Answered (opens closes : ε → Prop) (t : List ε) : Prop :=
  ∀ front e back, t=front++e::back → opens e → ∃ e'∈back, closes e'

section Answered

variable {opens closes : ε → Prop} {t : List ε} {e : ε}

theorem answered_nil : Answered opens closes ([] : List ε) := by
  intro front e back h
  simp at h

/-- An event that closes answers whatever came before. -/
theorem answered_close (hclose : closes e) (hopen : ¬opens e) : Answered opens closes (t++[e]) := by
  intro front e' back heq hopens
  rcases eq_nil_or_concat' back with rfl | ⟨rest,last,rfl⟩
  · obtain ⟨_,hlast⟩ := append_inj' heq rfl
    rw [singleton_inj.mp hlast] at hopen
    exact absurd hopens hopen
  · have hassoc : t++[e]=(front++e'::rest)++[last] := by
      rw [heq,append_assoc,cons_append]
    rw [←singleton_inj.mp (append_inj' hassoc rfl).2]
    exact ⟨e,mem_append_right _ mem_cons_self,hclose⟩

/-- Events that do not open leave everything answered. -/
theorem Answered.append {new : List ε} (h : Answered opens closes t)
    (hnew : ∀ e∈new, ¬opens e) : Answered opens closes (t++new) := by
  intro front e back heq hopens
  rcases append_eq_append_iff.mp heq with ⟨mid,rfl,hmid⟩ | ⟨mid,rfl,hmid⟩
  · have hmem : e∈new := by
      rw [hmid]
      exact mem_append_right _ mem_cons_self
    exact absurd hopens (hnew e hmem)
  · cases mid with
    | nil =>
      have hmem : e∈new := by
        rw [←nil_append new,←hmid]
        exact mem_cons_self
      exact absurd hopens (hnew e hmem)
    | cons first rest =>
      cases hmid
      obtain ⟨e',hmem,hcloses⟩ := h front _ rest rfl hopens
      exact ⟨e',mem_append_left _ hmem,hcloses⟩

end Answered

end MsnGuard.TransitionRuns
