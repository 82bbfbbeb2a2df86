import Mathlib.Tactic

/-!
# Programs that are dropped while they wait, and the tasks they leave

A function that is dropped at a suspension drops what it owns: a task whose abort handle is in a
guard ends with it, a task whose handle is dropped goes on by itself. The programs keep the
writes, suspensions, branches, guards and tasks of a function.
-/

namespace MsnGuard.CancellableTasks

variable {σ τ : Type}

/-- How a piece of a program ends. -/
inductive Outcome where
  /-- The next statement is reached. -/
  | next
  /-- The function returns its value. -/
  | ret
  /-- The function returns an error. -/
  | err
  /-- The program is dropped at a suspension. -/
  | cut
  deriving DecidableEq

/-- The statements of a program over a store and over named tasks. -/
inductive Prog (σ τ : Type) : Type 1 where
  /-- Change the store. -/
  | write (f : σ → σ)
  /-- Wait for something. -/
  | await
  /-- Return a value. -/
  | ret
  /-- Return an error. -/
  | err
  /-- Start a task and drop its handle. -/
  | detach (t : τ)
  /-- Start a task that a guard aborts where the block ends, however it ends. -/
  | hold (t : τ) (p : Prog σ τ)
  /-- Start a task that the code aborts where the block ends by itself. -/
  | bare (t : τ) (p : Prog σ τ)
  /-- Go on as the store says. -/
  | read (k : σ → Prog σ τ)
  /-- Go on as something outside of the program says. -/
  | choose (ι : Type) (k : ι → Prog σ τ)
  /-- One statement after the other. -/
  | seq (p q : Prog σ τ)
  /-- Some rounds of a loop. -/
  | many (p : Prog σ τ)
  /-- A loop that is left only by a return. -/
  | forever (p : Prog σ τ)
  /-- Call a function and go on with its value or with its error. -/
  | attempt (p ok bad : Prog σ τ)

/-- The statement that does nothing. -/
def skip : Prog σ τ := .write id

/-- The store and the tasks that are running. -/
structure Machine (σ τ : Type) where
  /-- What the program reads and writes. -/
  store : σ
  /-- The tasks of the guards, the innermost first. -/
  held : List τ
  /-- The tasks that nothing holds. -/
  loose : List τ

/-- What is left of the loose tasks after some time: some of those that can end
by themselves have ended. -/
def Ended (mortal : τ → Prop) (before after : List τ) : Prop :=
  after.Sublist before ∧ ∀ t∈before, ¬mortal t → t∈after

theorem Ended.refl (mortal : τ → Prop) (l : List τ) : Ended mortal l l :=
  ⟨List.Sublist.refl l,fun _ ht _ => ht⟩

/-- The runs of a program, from one machine to another. -/
inductive Exec (mortal : τ → Prop) : Prog σ τ → Machine σ τ → Outcome → Machine σ τ → Prop where
  | write (f : σ → σ) (m : Machine σ τ) :
      Exec mortal (.write f) m .next {m with store := f m.store}
  | pass {m : Machine σ τ} {l : List τ} (h : Ended mortal m.loose l) :
      Exec mortal .await m .next {m with loose := l}
  | cut {m : Machine σ τ} {l : List τ} (h : Ended mortal m.loose l) :
      Exec mortal .await m .cut {m with loose := l}
  | ret (m : Machine σ τ) : Exec mortal .ret m .ret m
  | err (m : Machine σ τ) : Exec mortal .err m .err m
  | detach (t : τ) (m : Machine σ τ) :
      Exec mortal (.detach t) m .next {m with loose := t::m.loose}
  | hold {t : τ} {p : Prog σ τ} {m m' : Machine σ τ} {o : Outcome}
      (h : Exec mortal p {m with held := t::m.held} o m') :
      Exec mortal (.hold t p) m o {m' with held := m'.held.tail}
  | bareEnded {t : τ} {p : Prog σ τ} {m m' : Machine σ τ} {o : Outcome}
      (h : Exec mortal p {m with held := t::m.held} o m') (ho : o≠.cut) :
      Exec mortal (.bare t p) m o {m' with held := m'.held.tail}
  | bareCut {t : τ} {p : Prog σ τ} {m m' : Machine σ τ}
      (h : Exec mortal p {m with held := t::m.held} .cut m') :
      Exec mortal (.bare t p) m .cut {m' with held := m'.held.tail, loose := t::m'.loose}
  | read {k : σ → Prog σ τ} {m m' : Machine σ τ} {o : Outcome}
      (h : Exec mortal (k m.store) m o m') : Exec mortal (.read k) m o m'
  | choose {ι : Type} {k : ι → Prog σ τ} (i : ι) {m m' : Machine σ τ} {o : Outcome}
      (h : Exec mortal (k i) m o m') : Exec mortal (.choose ι k) m o m'
  | seqNext {p q : Prog σ τ} {m mid m' : Machine σ τ} {o : Outcome}
      (h : Exec mortal p m .next mid) (h' : Exec mortal q mid o m') :
      Exec mortal (.seq p q) m o m'
  | seqStop {p q : Prog σ τ} {m m' : Machine σ τ} {o : Outcome}
      (h : Exec mortal p m o m') (ho : o≠.next) : Exec mortal (.seq p q) m o m'
  | manyDone (p : Prog σ τ) (m : Machine σ τ) : Exec mortal (.many p) m .next m
  | manyNext {p : Prog σ τ} {m mid m' : Machine σ τ} {o : Outcome}
      (h : Exec mortal p m .next mid) (h' : Exec mortal (.many p) mid o m') :
      Exec mortal (.many p) m o m'
  | manyStop {p : Prog σ τ} {m m' : Machine σ τ} {o : Outcome}
      (h : Exec mortal p m o m') (ho : o≠.next) : Exec mortal (.many p) m o m'
  | foreverNext {p : Prog σ τ} {m mid m' : Machine σ τ} {o : Outcome}
      (h : Exec mortal p m .next mid) (h' : Exec mortal (.forever p) mid o m') :
      Exec mortal (.forever p) m o m'
  | foreverStop {p : Prog σ τ} {m m' : Machine σ τ} {o : Outcome}
      (h : Exec mortal p m o m') (ho : o≠.next) : Exec mortal (.forever p) m o m'
  | attemptOk {p ok bad : Prog σ τ} {m mid m' : Machine σ τ} {o o' : Outcome}
      (h : Exec mortal p m o mid) (ho : o=.next ∨ o=.ret) (h' : Exec mortal ok mid o' m') :
      Exec mortal (.attempt p ok bad) m o' m'
  | attemptErr {p ok bad : Prog σ τ} {m mid m' : Machine σ τ} {o' : Outcome}
      (h : Exec mortal p m .err mid) (h' : Exec mortal bad mid o' m') :
      Exec mortal (.attempt p ok bad) m o' m'
  | attemptCut {p ok bad : Prog σ τ} {m m' : Machine σ τ}
      (h : Exec mortal p m .cut m') : Exec mortal (.attempt p ok bad) m .cut m'

variable {mortal : τ → Prop} {p : Prog σ τ} {m m' : Machine σ τ} {o : Outcome}

variable {t : τ}

/-- A loose task that does not end by itself is never stopped. -/
theorem Exec.loose_of_immortal (ht : ¬mortal t) (h : Exec mortal p m o m') (hmem : t∈m.loose) :
    t∈m'.loose := by
  induction h with
  | write | ret | err | manyDone => exact hmem
  | pass hended | cut hended => exact hended.2 t hmem ht
  | detach => exact List.mem_cons_of_mem _ hmem
  | hold _ ih | bareEnded _ _ ih | read _ ih | choose _ _ ih | seqStop _ _ ih | manyStop _ _ ih
  | foreverStop _ _ ih | attemptCut _ ih => exact ih hmem
  | bareCut _ ih => exact List.mem_cons_of_mem _ (ih hmem)
  | seqNext _ _ ih ih' | manyNext _ _ ih ih' | foreverNext _ _ ih ih' | attemptOk _ _ _ ih ih'
  | attemptErr _ _ ih ih' => exact ih' (ih hmem)

/-- A program without a suspension. -/
def Immediate : Prog σ τ → Prop
  | .write _ | .ret | .err | .detach _ => True
  | .await => False
  | .hold _ p | .bare _ p | .many p | .forever p => Immediate p
  | .read k => ∀ s, Immediate (k s)
  | .choose _ k => ∀ i, Immediate (k i)
  | .seq p q => Immediate p ∧ Immediate q
  | .attempt p ok bad => Immediate p ∧ Immediate ok ∧ Immediate bad

/-- A program without a suspension cannot be dropped half way. -/
theorem Exec.ne_cut (h : Exec mortal p m o m') (hp : Immediate p) : o≠.cut := by
  induction h with
  | write | ret | err | detach | manyDone | pass => exact Outcome.noConfusion
  | cut => exact hp.elim
  | hold _ ih | manyStop _ _ ih | foreverStop _ _ ih => exact ih hp
  | bareEnded _ ho => exact ho
  | bareCut _ ih => exact absurd rfl (ih hp)
  | read _ ih => exact ih (hp _)
  | choose i _ ih => exact ih (hp i)
  | seqNext _ _ _ ih' => exact ih' hp.2
  | seqStop _ _ ih => exact ih hp.1
  | manyNext _ _ _ ih' | foreverNext _ _ _ ih' => exact ih' hp
  | attemptOk _ _ _ _ ih' => exact ih' hp.2.1
  | attemptErr _ _ _ ih' => exact ih' hp.2.2
  | attemptCut _ ih => exact absurd rfl (ih hp.1)

/-- A program that is dropped has passed what has no suspension. -/
theorem Exec.seq_cut {q : Prog σ τ} (h : Exec mortal (.seq p q) m .cut m') (hp : Immediate p) :
    ∃ mid, Exec mortal p m .next mid ∧ Exec mortal q mid .cut m' := by
  cases h with
  | seqNext hfirst hrest => exact ⟨_,hfirst,hrest⟩
  | seqStop hfirst _ => exact absurd rfl (hfirst.ne_cut hp)

/-- Every write keeps a property of the store, and every task that is or can
become loose is an allowed one. Branches that the property rules out do not count. -/
def Keeps (inv : σ → Prop) (allowed : τ → Prop) : Prog σ τ → Prop
  | .write f => ∀ s, inv s → inv (f s)
  | .await | .ret | .err => True
  | .detach t => allowed t
  | .hold _ p | .many p | .forever p => Keeps inv allowed p
  | .bare t p => allowed t ∧ Keeps inv allowed p
  | .read k => ∀ s, inv s → Keeps inv allowed (k s)
  | .choose _ k => ∀ i, Keeps inv allowed (k i)
  | .seq p q => Keeps inv allowed p ∧ Keeps inv allowed q
  | .attempt p ok bad => Keeps inv allowed p ∧ Keeps inv allowed ok ∧ Keeps inv allowed bad

variable {inv : σ → Prop} {allowed : τ → Prop}

theorem keeps_read {k : σ → Prog σ τ} (h : ∀ s, inv s → Keeps inv allowed (k s)) :
    Keeps inv allowed (.read k) := h

theorem keeps_choose {ι : Type} {k : ι → Prog σ τ} (h : ∀ i, Keeps inv allowed (k i)) :
    Keeps inv allowed (.choose ι k) := h

/-- What holds of a machine at every point of such a program. -/
structure Within (inv : σ → Prop) (allowed : τ → Prop) (m : Machine σ τ) : Prop where
  /-- The property of the store. -/
  store : inv m.store
  /-- The loose tasks are allowed ones. -/
  loose : ∀ t∈m.loose, allowed t

theorem Within.start (allowed : τ → Prop) {s : σ} (h : inv s) (held : List τ) :
    Within inv allowed ⟨s,held,[]⟩ := ⟨h,fun _ ht => nomatch ht⟩

theorem Within.ended {l : List τ} (h : Within inv allowed m) (hended : Ended mortal m.loose l) :
    Within inv allowed {m with loose := l} :=
  ⟨h.store,fun t ht => h.loose t (hended.1.subset ht)⟩

theorem Within.cons (h : Within inv allowed m) (ht : allowed t) :
    Within inv allowed {m with loose := t::m.loose} :=
  ⟨h.store,fun t' ht' => (List.mem_cons.mp ht').elim (fun heq => heq ▸ ht) (h.loose t')⟩

/-- The property holds at the end of every run, also of one that is dropped. -/
theorem Exec.keeps (h : Exec mortal p m o m') (hp : Keeps inv allowed p)
    (hm : Within inv allowed m) : Within inv allowed m' := by
  induction h with
  | write f m => exact ⟨hp _ hm.store,hm.loose⟩
  | pass hended | cut hended => exact hm.ended hended
  | ret | err | manyDone => exact hm
  | detach t m => exact hm.cons hp
  | hold _ ih =>
    have hin := ih hp ⟨hm.store,hm.loose⟩
    exact ⟨hin.store,hin.loose⟩
  | bareEnded _ _ ih =>
    have hin := ih hp.2 ⟨hm.store,hm.loose⟩
    exact ⟨hin.store,hin.loose⟩
  | bareCut _ ih =>
    have hin := (ih hp.2 ⟨hm.store,hm.loose⟩).cons hp.1
    exact ⟨hin.store,hin.loose⟩
  | read _ ih => exact ih (hp _ hm.store) hm
  | choose i _ ih => exact ih (hp i) hm
  | seqNext _ _ ih ih' => exact ih' hp.2 (ih hp.1 hm)
  | seqStop _ _ ih | attemptCut _ ih => exact ih hp.1 hm
  | manyNext _ _ ih ih' | foreverNext _ _ ih ih' => exact ih' hp (ih hp hm)
  | manyStop _ _ ih | foreverStop _ _ ih => exact ih hp hm
  | attemptOk _ _ _ ih ih' => exact ih' hp.2.1 (ih hp.1 hm)
  | attemptErr _ _ ih ih' => exact ih' hp.2.2 (ih hp.1 hm)

end MsnGuard.CancellableTasks
