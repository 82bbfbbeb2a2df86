import MsnGuard.FiniteTables
import MsnGuard.NativeJobs

/-!
# The life of the one engine job

When the calls of the native entry points keep out of each other's way, the engine has one job
at a time, which goes from hand to hand. Calls that do not leave two live jobs or free a job
twice.
-/

namespace MsnGuard.NativeJobLife

open TransitionRuns FiniteTables SoleRoles NativeJobs List Option Function

variable {id id' : ℕ} {s : Host} {t : List Event}

/-- The life of the one job, with the call that has it in hand. -/
inductive Slot where
  | free
  | creating (c : ℕ)
  | publishing (c id : ℕ)
  | active (id : ℕ)
  | stopping (c id : ℕ)
  | freed (c id : ℕ)

namespace Slot

/-- The job in the variable. -/
def named : Slot → Option ℕ
  | .active id | .stopping _ id | .freed _ id => some id
  | .free | .creating _ | .publishing _ _ => none

/-- The call that has something in hand, and what. -/
def hand : Slot → Option (ℕ × Role)
  | .free | .active _ => none
  | .creating c => some (c,.creating)
  | .publishing c id => some (c,.publishing id)
  | .stopping c id => some (c,.holding id)
  | .freed c id => some (c,.clearing id)

/-- The parts of the calls. -/
def role (slot : Slot) : ℕ → Role := inHand slot.hand

/-- The job that may live. -/
def job : Slot → Option ℕ
  | .publishing _ id | .active id | .stopping _ id => some id
  | .free | .creating _ | .freed _ _ => none

/-- The started job that is not freed. -/
def unfreed : Slot → Option ℕ
  | .active id | .stopping _ id => some id
  | .free | .creating _ | .publishing _ _ | .freed _ _ => none

/-- The job that a start has in hand. -/
def unpublished : Slot → Option ℕ
  | .publishing _ id => some id
  | _ => none

/-- The state in which a call has a part other than none. -/
def ofRole (c : ℕ) : Role → Slot
  | .idle => .free
  | .creating => .creating c
  | .publishing id => .publishing c id
  | .holding id => .stopping c id
  | .clearing id => .freed c id

variable {slot : Slot} {c id : ℕ}

/-- A call with something in hand tells the state. -/
theorem eq_ofRole {r : Role} (h : slot.role c=r) (hr : r≠.idle) : slot=ofRole c r := by
  have hhand := inHand_eq h hr
  cases slot <;> cases hhand <;> rfl

/-- A variable that names a job no stop has in hand: the job is active. -/
theorem eq_active (hjob : slot.named=some id) (hfree : ∀ c, ¬(slot.role c).Holds id) :
    slot=.active id := by
  cases slot with
  | free | creating _ | publishing _ _ => cases hjob
  | active id' => exact congrArg _ (some.inj hjob)
  | stopping c id' | freed c id' =>
    refine absurd ?_ (hfree c)
    rw [role,hand,inHand,only_self]
    exact some.inj hjob

/-- A clear variable and no start under way: there is no job. -/
theorem eq_free (hjob : slot.named=none) (hwindow : ∀ c, ¬(slot.role c).InWindow) : slot=.free := by
  cases slot with
  | free => rfl
  | active _ | stopping _ _ | freed _ _ => cases hjob
  | creating c | publishing c _ =>
    refine absurd ?_ (hwindow c)
    rw [role,hand,inHand,only_self]
    trivial

theorem named_of_unfreed (h : slot.unfreed=some id) : slot.named=some id := by
  cases slot with
  | active _ | stopping _ _ => exact h
  | free | creating _ | publishing _ _ | freed _ _ => cases h

end Slot

/-- What the history tells about the jobs. -/
structure Ledger (t : List Event) (nextId : ℕ) (slot : Slot) : Prop where
  /-- Started jobs are freed once, all but the one that is not freed yet. -/
  started : ∀ id, .started id∈t → id≠0 ∧ id<nextId ∧
    t.count (.freed id)=if slot.unfreed=some id then 0 else 1
  /-- Other jobs are not freed. -/
  unstarted : ∀ id, .started id ∉ t → t.count (.freed id)=0
  /-- The job of the variable is started. -/
  current : ∀ id, slot.named=some id → .started id∈t
  /-- A job that the variable does not name yet is new. -/
  fresh : ∀ id, slot.unpublished=some id → id≠0 ∧ id<nextId ∧ .started id ∉ t

namespace Ledger

variable {t : List Event} {nextId : ℕ} {slot slot' : Slot}

/-- The job goes to another hand. -/
theorem pass (h : Ledger t nextId slot) (hunfreed : slot'.unfreed=slot.unfreed)
    (hnamed : ∀ id, slot'.named=some id → slot.named=some id)
    (hpublished : slot'.unpublished=none) : Ledger t nextId slot' where
  started := by
    rw [hunfreed]
    exact h.started
  unstarted := h.unstarted
  current id hid := h.current id (hnamed id hid)
  fresh id hid := by
    rw [hpublished] at hid
    cases hid

/-- The return of a call is not about jobs. -/
theorem returned (h : Ledger t nextId slot) (c : ℕ) (code : ℤ) :
    Ledger (t++[.returned c code]) nextId slot where
  started := by simpa [count_append] using h.started
  unstarted := by simpa [count_append] using h.unstarted
  current := by simpa using h.current
  fresh := by simpa using h.fresh

/-- A new job, known to the start that made it. -/
theorem create (h : Ledger t nextId slot) (c : ℕ) (hunfreed : slot.unfreed=none)
    (hpositive : nextId≠0) : Ledger t (nextId+1) (.publishing c nextId) where
  started id hid := by
    obtain ⟨hne,hlt,hcount⟩ := h.started id hid
    rw [hunfreed] at hcount
    exact ⟨hne,by omega,hcount⟩
  unstarted := h.unstarted
  current := nofun
  fresh := by
    rintro id ⟨⟩
    exact ⟨hpositive,Nat.lt_succ_self _,fun hid => absurd (h.started _ hid).2.1 (lt_irrefl _)⟩

/-- The new job is put into the variable. -/
theorem publish {c id : ℕ} (h : Ledger t nextId (.publishing c id)) :
    Ledger (t++[.started id]) nextId (.active id) := by
  obtain ⟨hne,hlt,hnew⟩ := h.fresh id rfl
  have hcount : ∀ id', (t++[Event.started id]).count (.freed id')=t.count (.freed id') := by
    simp [count_append]
  constructor
  · intro id' hid'
    rcases mem_append.mp hid' with hold | hself
    · obtain ⟨hne',hlt',hc'⟩ := h.started id' hold
      have hdiff : id≠id' := by
        rintro rfl
        exact hnew hold
      exact ⟨hne',hlt',by simpa [Slot.unfreed,hdiff] using hc'⟩
    · obtain rfl : id'=id := by simpa using hself
      exact ⟨hne,hlt,by simpa [Slot.unfreed] using h.unstarted id' hnew⟩
  · intro id' hid'
    rw [hcount]
    exact h.unstarted id' fun hold => hid' (mem_append_left _ hold)
  · rintro id' ⟨⟩
    simp
  · rintro id' ⟨⟩

/-- The job of the variable is freed. -/
theorem free {id : ℕ} (h : Ledger t nextId slot) (hid : slot.unfreed=some id)
    (hunfreed : slot'.unfreed=none) (hnamed : ∀ id, slot'.named=some id → slot.named=some id)
    (hpublished : slot'.unpublished=none) : Ledger (t++[.freed id]) nextId slot' := by
  have hmem : ∀ id', .started id'∈t++[Event.freed id] ↔ .started id'∈t := by simp
  have hstarted : .started id∈t := h.current id (Slot.named_of_unfreed hid)
  constructor
  · intro id' hid'
    obtain ⟨hne,hlt,hcount⟩ := h.started id' ((hmem id').mp hid')
    refine ⟨hne,hlt,?_⟩
    rcases eq_or_ne id' id with rfl | hdiff
    · simpa [hunfreed,hid] using hcount
    · simpa [hunfreed,hid,hdiff.symm] using hcount
  · intro id' hid'
    rw [hmem] at hid'
    have hdiff : id≠id' := by
      rintro rfl
      exact hid' hstarted
    simpa [hdiff] using h.unstarted id' hid'
  · intro id' hid'
    exact (hmem id').mpr (h.current id' (hnamed id' hid'))
  · intro id' hid'
    rw [hpublished] at hid'
    cases hid'

end Ledger

/-- The calls go through the life of one job. -/
structure Sound (t : List Event) (s : Host) (slot : Slot) : Prop where
  /-- The variable names the job. -/
  gJob : s.gJob=slot.named.getD 0
  /-- The calls have their parts. -/
  roles : s.role=slot.role
  /-- No other job lives. -/
  live : ∀ id, s.Live id → slot.job=some id
  /-- What a question is about to reap is done. -/
  reaping : ∀ c id, s.calls c=some (.reaping id) → s.tasks id=some .done
  /-- Numbers are not used twice. -/
  known : ∀ id task, s.tasks id=some task → id≠0 ∧ id<s.nextId
  positive : s.nextId≠0
  ledger : Ledger t s.nextId slot

namespace Sound

variable {t : List Event} {s : Host} {slot : Slot}
variable {c id : ℕ} {call : Option Call}

theorem initial : Sound [] Host.initial .free where
  gJob := rfl
  roles := rfl
  live := by rintro id ⟨_,⟨⟩⟩
  reaping := nofun
  known := nofun
  positive := one_ne_zero
  ledger := ⟨by simp,by simp,nofun,nofun⟩

section

variable (h : Sound t s slot)

include h

theorem kept : Kept t s where
  one_live id id' hid hid' := some.inj ((h.live id hid).symm.trans (h.live id' hid'))
  held id hid := by
    have hcount := (h.ledger.started id hid).2.2
    by_cases hunfreed : slot.unfreed=some id
    · rw [if_pos hunfreed] at hcount
      refine .inl ⟨hcount,?_⟩
      rw [h.gJob,Slot.named_of_unfreed hunfreed]
      rfl
    · rw [if_neg hunfreed] at hcount
      exact .inr hcount
  unstarted := h.ledger.unstarted

/-- The job that the variable names. -/
theorem named_eq (hjob : s.gJob≠0) : slot.named=some s.gJob := by
  rw [h.gJob] at hjob ⊢
  cases hnamed : slot.named with
  | none => exact absurd (by rw [hnamed]; rfl) hjob
  | some id => rfl

theorem named_eq_none (hjob : s.gJob=0) : slot.named=none := by
  cases hnamed : slot.named with
  | none => rfl
  | some id =>
    have hne := (h.ledger.started id (h.ledger.current id hnamed)).1
    rw [h.gJob,hnamed] at hjob
    exact absurd hjob hne

/-- A call with a part tells what the job is doing. -/
theorem slot_eq {call : Call} (hcall : s.calls c=some call)
    (hr : call.role≠.idle) : slot=Slot.ofRole c call.role := by
  refine Slot.eq_ofRole ?_ hr
  rw [←h.roles]
  exact parts_some hcall

/-- A job in the variable that no stop has is neither starting nor stopping. -/
theorem slot_active (hjob : s.gJob≠0)
    (hfree : ∀ c, ¬(s.role c).Holds s.gJob) : slot=.active s.gJob := by
  rw [h.roles] at hfree
  exact Slot.eq_active (h.named_eq hjob) hfree

theorem reaping_setCall (hreaping : ∀ id, call=some (.reaping id) → s.tasks id=some .done) :
    ∀ c' id, (s.setCall c call).calls c'=some (.reaping id) → s.tasks id=some .done := by
  intro c' id hc'
  rcases update_eq_some hc' with ⟨_,hnew⟩ | ⟨_,hold⟩
  · exact hreaping id hnew
  · exact h.reaping c' id hold

/-- A call goes on and the job goes to another hand. -/
theorem setCall {slot' : Slot} (hnamed : slot'.named=slot.named)
    (hjob : slot'.job=slot.job)
    (hroles : update s.role c (call.elim .idle Call.role)=slot'.role)
    (hreaping : ∀ id, call=some (.reaping id) → s.tasks id=some .done)
    (hledger : Ledger t s.nextId slot') : Sound t (s.setCall c call) slot' where
  __ := h
  gJob := by
    rw [hnamed]
    exact h.gJob
  roles := (parts_update Call.role s.calls c call).trans hroles
  live := by
    rw [hjob]
    exact h.live
  reaping := h.reaping_setCall hreaping
  ledger := hledger

/-- A call goes on without a change of its part. -/
theorem stay (hrole : call.elim .idle Call.role=s.role c)
    (hreaping : ∀ id, call=some (.reaping id) → s.tasks id=some .done) :
    Sound t (s.setCall c call) slot := by
  refine h.setCall rfl rfl ?_ hreaping h.ledger
  rw [hrole,update_eq_self,h.roles]

/-- Tasks are cancelled or end. -/
theorem retask {tasks : ℕ → Option Task} (registered : ℕ → Bool)
    (hlive : ∀ id cancelled, tasks id=some (.running cancelled) → s.Live id)
    (hdone : ∀ id, s.tasks id=some .done → tasks id=some .done)
    (hknown : ∀ id task, tasks id=some task → ∃ task', s.tasks id=some task') :
    Sound t {s with tasks := tasks, registered := registered} slot where
  __ := h
  live := by
    rintro id ⟨cancelled,hid⟩
    exact h.live id (hlive id cancelled hid)
  reaping c id hc := hdone id (h.reaping c id hc)
  known id task hid := by
    obtain ⟨task',hold⟩ := hknown id task hid
    exact h.known id task' hold

theorem cancel (id : ℕ) (registered : ℕ → Bool) :
    Sound t {s with tasks := cancelTask s.tasks id, registered := registered} slot := by
  unfold cancelTask
  split
  · rename_i was hwas
    refine h.retask registered ?_ ?_ ?_
    · intro id' cancelled hid'
      rcases update_eq_some hid' with ⟨rfl,_⟩ | ⟨_,hold⟩
      · exact ⟨was,hwas⟩
      · exact ⟨cancelled,hold⟩
    · intro id' hid'
      have hne : id'≠id := by
        rintro rfl
        rw [hwas] at hid'
        cases hid'
      rw [update_of_ne hne,hid']
    · intro id' task hid'
      rcases update_eq_some hid' with ⟨rfl,_⟩ | ⟨_,hold⟩
      · exact ⟨_,hwas⟩
      · exact ⟨_,hold⟩
  · exact h.retask registered (fun _ cancelled hid => ⟨cancelled,hid⟩) (fun _ hid => hid)
      (fun _ task hid => ⟨task,hid⟩)

theorem jobCancel (id : ℕ) : Sound t (s.jobCancel id) slot := by
  unfold Host.jobCancel
  split
  · exact h.cancel id s.registered
  · exact h

theorem jobFree (id : ℕ) : Sound t (s.jobFree id) slot := by
  unfold Host.jobFree
  split
  · exact h.cancel id _
  · exact h

/-- The task of a job ends. -/
theorem finish {cancelled : Bool}
    (hid : s.tasks id=some (.running cancelled)) :
    Sound t {s with tasks := update s.tasks id (some .done)} slot := by
  refine h.retask s.registered ?_ ?_ ?_
  · intro id' cancelled' hid'
    rcases update_eq_some hid' with ⟨_,hdone⟩ | ⟨_,hold⟩
    · cases hdone
    · exact ⟨cancelled',hold⟩
  · intro id' hid'
    rcases eq_or_ne id' id with rfl | hne
    · exact update_self ..
    · rw [update_of_ne hne,hid']
  · intro id' task hid'
    rcases update_eq_some hid' with ⟨rfl,_⟩ | ⟨_,hold⟩
    · exact ⟨_,hid⟩
    · exact ⟨_,hold⟩

theorem returned (c : ℕ) (code : ℤ) : Sound (t++[.returned c code]) s slot :=
  {h with ledger := h.ledger.returned c code}

/-- A call without a part returns. -/
theorem leave (hrole : s.role c=.idle) (code : ℤ) :
    Sound (t++[.returned c code]) (s.leave c) slot := by
  have hstay : Sound t (s.leave c) slot := h.stay hrole.symm (by simp)
  exact hstay.returned c code

/-- A start finds no job. -/
theorem check (hjob : s.gJob=0) (hwindow : ∀ c', ¬(s.role c').InWindow) :
    Sound t (s.goto c .creating) (.creating c) := by
  rw [h.roles] at hwindow
  obtain rfl := Slot.eq_free (h.named_eq_none hjob) hwindow
  exact h.setCall rfl rfl (update_idle h.roles c _) (by simp) (h.ledger.pass rfl (fun _ hid => hid) rfl)

end

/-- A start gets no job from the engine. -/
theorem abandon (h : Sound t s (.creating c)) (code : ℤ) :
    Sound (t++[.returned c code]) (s.leave c) .free := by
  have hfree : Sound t (s.leave c) .free :=
    h.setCall rfl rfl (update_only_default h.roles) (by simp)
      (h.ledger.pass rfl (fun _ hid => hid) rfl)
  exact hfree.returned c code

/-- A start gets a new job. -/
theorem create (h : Sound t s (.creating c)) :
    Sound t (s.coreStart.goto c (.publishing s.nextId)) (.publishing c s.nextId) where
  gJob := h.gJob
  roles := (parts_update Call.role s.calls c _).trans (update_only h.roles _)
  live := by
    rintro id ⟨cancelled,hid⟩
    rcases update_eq_some hid with ⟨rfl,_⟩ | ⟨_,hold⟩
    · rfl
    · cases h.live id ⟨cancelled,hold⟩
  reaping c' id hc' := by
    rcases update_eq_some hc' with ⟨_,hnew⟩ | ⟨_,hold⟩
    · cases hnew
    · have hdone := h.reaping c' id hold
      have hne : id≠s.nextId := (h.known id _ hdone).2.ne
      exact (update_of_ne hne ..).trans hdone
  known id task hid := by
    rcases update_eq_some hid with ⟨rfl,_⟩ | ⟨_,hold⟩
    · exact ⟨h.positive,Nat.lt_succ_self _⟩
    · obtain ⟨hne,hlt⟩ := h.known id task hold
      exact ⟨hne,hlt.trans (Nat.lt_succ_self _)⟩
  positive := Nat.succ_ne_zero _
  ledger := h.ledger.create c rfl h.positive

/-- A start puts its job into the variable and returns. -/
theorem publish (h : Sound t s (.publishing c id)) :
    Sound (t++[.started id]) {s.leave c with gJob := id} (.active id) where
  __ := h
  gJob := rfl
  roles := (parts_update Call.role s.calls c none).trans (update_only_default h.roles)
  reaping := h.reaping_setCall (by simp)
  ledger := h.ledger.publish

/-- A stop takes the job of the variable. -/
theorem take (h : Sound t s slot) (hjob : s.gJob≠0) (hfree : ∀ c', ¬(s.role c').Holds s.gJob) :
    Sound t (s.goto c (.cancelling s.gJob)) (.stopping c s.gJob) := by
  obtain rfl := h.slot_active hjob hfree
  exact h.setCall rfl rfl (update_idle h.roles c _) (by simp) (h.ledger.pass rfl (fun _ hid => hid) rfl)

/-- The job that is done is freed by the stop that has it. -/
theorem release (h : Sound t s (.stopping c id)) (hdone : s.tasks id=some .done) :
    Sound (t++[.freed id]) (s.goto c (.clearing id)) (.freed c id) where
  __ := h
  roles := (parts_update Call.role s.calls c _).trans (update_only h.roles _)
  live := by
    rintro id' ⟨cancelled,hid'⟩
    cases h.live id' ⟨cancelled,hid'⟩
    cases hdone.symm.trans hid'
  reaping := h.reaping_setCall (by simp)
  ledger := h.ledger.free rfl rfl (fun _ hid => hid) rfl

/-- The stop clears the variable. -/
theorem clear (h : Sound t s (.freed c id)) : Sound t {s.leave c with gJob := 0} .free where
  __ := h
  gJob := rfl
  roles := (parts_update Call.role s.calls c none).trans (update_only_default h.roles)
  reaping := h.reaping_setCall (by simp)
  ledger := h.ledger.pass rfl nofun rfl

/-- A question frees the job that is done and clears the variable. -/
theorem reap (h : Sound t s (.active id)) (c : ℕ) (hdone : s.tasks id=some .done) :
    Sound (t++[.freed id]) {s.leave c with gJob := 0} .free where
  __ := h
  gJob := rfl
  roles := (parts_update Call.role s.calls c none).trans ((update_idle h.roles c _).trans (only_default c))
  live := by
    rintro id' ⟨cancelled,hid'⟩
    cases h.live id' ⟨cancelled,hid'⟩
    cases hdone.symm.trans hid'
  reaping := h.reaping_setCall (by simp)
  ledger := h.ledger.free rfl rfl nofun rfl

end Sound

theorem cancelTask_done {tasks : ℕ → Option Task} (h : tasks id'=some .done) :
    cancelTask tasks id id'=some .done := by
  cases hid : tasks id with
  | none => simp [cancelTask,hid,h]
  | some task =>
    cases task with
    | done => simp [cancelTask,hid,h]
    | running cancelled =>
      have hne : id'≠id := by
        rintro rfl
        cases h.symm.trans hid
      simp [cancelTask,hid,hne,h]

theorem jobFree_done (h : s.tasks id'=some .done) : (s.jobFree id).tasks id'=some .done := by
  unfold Host.jobFree
  split
  · exact cancelTask_done h
  · exact h

theorem done_of_jobPoll (h : s.jobPoll id=.done) : s.tasks id=some .done := by
  unfold Host.jobPoll at h
  split_ifs at h with _ hdone
  exact hdone

variable {slot : Slot}

/-- One step of a call that is in order goes on in the life of the one job. -/
theorem advance_sound {c : ℕ} {made : Bool} {call : Call} (h : Sound t s slot)
    (hcall : s.calls c=some call) (horder : Orderly t s (.step c made)) :
    ∃ slot', Sound (t++(s.advance c made call).2) (s.advance c made call).1 slot' := by
  have hrole : s.role c=call.role := parts_some hcall
  simp only [Orderly,hcall] at horder
  cases call with
  | checking =>
    by_cases hjob : s.gJob=0
    · simp only [Host.advance,if_pos hjob,append_nil]
      exact ⟨_,h.check hjob (horder hjob)⟩
    · simp only [Host.advance,if_neg hjob]
      exact ⟨_,h.leave hrole (-1)⟩
  | creating =>
    obtain rfl := h.slot_eq hcall (by simp [Call.role])
    cases made with
    | true =>
      simp only [Host.advance,if_true,append_nil]
      exact ⟨_,h.create⟩
    | false => exact ⟨_,h.abandon (-1)⟩
  | publishing id =>
    obtain rfl := h.slot_eq hcall (by simp [Call.role])
    have hreturned := h.publish.returned c 0
    rw [append_assoc] at hreturned
    exact ⟨_,hreturned⟩
  | stopping =>
    by_cases hjob : s.gJob=0
    · simp only [Host.advance,if_pos hjob]
      exact ⟨_,h.leave hrole 0⟩
    · simp only [Host.advance,if_neg hjob,append_nil]
      exact ⟨_,h.take hjob horder⟩
  | cancelling id =>
    simp only [Host.advance,append_nil]
    refine ⟨_,(h.jobCancel id).stay ?_ (by simp)⟩
    rw [(h.jobCancel id).roles,←h.roles,hrole]
    rfl
  | waiting id polls =>
    cases polls with
    | zero =>
      simp only [Host.advance,append_nil]
      exact ⟨_,h.stay hrole.symm (by simp)⟩
    | succ polls =>
      by_cases hdone : s.jobPoll id=.done
      · simp only [Host.advance,if_pos hdone,append_nil]
        exact ⟨_,h.stay hrole.symm (by simp)⟩
      · simp only [Host.advance,if_neg hdone,append_nil]
        exact ⟨_,h.stay hrole.symm (by simp)⟩
  | freeing id =>
    obtain rfl := h.slot_eq hcall (by simp [Call.role])
    exact ⟨_,(h.jobFree id).release (jobFree_done horder)⟩
  | clearing id =>
    obtain rfl := h.slot_eq hcall (by simp [Call.role])
    have hjob : s.gJob=id := h.gJob
    simp only [Host.advance,if_pos hjob]
    exact ⟨_,h.clear.returned c 0⟩
  | asking =>
    by_cases hjob : s.gJob=0
    · simp only [Host.advance,if_pos hjob]
      exact ⟨_,h.leave hrole 0⟩
    · simp only [Host.advance,if_neg hjob,append_nil]
      exact ⟨_,h.stay hrole.symm (by simp)⟩
  | polling id =>
    by_cases hpoll : s.jobPoll id=.done
    · simp only [Host.advance,if_pos hpoll,append_nil]
      refine ⟨_,h.stay hrole.symm ?_⟩
      rintro id' ⟨⟩
      exact done_of_jobPoll hpoll
    · simp only [Host.advance,if_neg hpoll]
      exact ⟨_,h.leave hrole 1⟩
  | reaping id =>
    by_cases hjob : s.gJob=id
    · have hdone := h.reaping c id hcall
      have hne : s.gJob≠0 := by
        rw [hjob]
        exact (h.known id _ hdone).1
      have hactive := h.slot_active hne (hjob.symm ▸ horder hjob)
      rw [hjob] at hactive
      subst hactive
      simp only [Host.advance,if_pos hjob]
      have hreturned := ((h.jobFree id).reap c (jobFree_done hdone)).returned c 0
      rw [append_assoc] at hreturned
      exact ⟨_,hreturned⟩
    · simp only [Host.advance,if_neg hjob]
      exact ⟨_,h.leave hrole 0⟩

/-- One step in order keeps the life of the one job. -/
theorem exec_sound {s' : Host} {a : Action} {new : List Event} (h : Sound t s slot)
    (horder : Orderly t s a) (hexec : s.exec a=some (s',new)) :
    ∃ slot', Sound (t++new) s' slot' := by
  cases a with
  | call c entry =>
    cases hc : s.calls c with
    | some call => simp [Host.exec,hc] at hexec
    | none =>
      simp only [Host.exec,hc] at hexec
      obtain ⟨rfl,rfl⟩ := hexec
      rw [append_nil]
      refine ⟨slot,h.stay ?_ ?_⟩
      · have hidle : s.role c=.idle := parts_none hc
        rw [hidle]
        cases entry <;> rfl
      · intro id hreaping
        cases entry <;> cases hreaping
  | step c made =>
    obtain ⟨call,hcall,hadvance⟩ := map_eq_some_iff.mp hexec
    obtain ⟨slot',hsound⟩ := advance_sound h hcall horder
    rw [hadvance] at hsound
    exact ⟨slot',hsound⟩
  | finish id =>
    simp only [Host.exec] at hexec
    split at hexec
    · rename_i cancelled hid
      cases hexec
      rw [append_nil]
      exact ⟨slot,h.finish hid⟩
    · cases hexec

/-- In every run in which the calls keep out of each other's way, at most one job
lives, a started job is in the variable until it is freed, and each is freed once. -/
theorem kept_of_run {t : List Event} {s : Host} (h : machine.Run Orderly t s) : Kept t s := by
  have hsound : ∃ slot, Sound t s slot := by
    refine h.invariant (fun t s => ∃ slot, Sound t s slot) ?_ ?_
    · rintro _ rfl
      exact ⟨.free,Sound.initial⟩
    · rintro t s a s' new ⟨slot,hslot⟩ _ horder hexec
      exact exec_sound hslot horder hexec
  obtain ⟨slot,hslot⟩ := hsound
  exact hslot.kept

/-- The first job is in the variable and no call is under way. -/
def startedHost : Host :=
  let creating := (Host.initial.goto 0 .checking).goto 0 .creating
  {(creating.coreStart.goto 0 (.publishing 1)).leave 0 with gJob := 1}

/-- One start from its call to its return. -/
theorem run_started : machine.Run Orderly [.started 1,.returned 0 0] startedHost := by
  have hstart : machine.Run Orderly [] Host.initial := .start rfl
  have hcalled := hstart.next (.call 0 .nativeStart) trivial trivial rfl
  have hchecked := hcalled.next (.step 0 true) trivial ?_ rfl
  · have hcreated := hchecked.next (.step 0 true) trivial trivial rfl
    exact hcreated.next (.step 0 true) trivial trivial rfl
  · intro _ c'
    by_cases hc : c'=0
    · simp [hc,Host.role,parts,Host.goto,Host.setCall,Entry.first,Call.role,Role.InWindow]
    · simp [hc,Host.role,parts,Host.goto,Host.setCall,Host.initial,Role.InWindow]

/-- After one start its job is the only one. -/
theorem started_kept : startedHost.Live 1 ∧ Kept [.started 1,.returned 0 0] startedHost :=
  ⟨⟨false,rfl⟩,kept_of_run run_started⟩

/-- Two starts look at the variable before either has put a job into it: two jobs. -/
theorem run_racing_starts :
    ∃ t s, machine.Run always t s ∧ .freed 1 ∉ t ∧ s.Live 1 ∧ s.Live 2 :=
  Machine.exists_run (fun _ _ => true) (fun _ _ _ _ => ⟨trivial,trivial⟩) rfl
    [.call 0 .nativeStart,.call 1 .nativeStart,.step 0 true,.step 1 true,.step 0 true,
      .step 1 true] (by decide +kernel)

/-- A stop gives up before its job is done, and the next start makes a second one. -/
theorem run_impatient_stop :
    ∃ t s, machine.Run always t s ∧ .freed 1∈t ∧ s.Live 1 ∧ s.Live 2 :=
  Machine.exists_run (fun _ _ => true) (fun _ _ _ _ => ⟨trivial,trivial⟩) rfl
    (.call 0 .nativeStart::replicate 3 (.step 0 true)++.call 0 .nativeStop ::
      replicate 35 (.step 0 true)++[.call 0 .nativeStart,.step 0 true,.step 0 true])
    (by decide +kernel)

/-- A stop and a question both free the job that is done. -/
theorem run_double_free : ∃ t s, machine.Run always t s ∧ t.count (.freed 1)=2 :=
  Machine.exists_run (fun _ _ => true) (fun _ _ _ _ => ⟨trivial,trivial⟩) rfl
    (.call 0 .nativeStart::replicate 3 (.step 0 true) ++
      [.finish 1,.call 0 .nativeIsRunning,.step 0 true,.step 0 true,.call 1 .nativeStop,
        .step 1 true,.step 1 true,.step 1 true,.step 0 true,.step 1 true]) (by decide +kernel)

/-- Calls that get into each other's way: two starts at once and a stop that gives
up leave two live jobs, and a stop beside a question frees a job twice. -/
theorem unordered_calls :
    (∃ t s, machine.Run always t s ∧ .freed 1 ∉ t ∧ ¬Kept t s) ∧
      (∃ t s, machine.Run always t s ∧ .freed 1∈t ∧ s.Live 1 ∧ ¬Kept t s) ∧
      ∃ t s, machine.Run always t s ∧ t.count (.freed 1)=2 ∧ ¬Kept t s := by
  refine ⟨?_,?_,?_⟩
  · obtain ⟨t,s,hrun,hnot,hfirst,hsecond⟩ := run_racing_starts
    exact ⟨t,s,hrun,hnot,fun h => absurd (h.one_live 1 2 hfirst hsecond) (by decide)⟩
  · obtain ⟨t,s,hrun,hfreed,hfirst,hsecond⟩ := run_impatient_stop
    exact ⟨t,s,hrun,hfreed,hfirst,fun h => absurd (h.one_live 1 2 hfirst hsecond) (by decide)⟩
  · obtain ⟨t,s,hrun,hcount⟩ := run_double_free
    refine ⟨t,s,hrun,hcount,fun h => ?_⟩
    by_cases hstarted : .started 1∈t
    · rcases h.held 1 hstarted with ⟨hzero,_⟩ | hone
      · omega
      · omega
    · have hzero := h.unstarted 1 hstarted
      omega

end MsnGuard.NativeJobLife
