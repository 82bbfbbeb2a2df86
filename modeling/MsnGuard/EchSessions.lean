import MsnGuard.RustText
import MsnGuard.TransitionRuns

/-!
# The key that sessions share

Sessions of one process share the key with which their handshakes hide the server name. One lock
protects the number of sessions, another one the key, and in between a key that a server hands
back can be adopted. All steps interleave.
-/

namespace MsnGuard.EchSessions

open RustText TransitionRuns List

/-- Where a session stands, with the key it was started with. -/
inductive Phase where
  /-- In `start`, before the lock is taken. -/
  | starting (ech : Option Bytes)
  /-- In `start` with the lock, before the session is counted. -/
  | counting (ech : Option Bytes)
  /-- In `start`, counted, before it is decided whether the key is set. -/
  | choosing (ech : Option Bytes)
  /-- In `start`, before the lock is released. -/
  | returning (ech : Option Bytes)
  /-- After `start` has returned. -/
  | running (ech : Option Bytes)
  /-- In `drop`, before the lock is taken. -/
  | dropping (ech : Option Bytes)
  /-- In `drop` with the lock, still counted. -/
  | uncounting (ech : Option Bytes)
  /-- In `drop`, no more counted, before it is decided whether the key is cleared. -/
  | clearing (ech : Option Bytes)
  /-- In `drop`, before the lock is released. -/
  | finishing
  /-- After `drop` has returned. -/
  | ended
  deriving DecidableEq

namespace Phase

/-- Is the session part of the number of sessions? -/
def counted : Phase → Bool
  | .choosing _ | .returning _ | .running _ | .dropping _ | .uncounting _ => true
  | .starting _ | .counting _ | .clearing _ | .finishing | .ended => false

/-- Is the session there, from when it is counted until it has seen to the key? -/
def inside : Phase → Bool
  | .clearing _ => true
  | p => p.counted

/-- Does the session hold the lock of the number? -/
def locked : Phase → Bool
  | .counting _ | .choosing _ | .returning _ | .uncounting _ | .clearing _ | .finishing => true
  | .starting _ | .running _ | .dropping _ | .ended => false

/-- Has the session been started with a key, and not yet seen to its clearing? -/
def keyed : Phase → Bool
  | .returning ech | .running ech | .dropping ech | .uncounting ech | .clearing ech => ech.isSome
  | .starting _ | .counting _ | .choosing _ | .finishing | .ended => false

end Phase

/-- The state that the sessions of a process share, and the sessions. -/
structure Process where
  /-- The key that handshakes offer. -/
  sessionEch : Option Bytes
  /-- The number of sessions. -/
  sessions : ℕ
  /-- The session that holds the lock of the number. -/
  lock : Option ℕ
  /-- Every session that has been started. -/
  threads : List Phase

/-- What an observer sees. -/
inductive Event where
  /-- A session with a key or without is there. -/
  | entered (ech : Option Bytes)
  /-- A server has handed back a key. -/
  | adopted (retry : Bytes)
  /-- A session is gone. -/
  | left
  deriving DecidableEq

namespace Process

/-- A process without sessions. -/
def fresh : Process := ⟨none,0,none,[]⟩

/-- The key for the handshakes to come. -/
def useEch (s : Process) (ech : Option Bytes) : Process := {s with sessionEch := ech}

/-- Keep a key that a server has handed back, if there was one. -/
def adoptEchRetry (s : Process) (retry : Bytes) : Process :=
  if s.sessionEch.isSome then s.useEch (some retry) else s

/-- A session moves on. -/
def move (s : Process) (i : ℕ) (p : Phase) : Process := {s with threads := s.threads.set i p}

/-- The next step of `start` or of `drop`. A session that finds the lock taken
waits; removing a session from none would stop the program. -/
def advance (s : Process) (i : ℕ) : Phase → Option (Process × List Event)
  | .starting ech =>
    if s.lock.isNone then some ({s with lock := some i}.move i (.counting ech),[]) else some (s,[])
  | .counting ech =>
    some ({s with sessions := s.sessions+1}.move i (.choosing ech),[.entered ech])
  | .choosing ech =>
    some ((if ech.isSome || s.sessions == 1 then s.useEch ech else s).move i (.returning ech),[])
  | .returning ech => some ({s with lock := none}.move i (.running ech),[])
  | .running _ => some (s,[])
  | .dropping ech =>
    if s.lock.isNone then some ({s with lock := some i}.move i (.uncounting ech),[])
    else some (s,[])
  | .uncounting ech =>
    if s.sessions=0 then none
    else some ({s with sessions := s.sessions-1}.move i (.clearing ech),[])
  | .clearing _ =>
    some ((if s.sessions == 0 then s.useEch none else s).move i .finishing,[.left])
  | .finishing => some ({s with lock := none}.move i .ended,[])
  | .ended => some (s,[])

end Process

/-- What happens in the process. -/
inductive Action where
  /-- A session calls `start`. -/
  | start (ech : Option Bytes)
  /-- A session that runs is dropped. -/
  | drop (i : ℕ)
  /-- A session takes its next step in `start` or `drop`. -/
  | advance (i : ℕ)
  /-- A handshake hands back a key. -/
  | adopt (retry : Bytes)
  deriving DecidableEq

/-- What an action does. -/
def exec (s : Process) : Action → Option (Process × List Event)
  | .start ech => some ({s with threads := s.threads++[.starting ech]},[])
  | .drop i =>
    match s.threads[i]? with
    | some (.running ech) => some (s.move i (.dropping ech),[])
    | _ => some (s,[])
  | .advance i =>
    match s.threads[i]? with
    | some p => s.advance i p
    | none => some (s,[])
  | .adopt retry => some (s.adoptEchRetry retry,[.adopted retry])

/-- The process as a machine. -/
def machine : Machine Process Action Event where
  start s := s=.fresh
  allowed _ _ := True
  exec := exec

/-- The sessions that are there, and the keys of the time since there was none. -/
structure Period where
  /-- How many sessions are there. -/
  inside : ℕ
  /-- The keys they were started with or have adopted. -/
  keys : List Bytes

/-- The period after an event. It is over when the last session is gone; what is
handed back outside of a period belongs to none. -/
def Period.after (p : Period) : Event → Period
  | .entered ech => ⟨p.inside+1,p.keys++ech.toList⟩
  | .adopted retry => if p.inside=0 then p else ⟨p.inside,p.keys++[retry]⟩
  | .left => if p.inside≤1 then ⟨0,[]⟩ else ⟨p.inside-1,p.keys⟩

/-- The current period. -/
def period (t : List Event) : Period := t.foldl Period.after ⟨0,[]⟩

theorem period_append_one (t : List Event) (e : Event) : period (t++[e])=(period t).after e := by
  rw [period,foldl_append]
  rfl

section Counting

variable {i j : ℕ} {p q r : Phase} {threads : List Phase} {f : Phase → Bool}

/-- One session has moved; the others are where they were. -/
theorem getElem?_set_cases (h : (threads.set i q)[j]?=some r) :
    j=i ∧ r=q ∨ j≠i ∧ threads[j]?=some r := by
  rw [List.getElem?_set] at h
  split_ifs at h with hij hlen
  · exact .inl ⟨hij.symm,(Option.some.inj h).symm⟩
  · exact .inr ⟨fun hji => hij hji.symm,h⟩

theorem countP_set (h : threads[i]?=some p) (f : Phase → Bool) (q : Phase) :
    (threads.set i q).countP f+(f p).toNat=threads.countP f+(f q).toNat := by
  obtain ⟨hi,hp⟩ := List.getElem?_eq_some_iff.mp h
  have hpos : f p=true → 0<threads.countP f := fun hf =>
    List.countP_pos_iff.mpr ⟨p,List.mem_of_getElem? h,hf⟩
  rw [List.countP_set hi,hp]
  cases hf : f p with
  | false => cases f q <;> simp
  | true =>
    have := hpos hf
    cases f q <;> simp <;> omega

theorem countP_pos (h : threads[i]?=some p) (hf : f p=true) : 0<threads.countP f :=
  List.countP_pos_iff.mpr ⟨p,List.mem_of_getElem? h,hf⟩

/-- Two sessions with a property are at least two. -/
theorem one_lt_countP (hi : threads[i]?=some p) (hj : threads[j]?=some q) (hne : j≠i)
    (hp : f p=true) (hq : f q=true) (hended : f .ended=false) : 1<threads.countP f := by
  have hset := countP_set hi f .ended
  have hstill : (threads.set i .ended)[j]?=some q := by
    rw [List.getElem?_set,if_neg hne.symm,hj]
  have hpos := countP_pos hstill hq
  rw [hp,hended] at hset
  simp only [Bool.toNat_true,Bool.toNat_false] at hset
  omega

theorem inside_of_keyed (h : p.keyed=true) : p.inside=true := by
  cases p <;> first | rfl | cases h

end Counting

section Invariant

variable {j : ℕ} {ech : Option Bytes}

/-- The number is that of the counted sessions, one session at most holds the
lock, and the key is one of the current period, is there as long as a session
with a key is, and is gone when no session is there. -/
structure Sound (t : List Event) (s : Process) : Prop where
  count : s.sessions=s.threads.countP Phase.counted
  inside : (period t).inside=s.threads.countP Phase.inside
  lock : ∀ (i : ℕ) (p : Phase), s.threads[i]?=some p → p.locked=true → s.lock=some i
  chosen : ∀ (i : ℕ) k, s.threads[i]?=some (Phase.choosing (some k)) → k∈(period t).keys
  known : ∀ k, s.sessionEch=some k → k∈(period t).keys
  held : ∀ (i : ℕ) (p : Phase), s.threads[i]?=some p → p.keyed=true → s.sessionEch.isSome=true
  empty : s.threads.countP Phase.inside=0 → s.sessionEch=none

/-- What holds of a session where it stands. -/
structure Stands (t : List Event) (s : Process) (i : ℕ) (p : Phase) : Prop where
  lock : p.locked=true → s.lock=some i
  chosen : ∀ k, p=.choosing (some k) → k∈(period t).keys
  held : p.keyed=true → s.sessionEch.isSome=true

variable {t : List Event} {s : Process} {i : ℕ} {p q : Phase}

theorem sound_fresh : Sound [] .fresh where
  count := rfl
  inside := rfl
  lock _ _ h := by cases h
  chosen _ _ h := by cases h
  known _ h := by cases h
  held _ _ h := by cases h
  empty _ := rfl

section

variable (h : Sound t s)

include h

/-- While one session holds the lock no other one does. -/
theorem Sound.alone (hi : s.threads[i]?=some p) (hp : p.locked=true)
    (hj : s.threads[j]?=some q) (hne : j≠i) : q.locked=false := by
  cases hq : q.locked with
  | false => rfl
  | true =>
    have hown := h.lock i p hi hp
    rw [h.lock j q hj hq] at hown
    exact absurd (Option.some.inj hown) hne

/-- One session moves on, and the others stand where they were. -/
theorem Sound.set (hi : s.threads[i]?=some p) {t' : List Event} {s' : Process}
    (hthreads : s'.threads=s.threads.set i q)
    (hcount : s'.sessions+p.counted.toNat=s.sessions+q.counted.toNat)
    (hinside : (period t').inside+p.inside.toNat=(period t).inside+q.inside.toNat)
    (hown : Stands t' s' i q)
    (hothers : ∀ (j : ℕ) (r : Phase), j≠i → s.threads[j]?=some r → Stands t s j r →
      Stands t' s' j r)
    (hknown : ∀ k, s'.sessionEch=some k → k∈(period t').keys)
    (hempty : (period t').inside=0 → s'.sessionEch=none) : Sound t' s' := by
  have hall : ∀ (j : ℕ) (r : Phase), s'.threads[j]?=some r → Stands t' s' j r := by
    intro j r hj
    rw [hthreads] at hj
    rcases getElem?_set_cases hj with ⟨rfl,rfl⟩ | ⟨hne,hold⟩
    · exact hown
    · refine hothers j r hne hold ⟨h.lock j r hold,?_,h.held j r hold⟩
      rintro k rfl
      exact h.chosen j k hold
  have hcounted := countP_set hi Phase.counted q
  have hthere := countP_set hi Phase.inside q
  rw [←hthreads,←h.count] at hcounted
  rw [←hthreads,←h.inside] at hthere
  have hsame : (period t').inside=s'.threads.countP Phase.inside := by omega
  exact ⟨by omega,hsame,fun j r hj => (hall j r hj).lock,fun j k hj => (hall j _ hj).chosen k rfl,
    hknown,fun j r hj => (hall j r hj).held,fun hzero => hempty (hsame.trans hzero)⟩

/-- While a session is there, the period is not over. -/
theorem Sound.inside_ne_zero (hi : s.threads[i]?=some p) (hp : p.inside=true) :
    (period t).inside≠0 := by
  rw [h.inside]
  exact (countP_pos hi hp).ne'

/-- A session takes or releases the lock, or leaves it to the others. -/
theorem Sound.relock (hi : s.threads[i]?=some p) {lock : Option ℕ}
    (hcounted : q.counted=p.counted) (hinside : q.inside=p.inside)
    (hkeyed : q.keyed=true → p.keyed=true) (hchoosing : ∀ ech, q≠.choosing ech)
    (hq : q.locked=true → lock=some i)
    (hothers : ∀ (j : ℕ) (r : Phase), j≠i → s.threads[j]?=some r → r.locked=true → lock=some j) :
    Sound t ({s with lock := lock}.move i q) :=
  h.set hi rfl (by rw [hcounted]; rfl) (by rw [hinside])
    ⟨hq,fun _ heq => absurd heq (hchoosing _),fun hr => h.held i p hi (hkeyed hr)⟩
    (fun j r hne hj hr => ⟨hothers j r hne hj,hr.chosen,hr.held⟩) h.known
    (fun hzero => h.empty (h.inside.symm.trans hzero))

/-- A session that holds the lock, or that finds it free, may change it. -/
theorem Sound.unlocked (hlock : s.lock=none ∨ s.lock=some i) {r : Phase}
    (hne : j≠i) (hj : s.threads[j]?=some r) : r.locked=false := by
  cases hr : r.locked with
  | false => rfl
  | true =>
    have hown := h.lock j r hj hr
    rcases hlock with hlock | hlock
    · rw [hlock] at hown
      cases hown
    · rw [hlock] at hown
      exact absurd (Option.some.inj hown).symm hne

/-- A session is counted. -/
theorem Sound.enter (hi : s.threads[i]?=some (.counting ech)) :
    Sound (t++[.entered ech])
      ({s with sessions := s.sessions+1}.move i (.choosing ech)) := by
  have hperiod : period (t++[.entered ech])=⟨(period t).inside+1,(period t).keys++ech.toList⟩ :=
    period_append_one t _
  refine h.set hi rfl rfl ?_ ⟨fun _ => h.lock _ _ hi rfl,?_,nofun⟩ ?_ ?_ ?_
  · rw [hperiod]
    rfl
  · rintro k ⟨⟩
    rw [hperiod]
    exact mem_append_right _ mem_cons_self
  · intro j r _ _ hr
    refine ⟨hr.lock,fun k hk => ?_,hr.held⟩
    rw [hperiod]
    exact mem_append_left _ (hr.chosen k hk)
  · intro k hk
    rw [hperiod]
    exact mem_append_left _ (h.known k hk)
  · rw [hperiod]
    nofun

/-- A session that is the only one counted is the only one there, as long as it
has the lock. -/
theorem Sound.only (hi : s.threads[i]?=some p) (hp : p.locked=true)
    (hcounted : p.counted=true) (hone : s.sessions=1) (hj : s.threads[j]?=some q)
    (hne : j≠i) : q.keyed=false := by
  cases hq : q.keyed with
  | false => rfl
  | true =>
    have hfree := h.alone hi hp hj hne
    have hother : q.counted=true := by
      cases q <;> first | rfl | cases hq | cases hfree
    have htwo := one_lt_countP hi hj hne hcounted hother rfl
    rw [←h.count,hone] at htwo
    exact absurd htwo (lt_irrefl 1)

/-- A session has decided on the key. -/
theorem Sound.decided (hi : s.threads[i]?=some (.choosing ech))
    {key : Option Bytes} (hknown : ∀ k, key=some k → k∈(period t).keys)
    (hown : ech.isSome=true → key.isSome=true)
    (hothers : ∀ (j : ℕ) (r : Phase), j≠i → s.threads[j]?=some r → r.keyed=true → key.isSome=true) :
    Sound t ((s.useEch key).move i (.returning ech)) :=
  h.set hi rfl rfl rfl ⟨fun _ => h.lock _ _ hi rfl,nofun,hown⟩
    (fun j r hne hj hr => ⟨hr.lock,hr.chosen,hothers j r hne hj⟩) hknown
    (fun hzero => absurd hzero (h.inside_ne_zero hi rfl))

/-- A session sets the key if it has one or is alone, and leaves it otherwise. -/
theorem Sound.choose (hi : s.threads[i]?=some (.choosing ech)) :
    Sound t ((if ech.isSome || s.sessions == 1 then s.useEch ech else s).move i
      (.returning ech)) := by
  split_ifs with hset
  · refine h.decided hi (fun k hk => h.chosen i k (by rw [←hk]; exact hi)) id ?_
    intro j r hne hj hr
    rw [Bool.or_eq_true,beq_iff_eq] at hset
    rcases hset with hsome | hone
    · exact hsome
    · rw [h.only hi rfl rfl hone hj hne] at hr
      cases hr
  · have hown : ech.isSome=true → s.sessionEch.isSome=true := by
      intro hsome
      rw [hsome] at hset
      exact absurd rfl hset
    exact h.decided hi h.known hown fun j r _ hj hr => h.held j r hj hr

/-- A session is counted no more. -/
theorem Sound.uncount (hi : s.threads[i]?=some (.uncounting ech)) :
    0<s.sessions ∧ Sound t ({s with sessions := s.sessions-1}.move i (.clearing ech)) := by
  have hpos : 0<s.sessions := by
    rw [h.count]
    exact countP_pos hi rfl
  refine ⟨hpos,h.set hi rfl ?_ rfl ⟨fun _ => h.lock _ _ hi rfl,nofun,h.held i (.uncounting ech) hi⟩
    (fun j r _ _ hr => ⟨hr.lock,hr.chosen,hr.held⟩) h.known
    (fun hzero => absurd hzero (h.inside_ne_zero hi rfl))⟩
  change s.sessions-1+1=s.sessions
  omega

/-- While a session sees to the key, those that are there besides it are counted. -/
theorem Sound.inside_clearing (hi : s.threads[i]?=some (.clearing ech)) :
    s.threads.countP Phase.inside=s.sessions+1 := by
  have hset := countP_set hi Phase.inside .finishing
  have hcounted := countP_set hi Phase.counted .finishing
  have hsame : (s.threads.set i .finishing).countP Phase.inside=
      (s.threads.set i .finishing).countP Phase.counted := by
    refine countP_congr fun q hq => ?_
    obtain ⟨j,hj⟩ := mem_iff_getElem?.mp hq
    rcases getElem?_set_cases hj with ⟨-,rfl⟩ | ⟨hne,hold⟩
    · rfl
    · have hfree := h.alone hi rfl hold hne
      cases q <;> first | rfl | cases hfree
  simp only [Phase.inside,Phase.counted,Bool.toNat_false,Bool.toNat_true,Nat.add_zero] at hset hcounted
  rw [h.count]
  omega

/-- A session is gone; the last one takes the key with it. -/
theorem Sound.clear (hi : s.threads[i]?=some (.clearing ech)) :
    Sound (t++[.left]) ((if s.sessions == 0 then s.useEch none else s).move i .finishing) := by
  have hinside := h.inside_clearing hi
  have hperiod := h.inside.trans hinside
  have hlock : Phase.finishing.locked=true → s.lock=some i := fun _ => h.lock _ _ hi rfl
  by_cases hzero : s.sessions=0
  · rw [if_pos (by rw [hzero]; rfl)]
    have hover : period (t++[.left])=⟨0,[]⟩ := by
      rw [period_append_one,Period.after,if_pos (by omega)]
    refine h.set hi rfl rfl ?_ ⟨hlock,nofun,nofun⟩ (fun j r hne hj hr => ⟨hr.lock,?_,?_⟩) nofun
      (fun _ => rfl)
    · rw [hover,hperiod,hzero]
      rfl
    · rintro k rfl
      exact Bool.noConfusion (h.alone hi rfl hj hne)
    · intro hkeyed
      have htwo := one_lt_countP hi hj hne rfl (inside_of_keyed hkeyed) rfl
      omega
  · rw [if_neg (by simpa using hzero)]
    have hgoes : period (t++[.left])=⟨s.sessions,(period t).keys⟩ := by
      rw [period_append_one,Period.after,if_neg (by omega),hperiod]
      rfl
    refine h.set hi rfl rfl ?_ ⟨hlock,nofun,nofun⟩ (fun j r _ _ hr => ⟨hr.lock,?_,hr.held⟩) ?_ ?_
    · rw [hgoes,hperiod]
      rfl
    · rw [hgoes]
      exact hr.chosen
    · rw [hgoes]
      exact h.known
    · rw [hgoes]
      exact fun hnone => absurd hnone hzero

/-- A key is adopted. -/
theorem Sound.adopt (retry : Bytes) : Sound (t++[.adopted retry]) (s.adoptEchRetry retry) := by
  have hkeep : (period (t++[.adopted retry])).inside=(period t).inside ∧
      ∀ k∈(period t).keys, k∈(period (t++[.adopted retry])).keys := by
    rw [period_append_one,Period.after]
    split_ifs
    · exact ⟨rfl,fun k hk => hk⟩
    · exact ⟨rfl,fun k hk => mem_append_left _ hk⟩
  unfold Process.adoptEchRetry
  split_ifs with hsome
  · have hthere : (period t).inside≠0 := by
      intro hzero
      rw [h.empty (h.inside.symm.trans hzero)] at hsome
      cases hsome
    constructor
    · exact h.count
    · exact hkeep.1.trans h.inside
    · exact h.lock
    · exact fun j k hj => hkeep.2 k (h.chosen j k hj)
    · intro k hk
      cases hk
      rw [period_append_one,Period.after,if_neg hthere]
      exact mem_append_right _ mem_cons_self
    · exact fun _ _ _ _ => rfl
    · intro hzero
      exact absurd (h.inside.trans hzero) hthere
  · constructor
    · exact h.count
    · exact hkeep.1.trans h.inside
    · exact h.lock
    · exact fun j k hj => hkeep.2 k (h.chosen j k hj)
    · exact fun k hk => hkeep.2 k (h.known k hk)
    · exact h.held
    · exact h.empty

/-- A new session comes. -/
theorem Sound.start (ech : Option Bytes) :
    Sound t {s with threads := s.threads++[.starting ech]} := by
  have hold : ∀ {j : ℕ} {r : Phase}, (s.threads++[.starting ech])[j]?=some r →
      s.threads[j]?=some r ∨ r=.starting ech := by
    intro j r hj
    rw [List.getElem?_append] at hj
    split_ifs at hj
    · exact .inl hj
    · exact .inr (mem_singleton.mp (List.mem_of_getElem? hj))
  constructor
  · rw [h.count]
    simp [Phase.counted]
  · rw [h.inside]
    simp [Phase.inside,Phase.counted]
  · intro j r hj hr
    rcases hold hj with hj | rfl
    · exact h.lock j r hj hr
    · cases hr
  · intro j k hj
    rcases hold hj with hj | heq
    · exact h.chosen j k hj
    · cases heq
  · exact h.known
  · intro j r hj hr
    rcases hold hj with hj | rfl
    · exact h.held j r hj hr
    · cases hr
  · intro hzero
    refine h.empty ?_
    simpa [Phase.inside,Phase.counted] using hzero

/-- Every step of a session keeps the invariant, and none fails. -/
theorem Sound.advance (hi : s.threads[i]?=some p) :
    ∃ s' new, s.advance i p=some (s',new) ∧ Sound (t++new) s' := by
  have hsilent : ∀ {s'}, Sound t s' → Sound (t++[]) s' := fun hs => by rwa [append_nil]
  have hacquire : ∀ {q : Phase}, s.lock=none → q.counted=p.counted → q.inside=p.inside →
      (q.keyed=true → p.keyed=true) → (∀ ech, q≠.choosing ech) →
      Sound t ({s with lock := some i}.move i q) := by
    intro q hfree hcounted hinside hkeyed hchoosing
    refine h.relock hi hcounted hinside hkeyed hchoosing (fun _ => rfl) fun j r hne hj hr => ?_
    rw [h.unlocked (.inl hfree) hne hj] at hr
    cases hr
  have hrelease : ∀ {q : Phase}, p.locked=true → q.locked=false → q.counted=p.counted →
      q.inside=p.inside → (q.keyed=true → p.keyed=true) → (∀ ech, q≠.choosing ech) →
      Sound t ({s with lock := none}.move i q) := by
    intro q hp hq hcounted hinside hkeyed hchoosing
    refine h.relock hi hcounted hinside hkeyed hchoosing (fun hr => ?_) fun j r hne hj hr => ?_
    · rw [hq] at hr
      cases hr
    · rw [h.alone hi hp hj hne] at hr
      cases hr
  cases p with
  | starting ech | dropping ech =>
    rw [Process.advance]
    split_ifs with hfree
    · exact ⟨_,_,rfl,hsilent (hacquire (Option.isNone_iff_eq_none.mp hfree) rfl rfl id nofun)⟩
    · exact ⟨_,_,rfl,hsilent h⟩
  | counting ech => exact ⟨_,_,rfl,h.enter hi⟩
  | choosing ech => exact ⟨_,_,rfl,hsilent (h.choose hi)⟩
  | returning ech | finishing => exact ⟨_,_,rfl,hsilent (hrelease rfl rfl rfl rfl id nofun)⟩
  | running ech | ended => exact ⟨_,_,rfl,hsilent h⟩
  | uncounting ech =>
    obtain ⟨hpos,hsound⟩ := h.uncount hi
    rw [Process.advance,if_neg hpos.ne']
    exact ⟨_,_,rfl,hsilent hsound⟩
  | clearing ech => exact ⟨_,_,rfl,h.clear hi⟩

/-- Every step keeps the invariant, and none fails. -/
theorem exec_sound (a : Action) : ∃ s' new, exec s a=some (s',new) ∧ Sound (t++new) s' := by
  cases a with
  | start ech => exact ⟨_,_,rfl,by rw [append_nil]; exact h.start ech⟩
  | drop i =>
    rw [exec]
    split
    · rename_i ech hi
      refine ⟨_,_,rfl,?_⟩
      rw [append_nil]
      exact h.relock hi rfl rfl id nofun nofun fun j r _ hj hr => h.lock j r hj hr
    · exact ⟨_,_,rfl,by rwa [append_nil]⟩
  | advance i =>
    rw [exec]
    split
    · rename_i p hi
      exact h.advance hi
    · exact ⟨_,_,rfl,by rwa [append_nil]⟩
  | adopt retry => exact ⟨_,_,rfl,h.adopt retry⟩

end

end Invariant

section Runs

variable {t : List Event} {s : Process}

theorem sound_of_run (h : machine.Run always t s) : Sound t s := by
  refine h.invariant Sound ?_ ?_
  · rintro s rfl
    exact sound_fresh
  · intro t s a s' new hsound _ _ hstep
    obtain ⟨s₁,new₁,hexec,hnext⟩ := exec_sound hsound a
    change exec s a=some (s',new) at hstep
    rw [hexec] at hstep
    cases hstep
    exact hnext

/-- At every point of every interleaving: there is a key as long as a session is
there that was started with one; the key is one that a session was started with
or that was adopted since there was no session; and there is none while no
session is there. No step stops the program. -/
theorem session_key (h : machine.Run always t s) :
    (∀ (i : ℕ) (p : Phase), s.threads[i]?=some p → p.keyed=true → s.sessionEch.isSome=true) ∧
      (∀ k, s.sessionEch=some k → k∈(period t).keys) ∧
      ((∀ p∈s.threads, p.inside=false) → s.sessionEch=none) ∧
      ∀ a, (exec s a).isSome=true := by
  have hsound := sound_of_run h
  refine ⟨hsound.held,hsound.known,fun hnone => ?_,fun a => ?_⟩
  · refine hsound.empty (List.countP_eq_zero.mpr fun p hp => ?_)
    rw [hnone p hp]
    exact Bool.false_ne_true
  · obtain ⟨s',new,hexec,-⟩ := exec_sound hsound a
    rw [hexec]
    rfl

/-- The last session goes while another one waits in `start` without a key, and a
key is handed back in between. -/
def racingStart : List Action :=
  [.start (some [7]),.advance 0,.advance 0,.advance 0,.advance 0,.drop 0,.start none,
    .advance 0,.advance 0,.advance 1,.adopt [8],.advance 0,.adopt [9],.advance 0,
    .advance 1,.advance 1,.advance 1]

/-- The session that waited goes on without a key. -/
theorem session_key_race : ∃ t s, machine.Run always t s ∧
    (s.threads=[.ended,.returning none] ∧ s.sessionEch=none) ∧
    ∀ k, s.sessionEch=some k → k∈(period t).keys :=
  Machine.exists_run_with (fun _ _ => true) (fun _ _ _ _ => ⟨trivial,trivial⟩) rfl racingStart
    (by decide +kernel) fun _ _ h => (session_key h).2.1

end Runs

end MsnGuard.EchSessions
