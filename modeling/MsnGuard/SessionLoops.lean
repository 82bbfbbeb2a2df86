import MsnGuard.SessionMoves

/-!
# Each session is a run of its loop

The thread of a session only goes on by its own steps, and what it reads may be anything as far
as its loop is concerned. So what holds along the runs of the loop holds for every session.
-/

namespace MsnGuard.SessionThreads

open List Option Function
open SessionSupervisor (CoreError Supervisor)
open SessionEndpoints (SessionConfig RetryPolicy)

/-- A start that nothing speaks against spawns a worker. -/
def Spawns (fault : Option String) : SessionSupervisor.Call → Prop
  | .spawning r => r.refusal=none ∧ fault=none
  | _ => False

/-- A step of a start or a stop spawns a worker or leaves the number of the next one. -/
theorem advance_nextWorker {s s' : Supervisor} {c : ℕ} {expired : Bool} {fault : Option String}
    {call : SessionSupervisor.Call} {events : List SessionSupervisor.Event}
    (h : s.advance c expired fault call=some (s',events)) :
    Spawns fault call ∧ s'.nextWorker=s.nextWorker+1 ∨
      ¬Spawns fault call ∧ s'.nextWorker=s.nextWorker := by
  have hcancel : ∀ w, (s.cancel w).nextWorker=s.nextWorker := by
    intro w
    unfold Supervisor.cancel
    split <;> rfl
  unfold Supervisor.advance at h
  split at h
  case h_4 r =>
    split at h
    · rename_i e hrefusal
      cases h
      exact .inr ⟨fun hspawns => absurd (hrefusal.symm.trans hspawns.1) (by simp),rfl⟩
    · cases h
      exact .inr ⟨fun hspawns => (by cases hspawns.2),rfl⟩
    · rename_i hrefusal
      cases h
      exact .inl ⟨⟨hrefusal,rfl⟩,rfl⟩
  all_goals
    refine .inr ⟨id,?_⟩
    repeat' split at h
    all_goals first
      | cases h; done
      | (cases h; rfl)
      | (cases h; exact hcancel _)

theorem history_append (w : ℕ) (t t' : List Event) :
    history w (t++t')=history w t++history w t' := filterMap_append

theorem history_supervisor (w : ℕ) (events : List SessionSupervisor.Event) :
    history w (events.map .supervisor)=[] := by simp [history]

theorem history_thread (w : ℕ) (events : List ThreadEvent) :
    history w (events.map (.thread w))=events := by
  simp [history,filterMap_map]

theorem history_other {w w' : ℕ} (h : w'≠w) (events : List ThreadEvent) :
    history w (events.map (.thread w'))=[] := by simp [history,filterMap_map,h]

/-- The threads after a step of something else. -/
inductive Others (s s' : World) : Prop
  | same : s'.threads=s.threads → s.sup.nextWorker ≤ s'.sup.nextWorker → Others s s'
  | gone (w : ℕ) (th : Thread) : s.threads w=some th → th.phase=.done →
      s'.threads=Function.update s.threads w none →
      s.sup.nextWorker ≤ s'.sup.nextWorker → Others s s'
  | spawned (config : SessionConfig) :
      s'.threads=Function.update s.threads s.sup.nextWorker (some (Thread.new config)) →
      s'.sup.nextWorker=s.sup.nextWorker+1 → Others s s'

section Steps

variable {policy : RetryPolicy} {s s' : World} {new : List Event}

theorem supExec_nextWorker {sup sup' : Supervisor} {a : SessionSupervisor.Action}
    {events : List SessionSupervisor.Event} (h : sup.exec a=some (sup',events)) :
    sup.nextWorker ≤ sup'.nextWorker := by
  cases a with
  | step c expired fault =>
    obtain ⟨call,_,hadvance⟩ := bind_eq_some_iff.mp h
    rcases advance_nextWorker hadvance with ⟨_,heq⟩ | ⟨_,heq⟩ <;> omega
  | call c entry | finish w | exit w =>
    simp only [Supervisor.exec] at h
    split at h <;> cases h
    exact le_rfl

theorem supOnly_others {a : SessionSupervisor.Action} (h : s.supOnly a=some (s',new)) :
    s'.threads=s.threads ∧ s.sup.nextWorker ≤ s'.sup.nextWorker ∧ ∀ w, history w new=[] := by
  obtain ⟨⟨sup,events⟩,hexec,heq⟩ := map_eq_some_iff.mp h
  cases heq
  exact ⟨rfl,supExec_nextWorker hexec,fun w => history_supervisor w events⟩

section Spawn

variable {config : SessionConfig} {w : ℕ} {fault : Option String} {threads : ℕ → Option Thread}
  {call : SessionSupervisor.Call}

theorem spawn_of_spawns (h : Spawns fault call) : spawn config w fault threads call=
    update threads w (some (Thread.new config)) := by
  cases call <;> first
    | exact absurd h id
    | exact if_pos h

theorem spawn_of_not_spawns (h : ¬Spawns fault call) :
    spawn config w fault threads call=threads := by
  cases call <;> first
    | rfl
    | exact if_neg h

end Spawn

/-- What a start does to the threads. -/
theorem supStep_others {c : ℕ} {expired lowers : Bool} {fault : Option String}
    (h : s.supStep c expired fault lowers=some (s',new)) : Others s s' ∧ ∀ w, history w new=[] := by
  unfold World.supStep at h
  split at h
  · cases h
  split at h
  · cases h
  rename_i sup events hadvance
  have hnext := advance_nextWorker hadvance
  have hle : s.sup.nextWorker ≤ sup.nextWorker := by
    rcases hnext with ⟨_,heq⟩ | ⟨_,heq⟩ <;> omega
  split at h
  · split_ifs at h
    cases h
    refine ⟨?_,fun w => history_supervisor w events⟩
    rcases hnext with ⟨hspawns,heq⟩ | ⟨hspawns,_⟩
    · exact .spawned (s.configs c) (spawn_of_spawns hspawns) heq
    · exact .same (spawn_of_not_spawns hspawns) hle
  · cases h
    exact ⟨.same rfl hle,fun w => history_supervisor w events⟩

theorem callAdvance_history {c : ℕ} {error : Option CoreError} {call : TunCall} {plane : Plane}
    {call' : Option TunCall} {events : List Event}
    (h : s.callAdvance c error call=some (plane,call',events)) (w : ℕ) : history w events=[] := by
  unfold World.callAdvance at h
  split at h
  case h_1 | h_7 =>
    obtain ⟨p,_,heq⟩ := map_eq_some_iff.mp h
    cases heq
    rfl
  all_goals
    repeat' split at h
    all_goals first
      | cases h; done
      | (cases h; rfl)

/-- A step is one of a thread, or it leaves the threads that are there alone. -/
theorem exec_threads {a : Action} (h : s.exec policy a=some (s',new)) :
    (∃ w input, s.threadStep policy w input=some (s',new) ∧ a=.thread w input) ∨
      Others s s' ∧ ∀ w, history w new=[] := by
  cases a with
  | thread w input => exact .inl ⟨w,input,h,rfl⟩
  | callStart c r config | callStop c begins | exit w =>
    obtain ⟨hthreads,hnext,hnew⟩ := supOnly_others h
    exact .inr ⟨.same hthreads hnext,hnew⟩
  | sup c expired fault lowers => exact .inr (supStep_others h)
  | finish w =>
    simp only [World.exec] at h
    split at h
    · rename_i th hth
      split at h
      · rename_i hdone
        obtain ⟨hthreads,hnext,hnew⟩ := supOnly_others h
        exact .inr ⟨.gone w th hth hdone hthreads hnext,hnew⟩
      · cases h
    · cases h
  | lockStart c =>
    simp only [World.exec] at h
    split at h
    · obtain ⟨plane,_,heq⟩ := map_eq_some_iff.mp h
      cases heq
      exact .inr ⟨.same rfl le_rfl,fun w => rfl⟩
    · cases h
  | callTun c resume =>
    simp only [World.exec] at h
    split at h
    · cases h
    · cases h
      exact .inr ⟨.same rfl le_rfl,fun w => rfl⟩
  | elapse ms =>
    cases h
    exact .inr ⟨.same rfl le_rfl,fun w => rfl⟩
  | tun c error =>
    simp only [World.exec,World.callStep] at h
    split at h
    · cases h
    · obtain ⟨⟨plane,call',events⟩,hcall,heq⟩ := map_eq_some_iff.mp h
      cases heq
      exact .inr ⟨.same rfl le_rfl,callAdvance_history hcall⟩

/-- What a step of a thread is made of. -/
theorem threadStep_eq {w : ℕ} {input : Input} (h : s.threadStep policy w input=some (s',new)) :
    ∃ th th' effect events plane, s.threads w=some th ∧
      th.advance policy (s.view w) th.phase input=some (th',effect,events) ∧
      s.plane.apply s.now w effect=some plane ∧
      s'={s with plane := plane, threads := update s.threads w (some th')} ∧
      new=events.map (.thread w) := by
  unfold World.threadStep at h
  split at h
  · cases h
  rename_i th hth
  split at h
  · cases h
  rename_i th' effect events hadvance
  split at h
  · cases h
  rename_i plane hplane
  cases h
  exact ⟨th,th',effect,events,plane,hth,hadvance,hplane,rfl,rfl⟩

end Steps

/-- Each session by itself is a run of its loop; numbers that were not given to a
session have no history. -/
structure Loops (policy : RetryPolicy) (cond : List ThreadEvent → Thread → View × Input → Prop)
    (t : List Event) (s : World) : Prop where
  run : ∀ w, ∃ th, (loop policy).Run cond (history w t) th ∧ ∀ th', s.threads w=some th' → th'=th
  fresh : ∀ w, s.sup.nextWorker≤w → s.threads w=none ∧ history w t=[]

section Loops

variable {policy : RetryPolicy} {cond : List ThreadEvent → Thread → View × Input → Prop}
  {t new : List Event} {s s' : World}

theorem Loops.initial (config : SessionConfig) : Loops policy cond [] (World.initial config) where
  run w := ⟨Thread.new config,.start ⟨config,rfl⟩,by rintro th' ⟨⟩⟩
  fresh _ _ := ⟨rfl,rfl⟩

/-- A step of a thread is a step of its loop. -/
theorem Loops.thread (h : Loops policy cond t s) {w : ℕ} {input : Input}
    (hstep : s.threadStep policy w input=some (s',new))
    (hcond : ∀ th, s.threads w=some th → cond (history w t) th (s.view w,input)) :
    Loops policy cond (t++new) s' := by
  obtain ⟨th,th',effect,events,plane,hth,hadvance,_,hs',rfl⟩ := threadStep_eq hstep
  have hthreads : s'.threads=update s.threads w (some th') := by rw [hs']
  have hsup : s'.sup=s.sup := by rw [hs']
  have hold : w<s.sup.nextWorker := by
    by_contra hge
    rw [(h.fresh w (not_lt.mp hge)).1] at hth
    cases hth
  refine ⟨fun w' => ?_,fun w' hw' => ?_⟩
  · rcases eq_or_ne w' w with rfl | hne
    · obtain ⟨th₀,hrun,hsame⟩ := h.run w'
      obtain rfl := hsame th hth
      refine ⟨th',?_,?_⟩
      · rw [history_append,history_thread]
        exact hrun.next (s.view w',input) trivial (hcond th hth) (by simp [loop,hadvance])
      · intro th'' hth''
        rw [hthreads,update_self] at hth''
        exact (some.inj hth'').symm
    · rw [history_append,history_other hne.symm,append_nil]
      obtain ⟨th₀,hrun,hsame⟩ := h.run w'
      refine ⟨th₀,hrun,fun th'' hth'' => hsame th'' ?_⟩
      rwa [hthreads,update_of_ne hne] at hth''
  · rw [hsup] at hw'
    have hne : w'≠w := by omega
    rw [history_append,history_other hne.symm,append_nil,hthreads,update_of_ne hne]
    exact h.fresh w' hw'

/-- Whatever else happens leaves the loops where they are. -/
theorem Loops.others (h : Loops policy cond t s) (hothers : Others s s')
    (hnew : ∀ w, history w new=[]) : Loops policy cond (t++new) s' := by
  have hhistory : ∀ w, history w (t++new)=history w t := by
    intro w
    rw [history_append,hnew,append_nil]
  cases hothers with
  | same hthreads hnext =>
    refine ⟨fun w => ?_,fun w hw => ?_⟩
    · rw [hhistory,hthreads]
      exact h.run w
    · rw [hhistory,hthreads]
      exact h.fresh w (hnext.trans hw)
  | gone w₀ th₀ _ _ hthreads hnext =>
    refine ⟨fun w => ?_,fun w hw => ?_⟩
    · obtain ⟨th,hrun,hsame⟩ := h.run w
      refine ⟨th,hhistory w ▸ hrun,fun th' hth' => hsame th' ?_⟩
      rw [hthreads] at hth'
      rcases eq_or_ne w w₀ with rfl | hne
      · rw [update_self] at hth'
        cases hth'
      · rwa [update_of_ne hne] at hth'
    · obtain ⟨hnone,hempty⟩ := h.fresh w (hnext.trans hw)
      refine ⟨?_,(hhistory w).trans hempty⟩
      rcases eq_or_ne w w₀ with rfl | hne
      · rw [hthreads,update_self]
      · rwa [hthreads,update_of_ne hne]
  | spawned config hthreads hnext =>
    refine ⟨fun w => ?_,fun w hw => ?_⟩
    · rcases eq_or_ne w s.sup.nextWorker with rfl | hne
      · refine ⟨Thread.new config,?_,?_⟩
        · rw [hhistory,(h.fresh _ le_rfl).2]
          exact .start ⟨config,rfl⟩
        · intro th' hth'
          rw [hthreads,update_self] at hth'
          exact (some.inj hth').symm
      · obtain ⟨th,hrun,hsame⟩ := h.run w
        refine ⟨th,hhistory w ▸ hrun,fun th' hth' => hsame th' ?_⟩
        rwa [hthreads,update_of_ne hne] at hth'
    · have hne : w≠s.sup.nextWorker := by omega
      rw [hhistory,hthreads,update_of_ne hne]
      exact h.fresh w (by omega)

/-- Every step keeps the loops. -/
theorem Loops.step (h : Loops policy cond t s) {a : Action}
    (hcond : ∀ w input th, a=.thread w input → s.threads w=some th →
      cond (history w t) th (s.view w,input))
    (hexec : s.exec policy a=some (s',new)) : Loops policy cond (t++new) s' := by
  rcases exec_threads hexec with ⟨w,input,hstep,rfl⟩ | ⟨hothers,hnew⟩
  · exact h.thread hstep (fun th hth => hcond w input th rfl hth)
  · exact h.others hothers hnew

/-- In every run, what a session does is a run of its loop. -/
theorem loops_of_run {wcond : List Event → World → Action → Prop}
    (hcond : ∀ t s w input th, wcond t s (.thread w input) → s.threads w=some th →
      cond (history w t) th (s.view w,input))
    (h : (machine policy).Run wcond t s) : Loops policy cond t s := by
  refine h.invariant (Loops policy cond) ?_ ?_
  · rintro _ ⟨config,rfl⟩
    exact Loops.initial config
  · intro t s a s' new hloops _ hc hexec
    exact hloops.step (fun w input th ha hth => hcond t s w input th (ha ▸ hc) hth) hexec

end Loops

end MsnGuard.SessionThreads
