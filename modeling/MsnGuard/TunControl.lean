import MsnGuard.FiniteTables
import MsnGuard.SessionLoops

/-!
# The lock of the data plane

The bridge is started under the lock of the data plane, and it is stopped from more places, some
of them without the lock. A thread withdraws what it published under the lock before it stops
the bridge for the last time, so nothing can start the bridge for it afterwards.
-/

namespace MsnGuard.TunControl

open TransitionRuns SessionThreads Option Function
open SessionSupervisor (CoreError Supervisor)
open SessionEndpoints (SessionConfig RetryPolicy)

variable {view : View} {th : Thread} {p : Phase} {policy : RetryPolicy}

/-- Phases in which the thread has the lock. -/
def holds : Phase → Bool
  | .publishing _ | .lifting _ | .lowering _ => true
  | _ => false

/-- The thread is about to start the bridge. -/
def lifts : Phase → Bool
  | .lifting _ => true
  | _ => false

/-- Phases in which something of the session may be published. -/
def lit : Phase → Bool
  | .publishing _ | .lifting _ | .checking _ | .serving _ _ _ | .dropping _ _ | .restarting _ _ _
  | .cancelling | .ending _ | .tearing (.leave _) | .tearing (.leaveUnlessCancelled _)
  | .returning _ | .unwinding => true
  | _ => false

/-- Phases before the bridge may be up for the first time and after it was stopped
for the last time. -/
def bare : Phase → Bool
  | .building | .draining | .done => true
  | _ => false

/-- What a step of a thread does to the data plane fits where it comes from and
where it leads. -/
def Fits (view : View) (p p' : Phase) : Effect → Prop
  | .none => (holds p'=true → holds p=true) ∧ (lifts p'=true → view.paused=false) ∧
      (lit p=true → lit p'=true) ∧ (bare p'=true → bare p=true)
  | .publish _ => lifts p'=false ∧ lit p'=true ∧ bare p'=false
  | .unlock => holds p=true ∧ holds p'=false ∧ lit p'=true ∧ bare p'=false
  | .raise | .raiseFailed => lifts p=true ∧ holds p'=false ∧ lit p'=true ∧ bare p'=false
  | .withdraw => lifts p'=false ∧ bare p'=false
  | .lowerUnlock => holds p=true ∧ lit p=false ∧ holds p'=false ∧ bare p'=false
  | .lower => holds p'=false ∧ (lit p=true → lit p'=true)
  | .retire => holds p'=false ∧ bare p'=false
  | .abandon => holds p'=false ∧ lit p'=true ∧ bare p'=false

theorem fits_quiet {p' : Phase} (h : Quiet view th p p') : Fits view p p' .none := by
  cases h <;> simp_all [Fits,holds,lifts,lit,bare]

theorem fits_move {input : Input} {th' : Thread} {effect : Effect} {events : List ThreadEvent}
    (h : Moves policy view input th th.phase th' effect events) :
    Fits view th.phase th'.phase effect := by
  generalize hphase : th.phase=p at h
  cases h with
  | quiet hquiet => exact fits_quiet hquiet
  | carrierUp endpoints | exitUp carrier exit =>
    simp only [Thread.goto]
    split <;> simp [Fits,holds,lifts,lit,bare]
  | redial hp _ | giveUp _ hp _ _ =>
    rcases hp with rfl | ⟨⟨outcome,rfl⟩,_⟩ <;> simp [Fits,holds,lifts,lit,bare,Thread.goto]
  | exitDropped handle next => cases next <;> simp [Fits,holds,lifts,lit,bare,Thread.goto]
  | stopExit next handle _ | stopCarrier next handle _ _ =>
    simp [hphase,Fits,lifts]
  | _ => simp [Fits,holds,lifts,lit,bare,Thread.goto]

/-- Calls that have the lock. -/
def callHolds : TunCall → Bool
  | .pausing | .resuming => false
  | _ => true

/-- Calls that have marked the bridge as paused and not stopped it yet, or started
it and not taken the mark away. -/
def callLifts : TunCall → Bool
  | .pauseHold | .pauseStop | .recheckFlag | .recheckRunning | .resumeStop | .resumeHold
  | .resumeClear => true
  | _ => false

/-- The worker of a session runs. -/
def Runs (sup : Supervisor) (w : ℕ) : Prop := ∃ cancelled, sup.workers w=some (.running cancelled)

/-- What holds between the data plane, the threads and the calls. -/
structure Sound (s : World) : Prop where
  thread_holds : ∀ w th, s.threads w=some th → holds th.phase=true →
    s.plane.control=some (.thread w)
  call_holds : ∀ c call, s.calls c=some call → callHolds call=true → s.plane.control=some (.call c)
  lifting : ∀ w th, s.threads w=some th → lifts th.phase=true → s.plane.paused=false
  /-- What is published belongs to a thread that has not withdrawn it. -/
  live : ∀ w l, s.plane.live=some (w,l) → ∃ th, s.threads w=some th ∧ lit th.phase=true
  /-- What a call is about to start the bridge for is published. -/
  target : ∀ c w l, s.calls c=some (.resumeStart w l) → ∃ l', s.plane.live=some (w,l')
  paused : s.plane.paused=true → s.plane.bridge≠none →
    ∃ c call, s.calls c=some call ∧ callLifts call=true
  /-- A bridge that is up belongs to a thread that will stop it. -/
  bridge : ∀ w, s.plane.bridge=some w → ∃ th, s.threads w=some th ∧ bare th.phase=false
  alive : ∀ w th, s.threads w=some th → Runs s.sup w

theorem lifts_holds (h : lifts p=true) : holds p=true := by
  cases p <;> first
    | rfl
    | cases h

theorem acquire_eq {p p' : Plane} {holder : Holder} (h : p.acquire holder=some p') :
    p.control=none ∧ p'={p with control := some holder} := by
  unfold Plane.acquire at h
  split_ifs at h with hfree
  exact ⟨hfree,(some.inj h).symm⟩

section Threads

variable {s : World} {w : ℕ} {th th' : Thread} {effect : Effect} {plane : Plane}
  {next : Option Thread}

/-- What a step of a thread may do to the data plane. -/
structure ThreadFits (s : World) (w : ℕ) (p : Phase) (plane : Plane) (next : Option Thread) :
    Prop where
  /-- Somebody else who has the lock keeps it, and what is published stays. -/
  others : ∀ holder, holder≠.thread w → s.plane.control=some holder →
    plane.control=some holder ∧ plane.live=s.plane.live
  /-- A thread that has the lock has it by its step, and goes on to start the bridge
  only when it has found it not paused. -/
  own : next.any (holds ·.phase)=true → plane.control=some (.thread w) ∧
    (next.any (lifts ·.phase)=true → s.plane.paused=false)
  /-- What is published stays, is withdrawn or is that of the thread. -/
  live : plane.live=none ∨ (∃ l, plane.live=some (w,l)) ∧ next.any (lit ·.phase)=true ∨
    plane.live=s.plane.live ∧ (lit p=true → next.any (lit ·.phase)=true)
  /-- A thread may take the mark away that the bridge is paused. -/
  paused : plane.paused=s.plane.paused ∨ plane.paused=false
  /-- The bridge is stopped, started by a thread that is about to, or stays. -/
  bridge : plane.bridge=none ∨
    plane.bridge=some w ∧ lifts p=true ∧ next.all (bare ·.phase)=false ∨
    plane.bridge=s.plane.bridge ∧ (next.all (bare ·.phase)=true → bare p=true)

/-- Every step of a thread does what it may. -/
theorem apply_fits (hholds : holds th.phase=true → s.plane.control=some (.thread w))
    (hfits : Fits (s.view w) th.phase th'.phase effect)
    (happly : s.plane.apply s.now w effect=some plane) :
    ThreadFits s w th.phase plane (some th') := by
  have hmine (hcontrol : s.plane.control=some (.thread w)) (holder : Holder)
      (hne : holder≠.thread w) (hother : s.plane.control=some holder) :
      plane.control=some holder ∧ plane.live=s.plane.live :=
    absurd (some.inj (hother.symm.trans hcontrol)) hne
  cases effect with
  | none =>
    cases happly
    obtain ⟨hheld,hlifts,hlit,hbare⟩ := hfits
    exact ⟨fun _ _ hother => ⟨hother,rfl⟩,fun hnew => ⟨hholds (hheld hnew),hlifts⟩,
      .inr (.inr ⟨rfl,hlit⟩),.inl rfl,.inr (.inr ⟨rfl,hbare⟩)⟩
  | publish live =>
    obtain ⟨p,hacquire,rfl⟩ := map_eq_some_iff.mp happly
    obtain ⟨hfree,rfl⟩ := acquire_eq hacquire
    obtain ⟨hlifts,hlit,hbare⟩ := hfits
    exact ⟨by simp [hfree],fun _ => ⟨rfl,by simp [hlifts]⟩,.inr (.inl ⟨⟨live,rfl⟩,hlit⟩),.inl rfl,
      .inr (.inr ⟨rfl,by simp [hbare]⟩)⟩
  | withdraw =>
    obtain ⟨p,hacquire,rfl⟩ := map_eq_some_iff.mp happly
    obtain ⟨hfree,rfl⟩ := acquire_eq hacquire
    exact ⟨by simp [hfree],fun _ => ⟨rfl,by simp [hfits.1]⟩,.inl rfl,.inl rfl,
      .inr (.inr ⟨rfl,by simp [hfits.2]⟩)⟩
  | retire =>
    obtain ⟨p,hacquire,rfl⟩ := map_eq_some_iff.mp happly
    obtain ⟨hfree,rfl⟩ := acquire_eq hacquire
    exact ⟨by simp [hfree],by simp [hfits.1],.inl rfl,.inr rfl,
      .inr (.inr ⟨rfl,by simp [hfits.2]⟩)⟩
  | unlock =>
    obtain ⟨hheld,hnot,hlit,hbare⟩ := hfits
    have hothers := hmine (hholds hheld)
    cases happly
    exact ⟨hothers,by simp [hnot],.inr (.inr ⟨rfl,fun _ => hlit⟩),.inl rfl,
      .inr (.inr ⟨rfl,by simp [hbare]⟩)⟩
  | raise =>
    obtain ⟨hlifts,hnot,hlit,hbare⟩ := hfits
    have hothers := hmine (hholds (lifts_holds hlifts))
    cases happly
    exact ⟨hothers,by simp [hnot],.inr (.inr ⟨rfl,fun _ => hlit⟩),.inl rfl,
      .inr (.inl ⟨rfl,hlifts,hbare⟩)⟩
  | raiseFailed =>
    obtain ⟨hlifts,hnot,hlit,hbare⟩ := hfits
    have hothers := hmine (hholds (lifts_holds hlifts))
    cases happly
    exact ⟨hothers,by simp [hnot],.inr (.inr ⟨rfl,fun _ => hlit⟩),.inl rfl,.inl rfl⟩
  | lowerUnlock =>
    obtain ⟨hheld,hlit,hnot,hbare⟩ := hfits
    have hothers := hmine (hholds hheld)
    cases happly
    exact ⟨hothers,by simp [hnot],.inr (.inr ⟨rfl,by simp [hlit]⟩),.inl rfl,.inl rfl⟩
  | lower =>
    cases happly
    exact ⟨fun _ _ hother => ⟨hother,rfl⟩,by simp [hfits.1],.inr (.inr ⟨rfl,hfits.2⟩),.inl rfl,
      .inl rfl⟩
  | abandon =>
    obtain ⟨hnot,hlit,hbare⟩ := hfits
    by_cases hcontrol : s.plane.control=some (.thread w)
    · have hothers := hmine hcontrol
      cases happly
      rw [if_pos hcontrol] at hothers ⊢
      exact ⟨hothers,by simp [hnot],.inr (.inr ⟨rfl,fun _ => hlit⟩),.inl rfl,
        .inr (.inr ⟨rfl,by simp [hbare]⟩)⟩
    · cases happly
      rw [if_neg hcontrol]
      exact ⟨fun _ _ hother => ⟨hother,rfl⟩,by simp [hnot],.inr (.inr ⟨rfl,fun _ => hlit⟩),.inl rfl,
        .inr (.inr ⟨rfl,by simp [hbare]⟩)⟩

/-- Every step of a thread keeps what holds. -/
theorem Sound.thread_step (h : Sound s) (hth : s.threads w=some th)
    (hfits : ThreadFits s w th.phase plane next) :
    Sound {s with plane := plane, threads := update s.threads w next} := by
  have hkept {good : Thread → Prop} (hgood : good th → ∃ th', next=some th' ∧ good th') {w' : ℕ} :
      (∃ th₀, s.threads w'=some th₀ ∧ good th₀) →
      ∃ th₀, update s.threads w next w'=some th₀ ∧ good th₀ := by
    rintro ⟨th₀,hth₀,hgood₀⟩
    rcases eq_or_ne w' w with rfl | hne
    · cases hth.symm.trans hth₀
      rw [update_self]
      exact hgood hgood₀
    · exact ⟨th₀,(update_of_ne hne ..).trans hth₀,hgood₀⟩
  constructor
  case thread_holds =>
    intro w' th'' hw' hnew
    rcases FiniteTables.update_eq_some hw' with ⟨rfl,rfl⟩ | ⟨hne,hold⟩
    · exact (hfits.own hnew).1
    · exact (hfits.others _ (by simp [hne]) (h.thread_holds w' th'' hold hnew)).1
  case call_holds =>
    intro c call hcall hnew
    exact (hfits.others _ (by simp) (h.call_holds c call hcall hnew)).1
  case lifting =>
    intro w' th'' hw' hnew
    have hfalse : s.plane.paused=false := by
      rcases FiniteTables.update_eq_some hw' with ⟨rfl,rfl⟩ | ⟨_,hold⟩
      · exact (hfits.own (lifts_holds hnew)).2 hnew
      · exact h.lifting w' th'' hold hnew
    rcases hfits.paused with hsame | hoff
    · exact hsame.trans hfalse
    · exact hoff
  case live =>
    intro w' l hlive
    rcases hfits.live with hnone | ⟨⟨l',hown⟩,hlit⟩ | ⟨hsame,hlit⟩
    · cases hnone.symm.trans hlive
    · cases hown.symm.trans hlive
      obtain ⟨th',hnext,hlit'⟩ := (any_eq_true ..).mp hlit
      exact ⟨th',(update_self ..).trans hnext,hlit'⟩
    · exact hkept (fun hth => (any_eq_true ..).mp (hlit hth))
        (h.live w' l (hsame.symm.trans hlive))
  case target =>
    intro c w' l hcall
    obtain ⟨l',hl'⟩ := h.target c w' l hcall
    exact ⟨l',(hfits.others _ (by simp) (h.call_holds c _ hcall rfl)).2.trans hl'⟩
  case paused =>
    intro hpaused hbridge
    have hpaused' : s.plane.paused=true := by
      rcases hfits.paused with hsame | hoff
      · exact hsame.symm.trans hpaused
      · cases hoff.symm.trans hpaused
    rcases hfits.bridge with hnone | ⟨_,hlifts,_⟩ | ⟨hsame,_⟩
    · exact absurd hnone hbridge
    · cases (h.lifting w th hth hlifts).symm.trans hpaused'
    · exact h.paused hpaused' (hsame ▸ hbridge)
  case bridge =>
    intro w' hbridge
    rcases hfits.bridge with hnone | ⟨hown,_,hbare⟩ | ⟨hsame,hbare⟩
    · cases hnone.symm.trans hbridge
    · cases hown.symm.trans hbridge
      obtain ⟨th',hnext,hbare'⟩ := (all_eq_false ..).mp hbare
      exact ⟨th',(update_self ..).trans hnext,hbare'⟩
    · refine hkept (fun hnot => (all_eq_false ..).mp ?_)
        (h.bridge w' (hsame.symm.trans hbridge))
      rw [←Bool.not_eq_true] at hnot ⊢
      exact fun hall => hnot (hbare hall)
  case alive =>
    intro w' th'' hw'
    rcases FiniteTables.update_eq_some hw' with ⟨rfl,_⟩ | ⟨_,hold⟩
    · exact h.alive w' th hth
    · exact h.alive w' th'' hold

end Threads

theorem lit_bare (h : lit p=true) : bare p=false := by
  cases p <;> first
    | rfl
    | cases h

/-- What a step of a call may do to the data plane. -/
structure CallFits (s : World) (c : ℕ) (call : TunCall) (plane : Plane) (call' : Option TunCall) :
    Prop where
  live : plane.live=s.plane.live
  others : ∀ holder, holder≠.call c → s.plane.control=some holder → plane.control=some holder
  own : ∀ next, call'=some next → callHolds next=true → plane.control=some (.call c)
  paused : plane.paused=s.plane.paused ∨ plane.paused=false ∨ s.plane.control=some (.call c)
  target : ∀ w l, call'=some (.resumeStart w l) → ∃ l', s.plane.live=some (w,l')
  bridge : ∀ w, plane.bridge=some w → s.plane.bridge=some w ∨ ∃ l, s.plane.live=some (w,l)
  lifts : plane.paused=true → plane.bridge≠none → (∃ next, call'=some next ∧ callLifts next=true) ∨
      s.plane.paused=true ∧ s.plane.bridge≠none ∧ callLifts call=false

section Calls

variable {s : World} {c : ℕ} {call : TunCall} {plane : Plane} {call' : Option TunCall}

/-- A call goes on under the lock. -/
theorem callFits_stay {next : TunCall} (hcontrol : s.plane.control=some (.call c))
    (hlive : plane.live=s.plane.live) (hsame : plane.control=s.plane.control)
    (hbridge : plane.bridge=s.plane.bridge)
    (hpaused : plane.paused=s.plane.paused ∨ callLifts next=true)
    (htarget : ∀ w l, next=.resumeStart w l → ∃ l', s.plane.live=some (w,l'))
    (hlifts : callLifts call=true → callLifts next=true) :
    CallFits s c call plane (some next) where
  live := hlive
  others _ _ hother := hsame.trans hother
  own _ _ _ := hsame.trans hcontrol
  paused := .inr (.inr hcontrol)
  target w l hnext := htarget w l (some.inj hnext)
  bridge w hw := .inl (hbridge ▸ hw)
  lifts hp hb := by
    rcases hpaused with hsame' | hnext
    · cases hcall : callLifts call with
      | true => exact .inl ⟨next,rfl,hlifts hcall⟩
      | false => exact .inr ⟨hsame' ▸ hp,hbridge ▸ hb,rfl⟩
    · exact .inl ⟨next,rfl,hnext⟩

/-- A call returns. -/
theorem callFits_leave (hcontrol : s.plane.control=some (.call c))
    (hlive : plane.live=s.plane.live)
    (hbridge : ∀ w, plane.bridge=some w → s.plane.bridge=some w)
    (hpaused : plane.paused=s.plane.paused ∨ plane.paused=false)
    (hlifts : plane.paused=true → plane.bridge≠none → callLifts call=false) :
    CallFits s c call plane none where
  live := hlive
  others holder hne hother := by
    rw [hcontrol] at hother
    exact absurd (some.inj hother).symm hne
  own _ hnext := by cases hnext
  paused := by
    rcases hpaused with hsame | hoff
    · exact .inl hsame
    · exact .inr (.inl hoff)
  target _ _ hnext := by cases hnext
  bridge w hw := .inl (hbridge w hw)
  lifts hp hb := by
    obtain ⟨w,hw⟩ := ne_none_iff_exists'.mp hb
    rcases hpaused with hsame | hoff
    · exact .inr ⟨hsame ▸ hp,by simp [hbridge w hw],hlifts hp hb⟩
    · cases hoff.symm.trans hp

/-- A call takes the lock. -/
theorem callFits_acquire {next : TunCall} (hacquire : s.plane.acquire (.call c)=some plane)
    (hcall : callLifts call=false) (hnext : ∀ w l, next≠.resumeStart w l) :
    CallFits s c call plane (some next) := by
  obtain ⟨hfree,rfl⟩ := acquire_eq hacquire
  refine ⟨rfl,?_,fun _ _ _ => rfl,.inl rfl,?_,fun w => .inl,?_⟩
  · intro holder _ hother
    rw [hfree] at hother
    cases hother
  · intro w l heq
    exact absurd (some.inj heq) (hnext w l)
  · intro hp hb
    exact .inr ⟨hp,hb,hcall⟩

/-- Every step of a call does what it may. -/
theorem callAdvance_fits {error : Option CoreError} {events : List Event}
    (hcontrol : callHolds call=true → s.plane.control=some (.call c))
    (htarget : ∀ w l, call=.resumeStart w l → ∃ l', s.plane.live=some (w,l'))
    (h : s.callAdvance c error call=some (plane,call',events)) : CallFits s c call plane call' := by
  have hstay {next : TunCall} (hheld : callHolds call=true) (hcall : callLifts call=false)
      (hnext : ∀ w l, next≠.resumeStart w l) : CallFits s c call s.plane (some next) :=
    callFits_stay (hcontrol hheld) rfl rfl rfl (.inl rfl)
      (fun w l heq => absurd heq (hnext w l)) (fun hl => absurd (hcall.symm.trans hl) (by simp))
  have hleave (hheld : callHolds call=true) (hcall : callLifts call=false) :
      CallFits s c call s.plane.unlock none :=
    callFits_leave (hcontrol hheld) rfl (fun _ hw => hw) (.inl rfl) (fun _ _ => hcall)
  have hlower (hheld : callHolds call=true) : CallFits s c call s.plane.lower.unlock none :=
    callFits_leave (hcontrol hheld) rfl nofun (.inl rfl) (fun _ => absurd rfl)
  cases call with
  | pausing | resuming =>
    obtain ⟨p,hacquire,heq⟩ := map_eq_some_iff.mp h
    cases heq
    exact callFits_acquire hacquire rfl (by simp)
  | pauseRunning | resumeRunning =>
    simp only [World.callAdvance] at h
    split at h
    · cases h
    split at h
    · cases h
      exact hstay rfl rfl (by simp)
    · cases h
      exact hleave rfl rfl
  | pauseFlag | resumeFlag | resumePaused =>
    simp only [World.callAdvance] at h
    split at h <;> cases h <;> first
      | exact hstay rfl rfl (by simp)
      | exact hleave rfl rfl
  | pauseSwap =>
    simp only [World.callAdvance] at h
    split at h
    · cases h
      exact hleave rfl rfl
    · cases h
      exact callFits_stay (hcontrol rfl) rfl rfl rfl (.inr rfl) (by simp) (fun _ => rfl)
  | pauseHold | resumeHold =>
    cases h
    exact callFits_stay (hcontrol rfl) rfl rfl rfl (.inl rfl) (by simp) (fun _ => rfl)
  | pauseStop | resumeStop =>
    cases h
    exact hlower rfl
  | resumeLive =>
    simp only [World.callAdvance] at h
    split at h
    · cases h
      exact hleave rfl rfl
    · rename_i w live hfilter
      cases h
      have hlive : s.plane.live=some (w,live) := (filter_eq_some_iff.mp hfilter).1
      refine callFits_stay (hcontrol rfl) rfl rfl rfl (.inl rfl) ?_ (by simp [callLifts])
      rintro w' l' ⟨⟩
      exact ⟨live,hlive⟩
  | resumeStart w live =>
    cases error with
    | some e =>
      cases h
      exact hlower rfl
    | none =>
      cases h
      refine ⟨rfl,fun _ _ hother => hother,fun _ _ _ => hcontrol rfl,.inl rfl,by simp,?_,?_⟩
      · rintro w' ⟨⟩
        exact .inr (htarget w live rfl)
      · intro _ _
        exact .inl ⟨.recheckFlag,rfl,rfl⟩
  | recheckFlag =>
    cases h
    refine callFits_stay (hcontrol rfl) rfl rfl rfl (.inl rfl) ?_ ?_
    · intro w l heq
      split at heq <;> cases heq
    · intro _
      split <;> rfl
  | recheckRunning =>
    simp only [World.callAdvance] at h
    split at h
    · cases h
    · cases h
      refine callFits_stay (hcontrol rfl) rfl rfl rfl (.inl rfl) ?_ ?_
      · intro w l heq
        split at heq <;> cases heq
      · intro _
        split <;> rfl
  | resumeClear =>
    cases h
    exact callFits_leave (hcontrol rfl) rfl (fun _ hw => hw) (.inr rfl)
      (fun hp => absurd hp (by simp [Plane.unlock]))

/-- Every step of a call keeps what holds. -/
theorem Sound.call_step (h : Sound s) (hcall : ∀ call₀, s.calls c=some call₀ → call₀=call)
    (hfits : CallFits s c call plane call') :
    Sound {s with plane := plane, calls := update s.calls c call'} := by
  have hcalls : ∀ {c' call''}, update s.calls c call' c'=some call'' →
      c'=c ∧ call'=some call'' ∨ c'≠c ∧ s.calls c'=some call'' :=
    FiniteTables.update_eq_some
  constructor
  case thread_holds =>
    intro w th hth hnew
    exact hfits.others _ (by simp) (h.thread_holds w th hth hnew)
  case call_holds =>
    intro c' call'' hc' hnew
    rcases hcalls hc' with ⟨rfl,hnext⟩ | ⟨hne,hold⟩
    · exact hfits.own call'' hnext hnew
    · exact hfits.others _ (by simp [hne]) (h.call_holds c' call'' hold hnew)
  case lifting =>
    intro w th hth hnew
    have hfalse := h.lifting w th hth hnew
    rcases hfits.paused with hsame | hoff | hcontrol
    · exact hsame.trans hfalse
    · exact hoff
    · have hholder := h.thread_holds w th hth (lifts_holds hnew)
      cases hcontrol.symm.trans hholder
  case live =>
    intro w l hlive
    exact h.live w l (hfits.live.symm.trans hlive)
  case target =>
    intro c' w l hc'
    rcases hcalls hc' with ⟨_,hnext⟩ | ⟨_,hold⟩
    · obtain ⟨l',hl'⟩ := hfits.target w l hnext
      exact ⟨l',hfits.live.trans hl'⟩
    · obtain ⟨l',hl'⟩ := h.target c' w l hold
      exact ⟨l',hfits.live.trans hl'⟩
  case paused =>
    intro hpaused hbridge
    rcases hfits.lifts hpaused hbridge with ⟨next,rfl,hnext⟩ | ⟨hpaused',hbridge',hcall'⟩
    · exact ⟨c,next,update_self ..,hnext⟩
    · obtain ⟨c',call'',hc',hlifts⟩ := h.paused hpaused' hbridge'
      have hne : c'≠c := by
        rintro rfl
        cases hcall _ hc'
        cases hcall'.symm.trans hlifts
      exact ⟨c',call'',(update_of_ne hne ..).trans hc',hlifts⟩
  case bridge =>
    intro w hbridge
    rcases hfits.bridge w hbridge with hold | ⟨l,hlive⟩
    · exact h.bridge w hold
    · obtain ⟨th,hth,hlit⟩ := h.live w l hlive
      exact ⟨th,hth,lit_bare hlit⟩
  case alive => exact h.alive

end Calls

section Others

variable {policy : RetryPolicy} {s s' : World} {new : List Event}
variable {sup sup' : Supervisor} {w c w' : ℕ} {expired : Bool} {fault : Option String}
  {call : SessionSupervisor.Call} {events : List SessionSupervisor.Event} {th : Thread}

theorem runs_cancel (h : Runs sup w) (w' : ℕ) : Runs (sup.cancel w') w := by
  unfold Supervisor.cancel
  split
  · rcases eq_or_ne w w' with rfl | hne
    · exact ⟨true,update_self ..⟩
    · obtain ⟨cancelled,hw⟩ := h
      exact ⟨cancelled,(update_of_ne hne ..).trans hw⟩
  · exact h

/-- A start or a stop leaves the workers that run, and the one that it spawns runs. -/
theorem runs_advance (h : sup.advance c expired fault call=some (sup',events)) (w : ℕ) :
    (Runs sup w → Runs sup' w) ∧ (Spawns fault call → Runs sup' sup.nextWorker) := by
  unfold Supervisor.advance at h
  split at h
  case h_4 r =>
    split at h
    · rename_i e hrefusal
      cases h
      exact ⟨id,fun hspawns => absurd (hrefusal.symm.trans hspawns.1) (by simp)⟩
    · cases h
      exact ⟨id,fun hspawns => absurd hspawns.2 (by simp)⟩
    · cases h
      have hspawned : Runs {sup.leave c with
          workers := update sup.workers sup.nextWorker (some (.running false))}
          sup.nextWorker := ⟨false,update_self ..⟩
      refine ⟨fun hruns => ?_,fun _ => hspawned⟩
      rcases eq_or_ne w sup.nextWorker with rfl | hne
      · exact hspawned
      · obtain ⟨cancelled,hw⟩ := hruns
        exact ⟨cancelled,(update_of_ne hne ..).trans hw⟩
  all_goals
    refine ⟨fun hruns => ?_,False.elim⟩
    repeat' split at h
    all_goals first
      | cases h; done
      | (cases h; exact hruns)
      | (cases h; exact runs_cancel hruns _)

/-- Nothing of the data plane is in the hands of a thread or a call. -/
def Unheld (s : World) : Prop := s.plane.control=none ∨ ∃ c, s.plane.control=some (.start c)

theorem Sound.not_thread_holds (h : Sound s) (hfree : Unheld s) (hth : s.threads w=some th) :
    holds th.phase=false := by
  by_contra hholds
  have hcontrol := h.thread_holds w th hth (by simpa using hholds)
  rcases hfree with hnone | ⟨c,hstart⟩
  · cases hnone.symm.trans hcontrol
  · cases hstart.symm.trans hcontrol

theorem Sound.not_call_holds (h : Sound s) (hfree : Unheld s) {call : TunCall}
    (hcall : s.calls c=some call) : callHolds call=false := by
  by_contra hholds
  have hcontrol := h.call_holds c call hcall (by simpa using hholds)
  rcases hfree with hnone | ⟨c',hstart⟩
  · cases hnone.symm.trans hcontrol
  · cases hstart.symm.trans hcontrol

/-- The supervisor goes on; the lock passes only between starts. -/
theorem Sound.frame (h : Sound s) (hcalls : s'.calls=s.calls)
    (hkept : ∀ w th, s.threads w=some th → s'.threads w=some th)
    (hthreads : ∀ w th, s'.threads w=some th → s.threads w=some th ∨ th.phase=.building)
    (hplane : s'.plane.control=s.plane.control ∧ s'.plane.live=s.plane.live ∨ Unheld s ∧
      (s'.plane.live=s.plane.live ∨ s'.plane.live=none))
    (hpaused : s'.plane.paused=s.plane.paused ∨ s'.plane.paused=false)
    (hbridge : s'.plane.bridge=s.plane.bridge ∨ s'.plane.bridge=none)
    (halive : ∀ w th, s'.threads w=some th → Runs s'.sup w) : Sound s' := by
  constructor
  case thread_holds =>
    intro w th hth hholds
    rcases hthreads w th hth with hold | hnew
    · rcases hplane with ⟨hcontrol,_⟩ | ⟨hfree,_⟩
      · exact hcontrol.trans (h.thread_holds w th hold hholds)
      · cases (h.not_thread_holds hfree hold).symm.trans hholds
    · rw [hnew] at hholds
      cases hholds
  case call_holds =>
    intro c call hcall hholds
    rw [hcalls] at hcall
    rcases hplane with ⟨hcontrol,_⟩ | ⟨hfree,_⟩
    · exact hcontrol.trans (h.call_holds c call hcall hholds)
    · cases (h.not_call_holds hfree hcall).symm.trans hholds
  case lifting =>
    intro w th hth hlifts
    rcases hpaused with hsame | hoff
    · rcases hthreads w th hth with hold | hnew
      · exact hsame.trans (h.lifting w th hold hlifts)
      · rw [hnew] at hlifts
        cases hlifts
    · exact hoff
  case live =>
    intro w l hlive
    have hlive' : s.plane.live=some (w,l) := by
      rcases hplane with ⟨_,hsame⟩ | ⟨_,hsame | hnone⟩
      · exact hsame.symm.trans hlive
      · exact hsame.symm.trans hlive
      · cases hnone.symm.trans hlive
    obtain ⟨th,hth,hlit⟩ := h.live w l hlive'
    exact ⟨th,hkept w th hth,hlit⟩
  case target =>
    intro c w l hcall
    rw [hcalls] at hcall
    rcases hplane with ⟨_,hsame⟩ | ⟨hfree,_⟩
    · obtain ⟨l',hl'⟩ := h.target c w l hcall
      exact ⟨l',hsame.trans hl'⟩
    · exact absurd (h.not_call_holds hfree hcall) (by simp [callHolds])
  case paused =>
    intro hp hb
    rw [hcalls]
    rcases hpaused with hsame | hoff
    · rcases hbridge with hbsame | hnone
      · exact h.paused (hsame ▸ hp) (hbsame ▸ hb)
      · exact absurd hnone hb
    · cases hoff.symm.trans hp
  case bridge =>
    intro w hw
    rcases hbridge with hsame | hnone
    · obtain ⟨th,hth,hbare⟩ := h.bridge w (hsame.symm.trans hw)
      exact ⟨th,hkept w th hth,hbare⟩
    · cases hnone.symm.trans hw
  case alive => exact halive

/-- A step of the supervisor alone. -/
theorem Sound.supOnly (h : Sound s) {a : SessionSupervisor.Action}
    (hruns : ∀ sup events, s.sup.exec a=some (sup,events) → ∀ w th, s.threads w=some th →
      Runs sup w)
    (hstep : s.supOnly a=some (s',new)) : Sound s' := by
  obtain ⟨⟨sup,events⟩,hexec,heq⟩ := map_eq_some_iff.mp hstep
  cases heq
  exact h.frame rfl (fun _ _ hth => hth) (fun _ _ => .inl) (.inl ⟨rfl,rfl⟩) (.inl rfl)
    (.inl rfl) (hruns sup events hexec)

theorem runs_call {entry : SessionSupervisor.Entry}
    (h : sup.exec (.call c entry)=some (sup',events)) (hruns : Runs sup w) : Runs sup' w := by
  simp only [Supervisor.exec] at h
  split at h <;> cases h
  exact hruns

theorem runs_exit (h : sup.exec (.exit w')=some (sup',events)) (hruns : Runs sup w) : Runs sup' w := by
  obtain ⟨cancelled,hw⟩ := hruns
  simp only [Supervisor.exec] at h
  split at h
  · rename_i hfinished
    cases h
    have hne : w≠w' := by
      rintro rfl
      cases hw.symm.trans hfinished
    exact ⟨cancelled,(update_of_ne hne ..).trans hw⟩
  · cases h

theorem runs_finish (h : sup.exec (.finish w')=some (sup',events)) (hne : w≠w')
    (hruns : Runs sup w) : Runs sup' w := by
  obtain ⟨cancelled,hw⟩ := hruns
  simp only [Supervisor.exec] at h
  split at h
  · cases h
    exact ⟨cancelled,(update_of_ne hne ..).trans hw⟩
  · cases h

/-- What a start that has the lock does to the data plane. -/
structure Resets (p p' : Plane) : Prop where
  live : p'.live=p.live ∨ p'.live=none
  paused : p'.paused=p.paused ∨ p'.paused=false
  bridge : p'.bridge=p.bridge

theorem startStep_plane (c : ℕ) (fault : Option String) (call : SessionSupervisor.Call)
    (sup : Supervisor) : Resets s.plane (s.startStep c fault call sup).plane := by
  have hreset : Resets s.plane (resetPlane s.plane call) := by
    unfold resetPlane
    split
    · split
      · exact ⟨.inr rfl,.inr rfl,rfl⟩
      · exact ⟨.inl rfl,.inl rfl,rfl⟩
    · exact ⟨.inl rfl,.inl rfl,rfl⟩
  simp only [World.startStep]
  split <;> exact ⟨hreset.live,hreset.paused,hreset.bridge⟩

/-- A start that has the lock goes on, and a thread it spawns is new. -/
theorem Sound.startStep (h : Sound s) (hfresh : s.threads s.sup.nextWorker=none)
    (hcontrol : s.plane.control=some (.start c))
    (hruns : ∀ w, (Runs s.sup w → Runs sup w) ∧ (Spawns fault call → Runs sup s.sup.nextWorker)) :
    Sound (s.startStep c fault call sup) := by
  obtain ⟨hlive,hpaused,hbridge⟩ := startStep_plane (s := s) c fault call sup
  have hfree : Unheld s := .inr ⟨c,hcontrol⟩
  by_cases hspawns : Spawns fault call
  · have hthreads : (s.startStep c fault call sup).threads=
        update s.threads s.sup.nextWorker (some (Thread.new (s.configs c))) :=
      spawn_of_spawns hspawns
    have hcases : ∀ w th, (s.startStep c fault call sup).threads w=some th →
        s.threads w=some th ∨ w=s.sup.nextWorker ∧ th=Thread.new (s.configs c) := by
      intro w th hth
      rw [hthreads] at hth
      rcases FiniteTables.update_eq_some hth with ⟨hw,heq⟩ | ⟨_,hold⟩
      · exact .inr ⟨hw,(some.inj heq).symm⟩
      · exact .inl hold
    refine h.frame rfl ?_ ?_ (.inr ⟨hfree,hlive⟩) hpaused (.inl hbridge) ?_
    · intro w th hth
      rw [hthreads]
      have hne : w≠s.sup.nextWorker := by
        rintro rfl
        cases hfresh.symm.trans hth
      exact (update_of_ne hne ..).trans hth
    · intro w th hth
      rcases hcases w th hth with hold | ⟨_,rfl⟩
      · exact .inl hold
      · exact .inr rfl
    · intro w th hth
      rcases hcases w th hth with hold | ⟨rfl,_⟩
      · exact (hruns w).1 (h.alive w th hold)
      · exact (hruns 0).2 hspawns
  · have hthreads : (s.startStep c fault call sup).threads=s.threads :=
      spawn_of_not_spawns hspawns
    refine h.frame rfl ?_ ?_ (.inr ⟨hfree,hlive⟩) hpaused (.inl hbridge) ?_
    · intro w th hth
      rwa [hthreads]
    · intro w th hth
      rw [hthreads] at hth
      exact .inl hth
    · intro w th hth
      rw [hthreads] at hth
      exact (hruns w).1 (h.alive w th hth)

/-- A start or a stop goes on. -/
theorem Sound.supStep (h : Sound s) (hfresh : s.threads s.sup.nextWorker=none) {lowers : Bool}
    (hstep : s.supStep c expired fault lowers=some (s',new)) : Sound s' := by
  unfold World.supStep at hstep
  split at hstep
  · cases hstep
  split at hstep
  · cases hstep
  rename_i sup events hadvance
  have hruns := runs_advance hadvance
  split at hstep
  · split_ifs at hstep with hcontrol
    cases hstep
    exact h.startStep hfresh hcontrol hruns
  · cases hstep
    refine h.frame rfl (fun _ _ hth => hth) (fun _ _ => .inl) (.inl ?_) (.inl ?_) ?_
      (fun w th hth => (hruns w).1 (h.alive w th hth))
    · split
      · exact ⟨rfl,rfl⟩
      · exact ⟨rfl,rfl⟩
    · split <;> rfl
    · split
      · exact .inr rfl
      · exact .inl rfl

/-- A thread that has nothing left to do ends. -/
theorem Sound.finish (h : Sound s) (hth : s.threads w=some th) (hdone : th.phase=.done)
    (hstep : {s with threads := update s.threads w none}.supOnly (.finish w)=
      some (s',new)) : Sound s' := by
  have hgone : Sound {s with threads := update s.threads w none} := by
    refine h.thread_step hth ⟨fun _ _ hother => ⟨hother,rfl⟩,nofun,.inr (.inr ⟨rfl,?_⟩),.inl rfl,
      .inr (.inr ⟨rfl,?_⟩)⟩
    · simp [hdone,lit]
    · simp [hdone,bare]
  refine hgone.supOnly (fun sup events hexec w' th' hw' => ?_) hstep
  rcases FiniteTables.update_eq_some hw' with ⟨_,hnone⟩ | ⟨hne,_⟩
  · cases hnone
  · exact runs_finish hexec hne (hgone.alive w' th' hw')

/-- A call begins; it has done nothing yet. -/
theorem Sound.callTun (h : Sound s) (hnone : s.calls c=none) {call : TunCall}
    (hcall : call=.pausing ∨ call=.resuming) :
    Sound {s with calls := update s.calls c (some call)} := by
  have hfits : CallFits s c .pausing s.plane (some call) := by
    refine ⟨rfl,fun _ _ hother => hother,?_,.inl rfl,?_,fun _ => .inl,
      fun hp hb => .inr ⟨hp,hb,rfl⟩⟩
    · rintro next ⟨⟩ hholds
      rcases hcall with rfl | rfl <;> cases hholds
    · rintro w l ⟨⟩
      rcases hcall with heq | heq <;> cases heq
  exact h.call_step (by simp [hnone]) hfits

/-- Every step of the whole keeps what holds. -/
theorem Sound.exec (h : Sound s) (hfresh : s.threads s.sup.nextWorker=none) {a : Action}
    (hexec : s.exec policy a=some (s',new)) : Sound s' := by
  cases a with
  | callStart c r config =>
    have hconfigs : Sound {s with configs := update s.configs c config} :=
      ⟨h.thread_holds,h.call_holds,h.lifting,h.live,h.target,h.paused,h.bridge,h.alive⟩
    exact hconfigs.supOnly (fun _ _ hcall w th hth => runs_call hcall (h.alive w th hth)) hexec
  | callStop c begins =>
    exact h.supOnly (fun _ _ hcall w th hth => runs_call hcall (h.alive w th hth)) hexec
  | exit w =>
    exact h.supOnly (fun _ _ hexit w th hth => runs_exit hexit (h.alive w th hth)) hexec
  | sup c expired fault lowers => exact h.supStep hfresh hexec
  | thread w input =>
    obtain ⟨th,th',effect,events,plane,hth,hadvance,happly,rfl,_⟩ := threadStep_eq hexec
    exact h.thread_step hth
      (apply_fits (h.thread_holds w th hth) (fits_move (advance_moves hadvance)) happly)
  | lockStart c =>
    simp only [World.exec] at hexec
    split at hexec
    · obtain ⟨plane,hacquire,heq⟩ := map_eq_some_iff.mp hexec
      cases heq
      obtain ⟨hfree,rfl⟩ := acquire_eq hacquire
      exact h.frame rfl (fun _ _ hth => hth) (fun _ _ => .inl)
        (.inr ⟨.inl hfree,.inl rfl⟩) (.inl rfl) (.inl rfl) h.alive
    · cases hexec
  | finish w =>
    simp only [World.exec] at hexec
    split at hexec
    · rename_i th hth
      split at hexec
      · rename_i hdone
        exact h.finish hth hdone hexec
      · cases hexec
    · cases hexec
  | callTun c resume =>
    simp only [World.exec] at hexec
    split at hexec
    · cases hexec
    · rename_i hnone
      cases hexec
      refine h.callTun hnone ?_
      cases resume with
      | true => exact .inr rfl
      | false => exact .inl rfl
  | tun c error =>
    simp only [World.exec,World.callStep] at hexec
    split at hexec
    · cases hexec
    · rename_i call hcall
      obtain ⟨⟨plane,call',events⟩,hadvance,heq⟩ := map_eq_some_iff.mp hexec
      cases heq
      refine h.call_step (fun _ hcall₀ => some.inj (hcall₀.symm.trans hcall))
        (callAdvance_fits (h.call_holds c call hcall) ?_ hadvance)
      rintro w l rfl
      exact h.target c w l hcall
  | elapse ms =>
    cases hexec
    exact h.frame rfl (fun _ _ hth => hth) (fun _ _ => .inl) (.inl ⟨rfl,rfl⟩) (.inl rfl)
      (.inl rfl) h.alive

end Others

theorem Sound.initial (config : SessionConfig) : Sound (World.initial config) where
  thread_holds := by rintro w th ⟨⟩
  call_holds := by rintro c call ⟨⟩
  lifting := by rintro w th ⟨⟩
  live := by rintro w l ⟨⟩
  target := by rintro c w l ⟨⟩
  paused := by rintro ⟨⟩
  bridge := by rintro w ⟨⟩
  alive := by rintro w th ⟨⟩

theorem sound_of_run {t : List Event} {s : World} (h : (machine policy).Run always t s) : Sound s := by
  have hboth : Loops policy always t s ∧ Sound s := by
    refine h.invariant (fun t s => Loops policy always t s ∧ Sound s) ?_ ?_
    · rintro _ ⟨config,rfl⟩
      exact ⟨Loops.initial config,Sound.initial config⟩
    · rintro t s a s' new ⟨hloops,hsound⟩ _ _ hexec
      exact ⟨hloops.step (fun _ _ _ _ _ => trivial) hexec,
        hsound.exec (hloops.fresh _ le_rfl).1 hexec⟩
  exact hboth.2

/-- In every run, a bridge that is marked as paused is down whenever the lock of the
data plane is free. A bridge that is up was started for a session whose thread is
there, so when the thread of a session has exited the bridge is down until it is
started for another. -/
theorem bridge_of_run {policy : RetryPolicy} {t : List Event} {s : World}
    (h : (machine policy).Run always t s) :
    (s.plane.control=none → s.plane.paused=true → s.plane.bridge=none) ∧
      (∀ w, s.plane.bridge=some w → s.sup.Alive w) ∧
      ((∀ w, ¬s.sup.Alive w) → s.plane.bridge=none) := by
  have hsound := sound_of_run h
  have halive : ∀ w, s.plane.bridge=some w → s.sup.Alive w := by
    intro w hbridge
    obtain ⟨th,hth,_⟩ := hsound.bridge w hbridge
    obtain ⟨cancelled,hruns⟩ := hsound.alive w th hth
    exact ⟨_,hruns,by simp⟩
  refine ⟨?_,halive,?_⟩
  · intro hfree hpaused
    by_contra hbridge
    obtain ⟨c,call,hcall,hlifts⟩ := hsound.paused hpaused hbridge
    have hholds : callHolds call=true := by
      cases call <;> first
        | rfl
        | cases hlifts
    cases (hsound.call_holds c call hcall hholds).symm.trans hfree
  · intro hnone
    by_contra hbridge
    obtain ⟨w,hw⟩ := Option.ne_none_iff_exists'.mp hbridge
    exact hnone w (halive w hw)

/-- A session is up and paused. A call to resume it has found it alive when the
session is stopped and its thread stops the bridge; then the call starts it. -/
def racingActions : List Action :=
  upToBridge++([.thread 0 (.bridgeResult none),.thread 0 .proceed,.callTun 0 false,.tun 0 none,
    .tun 0 none,.tun 0 none,.tun 0 none,.tun 0 none,.tun 0 none,.callTun 1 true,.tun 1 none,
    .tun 1 none,.tun 1 none,.tun 1 none,.tun 1 none,.callStop 1 false,.sup 1 false none false,
    .sup 1 false none false,.sup 1 false none false,.sup 1 false none false,
    .sup 1 false none false,.thread 0 .cancelSeen,.thread 0 .proceed,.thread 0 .proceed,
    .thread 0 .proceed,.tun 1 none,.tun 1 none,.tun 1 none,.thread 0 .proceed,.thread 0 .proceed,
    .thread 0 .proceed,.finish 0,.exit 0] : List Action)

/-- The bridge that was started last is not left up when the thread has exited. -/
theorem racing_resume : ∃ t s, (machine ⟨true,0⟩).Run always t s ∧ .bridgeStarted 1 0∈t ∧
    s.sup.workers 0=some .exited ∧ s.plane.bridge≠some 0 := by
  obtain ⟨t,s,hrun,hstarted,hexited⟩ := exists_session_run ⟨true,0⟩ tunConfig (fun _ _ => true)
    racingActions (fun t s => .bridgeStarted 1 0∈t ∧ s.sup.workers 0=some .exited)
    (by decide +kernel)
  refine ⟨t,s,hrun.unrestricted,hstarted,hexited,fun hbridge => ?_⟩
  obtain ⟨x,hx,halive⟩ := (bridge_of_run hrun.unrestricted).2.1 0 hbridge
  exact halive (Option.some.inj (hx.symm.trans hexited))

/-- In every run a resume that is about to start the bridge has the lock, and the session it
starts it for is still published and its worker runs. -/
theorem resumeStart_of_run {policy : RetryPolicy} {t : List Event} {s : World}
    (h : (machine policy).Run always t s) (c w l) (hcall : s.calls c=some (.resumeStart w l)) :
    s.plane.control=some (.call c) ∧ (∃ l', s.plane.live=some (w,l')) ∧ s.sup.Alive w := by
  have hsound := sound_of_run h
  obtain ⟨l',hlive⟩ := hsound.target c w l hcall
  obtain ⟨th,hth,-⟩ := hsound.live w l' hlive
  obtain ⟨cancelled,hruns⟩ := hsound.alive w th hth
  exact ⟨hsound.call_holds c _ hcall rfl,⟨l',hlive⟩,_,hruns,by simp⟩

theorem resumeStart_racing : ∃ t s w l, (machine ⟨true,0⟩).Run always t s ∧
    s.calls 1=some (.resumeStart w l) ∧ s.sup.Alive w := by
  obtain ⟨t,s,hrun,hcall⟩ := exists_session_run ⟨true,0⟩ tunConfig (fun _ _ => true)
    -- the constructor 11 is `resumeStart`
    (racingActions.take 25) (fun _ s => (s.calls 1).any (·.ctorIdx==11)=true) (by decide +kernel)
  obtain ⟨call,hcall,hstart⟩ := (any_eq_true _ _).1 hcall
  cases call with
  | resumeStart w l =>
    exact ⟨t,s,w,l,hrun.unrestricted,hcall,(resumeStart_of_run hrun.unrestricted 1 w l hcall).2.2⟩
  | _ => cases hstart

end MsnGuard.TunControl
