import MsnGuard.FoxyTunnels

/-!
# Who holds the upstream sessions

Until a session has been stored it is held by nobody except the call that dials it. A dial that
fails, is cancelled or runs out of time leaves the session that it was connecting as it is, and
what is stored over another session or behind a stop is lost as well.
-/

namespace MsnGuard.FoxySessions

open FiniteTables FoxyTunnels TransitionRuns Option Bool

section Conditions

/-- Nothing is open behind a stop. -/
def Closed : Event → Prop
  | .stopped left => left=[]

/-- No operation is under way; the watchdog may wait for its next round. -/
def Quiescent (n : Tunnel) : Prop := ∀ t task, n.tasks.lookup t=some task → task=.watching

/-- Every session is the stored one or closed. -/
def Settled (n : Tunnel) : Prop := ∀ s, n.isOpen s=true → n.session=some s

/-- What a step of a task must not do: end a connect without success, construct a session while
another is on its way or during a stop, or for a start while an open one is stored, and end a start
with a stop while a session is on its way. -/
def orderlyStep (n : Tunnel) (o : Outcome) : Task → Bool
  | .dialing _ (.connecting _ _) =>
    match o with
    | .done => true
    | _ => false
  | .dialing c (.constructing _) =>
    !n.holding && !n.inStop && (decide (c≠.start) || !n.currentOpen)
  | .dialing .start .entering => n.dialCandidates.isSome || !n.holding
  | .dialing .start (.walking 0) => !n.holding
  | .dialing .start (.walking (_+1)) =>
    match o with
    | .abort => !n.holding
    | _ => true
  | .starting .serving =>
    match o with
    | .fail => !n.holding
    | _ => true
  | _ => true

/-- What an action must not do; a stop must not begin while a session is on its way. -/
def orderly (n : Tunnel) : Action → Bool
  | .stop _ => !n.holding
  | .step t o => (n.tasks.lookup t).all (orderlyStep n o)
  | _ => true

/-- What the runs keep: sessions are numbered as they are constructed, an open one is stored or on
its way and never both, one at most is on its way, none during a stop, and nothing open is stored
where a task relies on it. -/
structure Owned (n : Tunnel) : Prop where
  stored : ∀ s, n.session=some s → s<n.sessions.length
  known : ∀ t s, n.hands t=some s → s<n.sessions.length
  owned : ∀ s, n.isOpen s=true → n.session=some s ∨ ∃ t, n.hands t=some s
  apart : ∀ t s, n.hands t=some s → n.session≠some s
  alone : ∀ t s t' s', n.hands t=some s → n.hands t'=some s' → t'=t
  calm : ∀ t s t' task, n.hands t=some s → n.tasks.lookup t'=some task → task.isStop=false
  spent : ∀ t task, n.tasks.lookup t=some task → task.relies=true → n.Spent

end Conditions

section Ownership

variable {n n' : Tunnel} {t : ℕ} {task : Task}
variable {c : Caller} {left s : ℕ}

/-- With nothing on its way the open session is the stored one, and no stop relies on its end. -/
theorem owned_of_free (hfree : n.Free) (hstored : ∀ s, n.session=some s → s<n.sessions.length)
    (howned : ∀ s, n.isOpen s=true → n.session=some s)
    (hspent : ∀ t task, n.tasks.lookup t=some task → task.relies=true → n.Spent) : Owned n := by
  have hnone : ∀ {t s}, n.hands t=some s → False := by
    intro t s hs
    rw [hfree t] at hs
    cases hs
  exact {
    stored := hstored
    known := fun _ _ hs => (hnone hs).elim
    owned := fun s hs => .inl (howned s hs)
    apart := fun _ _ hs => (hnone hs).elim
    alone := fun _ _ _ _ hs => (hnone hs).elim
    calm := fun _ _ _ _ hs => (hnone hs).elim
    spent := hspent }

section

variable (h : Owned n)

include h

/-- During a stop no session is on its way. -/
theorem Owned.free_of_stop (hlook : n.tasks.lookup t=some task)
    (hstop : task.isStop=true) : n.Free := by
  intro t'
  cases hheld : n.hands t' with
  | none => rfl
  | some s =>
    have hcalm := h.calm t' s t task hheld hlook
    rw [hstop] at hcalm
    cases hcalm

/-- With nothing on its way no session is open but the stored one. -/
theorem Owned.stored_of_free (hfree : n.Free) (hs : n.isOpen s=true) : n.session=some s := by
  rcases h.owned s hs with hstored | ⟨t,hheld⟩
  · exact hstored
  · rw [hfree t] at hheld
    cases hheld

/-- The sessions change and none is open that was not, apart from one on its way. -/
theorem Owned.sessions {changed : List Session} (hlength : changed.length=n.sessions.length)
    (hopen : ∀ s, ({n with sessions := changed} : Tunnel).isOpen s=true →
      n.isOpen s=true ∨ ∃ t, n.hands t=some s) : Owned {n with sessions := changed} where
  stored s hs := hlength ▸ h.stored s hs
  known t s hs := hlength ▸ h.known t s hs
  owned s hs := (hopen s hs).elim (h.owned s) .inr
  apart := h.apart
  alone := h.alone
  calm := h.calm
  spent t task hlook hrelies s hs := by
    rw [eq_false_iff]
    intro hnow
    rcases hopen s hnow with hold | ⟨t',hheld⟩
    · rw [h.spent t task hlook hrelies s hs] at hold
      cases hold
    · exact h.apart t' s hheld hs

/-- Other fields of the tunnel do not matter. -/
theorem Owned.fields {socks appContext redialing : Bool} {dialCandidates watchdog : Option ℕ}
    {cancelled : List ℕ} : Owned ⟨socks,n.session,dialCandidates,appContext,watchdog,redialing,
      n.sessions,n.tasks,cancelled⟩ :=
  ⟨h.stored,h.known,h.owned,h.apart,h.alone,h.calm,h.spent⟩

/-- A session that is open, on its way or closed gets another state. -/
theorem Owned.mark {state : Session}
    (hs : state≠.closed → n.isOpen s=true ∨ ∃ t, n.hands t=some s) : Owned (n.mark s state) := by
  refine h.sessions (List.length_set ..) ?_
  intro s' hs'
  by_cases heq : s'=s
  · subst heq
    refine hs ?_
    rintro rfl
    exact absurd hs' (eq_false_iff.mp (isOpen_mark_closed s'))
  · exact .inl (isOpen_mark_ne state heq ▸ hs')

theorem Owned.mark_closed (s : ℕ) : Owned (n.mark s .closed) :=
  h.mark (fun hne => absurd rfl hne)

theorem Owned.closeCurrent : Owned n.closeCurrent := by
  unfold Tunnel.closeCurrent
  split
  · exact h
  · exact h.mark_closed _

/-- A task goes on: it takes nothing new in its hands, and what it lets go is closed. -/
theorem Owned.put (htake : ∀ s, task.held=some s → n.hands t=some s)
    (hdrop : ∀ s, n.hands t=some s → task.held=some s ∨ n.isOpen s=false)
    (hstop : task.isStop=true → n.Free) (hrelies : task.relies=true → n.Spent) :
    Owned (n.put t task) := by
  -- what a task holds it held before
  have hold : ∀ {t' s}, (n.put t task).hands t'=some s → n.hands t'=some s := by
    intro t' s hs
    rw [hands_put] at hs
    split at hs
    · rename_i heq
      rw [heq]
      exact htake s hs
    · exact hs
  refine ⟨h.stored,fun t' s hs => h.known t' s (hold hs),?_,fun t' s hs => h.apart t' s (hold hs),
    fun _ _ _ _ hs hs' => h.alone _ _ _ _ (hold hs) (hold hs'),?_,?_⟩
  · intro s hs
    rcases h.owned s hs with hstored | ⟨t',hheld⟩
    · exact .inl hstored
    · refine .inr ⟨t',?_⟩
      rw [hands_put]
      split
      · rename_i heq
        rw [heq] at hheld
        rcases hdrop s hheld with hkept | hclosed
        · exact hkept
        · exact absurd hs (eq_false_iff.mp hclosed)
      · exact hheld
  · intro t₁ s t₂ task₂ hs hput
    rcases lookup_of_insert hput with ⟨-,rfl⟩ | ⟨-,hsame⟩
    · rw [eq_false_iff]
      intro hstopping
      have hnone := hstop hstopping t₁
      rw [hold hs] at hnone
      cases hnone
    · exact h.calm t₁ s t₂ task₂ (hold hs) hsame
  · intro t' task' hput hrel
    rcases lookup_of_insert hput with ⟨-,rfl⟩ | ⟨-,hsame⟩
    · exact hrelies hrel
    · exact h.spent t' task' hsame hrel

/-- A task goes on with what it has in its hands, and not to a stop. -/
theorem Owned.carry (hheld : n.hands t=task.held) (hstop : task.isStop=false)
    (hrelies : task.relies=true → n.Spent) : Owned (n.put t task) := by
  refine h.put (fun s => hheld.trans) (fun s hs => .inl (hheld.symm.trans hs)) ?_ hrelies
  intro hs
  rw [hstop] at hs
  cases hs

/-- A task with nothing in its hands goes on to something that is no stop. -/
theorem Owned.quiet (hbefore : n.hands t=none) (hheld : task.held=none)
    (hstop : task.isStop=false) : Owned (n.put t task) := by
  refine h.carry (hbefore.trans hheld.symm) hstop ?_
  intro hrelies
  rcases held_or_isStop_of_relies hrelies with ⟨s,hs⟩ | hs
  · rw [hheld] at hs
    cases hs
  · rw [hstop] at hs
    cases hs

/-- A stop goes on, or begins while no session is on its way. -/
theorem Owned.stop (hfree : n.Free) (p : StopPhase)
    (hrelies : (Task.stopping p).relies=true → n.Spent) : Owned (n.put t (.stopping p)) := by
  refine h.put nofun ?_ (fun _ => hfree) hrelies
  intro s hs
  rw [hfree t] at hs
  cases hs

/-- A task with nothing in its hands is over. -/
theorem Owned.finish (hbefore : n.hands t=none) : Owned (n.finish t) := by
  have hhands : ∀ {t'}, (n.finish t).hands t'=n.hands t' := by
    intro t'
    rw [hands_finish]
    split
    · rename_i heq
      rw [heq,hbefore]
    · rfl
  refine ⟨h.stored,fun t' s hs => h.known t' s (hhands ▸ hs),?_,
    fun t' s hs => h.apart t' s (hhands ▸ hs),
    fun _ _ _ _ hs hs' => h.alone _ _ _ _ (hhands ▸ hs) (hhands ▸ hs'),
    fun _ _ _ _ hs hlook => h.calm _ _ _ _ (hhands ▸ hs) (lookup_of_erase hlook),
    fun t' task' hlook => h.spent t' task' (lookup_of_erase hlook)⟩
  intro s hs
  exact (h.owned s hs).imp_right fun ⟨t',hheld⟩ => ⟨t',hhands.trans hheld⟩

/-- A session is constructed while none is on its way and nothing is stopped. -/
theorem Owned.construct (hfree : n.Free) (hstop : n.inStop=false) (hspent : c=.start → n.Spent) :
    Owned (n.construct.put t (.dialing c (.connecting n.sessions.length left))) := by
  -- the task with the new session is the only one with a session in its hands
  have hholder : ∀ {t' s}, (n.construct.put t
      (.dialing c (.connecting n.sessions.length left))).hands t'=some s →
      t'=t ∧ s=n.sessions.length := by
    intro t' s hs
    rw [hands_put] at hs
    split at hs
    · rename_i heq
      exact ⟨heq,(some.inj hs).symm⟩
    · have hnone : n.construct.hands t'=none := hfree t'
      rw [hnone] at hs
      cases hs
  have hcurrent : n.Spent → n.construct.Spent := by
    intro hold s hs
    rw [eq_false_iff]
    intro hnew
    rcases isOpen_of_construct hnew with rfl | hopen
    · exact absurd (h.stored _ hs) (lt_irrefl _)
    · exact absurd hopen (eq_false_iff.mp (hold s hs))
  have hlength : n.construct.sessions.length=n.sessions.length+1 := List.length_append
  refine ⟨?_,?_,?_,?_,?_,?_,?_⟩
  · intro s hs
    have hlt := h.stored s hs
    simp only [Tunnel.put]
    omega
  · intro t' s hs
    obtain ⟨-,rfl⟩ := hholder hs
    simp only [Tunnel.put]
    omega
  · intro s hs
    rcases isOpen_of_construct hs with rfl | hold
    · exact .inr ⟨t,by rw [hands_put,if_pos rfl]; rfl⟩
    · exact .inl (h.stored_of_free hfree hold)
  · intro t' s hs hstored
    obtain ⟨-,rfl⟩ := hholder hs
    exact absurd (h.stored _ hstored) (lt_irrefl _)
  · intro t₁ s₁ t₂ s₂ hs₁ hs₂
    exact (hholder hs₂).1.trans (hholder hs₁).1.symm
  · intro t₁ s t₂ task₂ hs hput
    rcases lookup_of_insert hput with ⟨-,rfl⟩ | ⟨-,hold⟩
    · rfl
    · exact not_isStop_of_inStop hstop hold
  · intro t' task' hput hrelies
    rcases lookup_of_insert hput with ⟨-,rfl⟩ | ⟨-,hold⟩
    · refine hcurrent (hspent ?_)
      cases c with
      | start => rfl
      | redial r => cases hrelies
    · exact hcurrent (h.spent t' task' hold hrelies)

/-- The session on its way is connected. -/
theorem Owned.connect (hlook : n.tasks.lookup t=some (.dialing c (.connecting s left))) :
    Owned ((n.mark s .live).put t (.dialing c (.connected s))) := by
  have hheld : n.hands t=some s := by rw [Tunnel.hands,hlook]; rfl
  have hmarked : Owned (n.mark s .live) := h.mark (fun _ => .inr ⟨t,hheld⟩)
  refine hmarked.carry hheld rfl ?_
  intro hrelies
  refine hmarked.spent t (.dialing c (.connecting s left)) hlook ?_
  cases c with
  | start => rfl
  | redial r => cases hrelies

/-- The session on its way is closed instead of being stored. -/
theorem Owned.discard {r : Redialer} (hheld : n.hands t=some s) :
    Owned ((n.mark s .closed).put t (.redialing r .leaving)) := by
  refine (h.mark_closed s).put nofun ?_ nofun nofun
  intro s' hs'
  cases hheld.symm.trans hs'
  exact .inr (isOpen_mark_closed s)

/-- The session that is on its way is stored where nothing open is. -/
theorem Owned.store (hheld : n.hands t=some s) (hspent : n.Spent) (hnone : task.held=none)
    (hbusy : task.isStop=false) : Owned ({n with session := some s}.put t task) := by
  -- nobody else had a session in its hands
  have hfree : ({n with session := some s}.put t task).Free := by
    intro u
    rw [hands_put]
    split
    · exact hnone
    · rename_i hne
      cases hother : n.hands u with
      | none => exact hother
      | some s' => exact absurd (h.alone t s u s' hheld hother) hne
  refine owned_of_free hfree ?_ ?_ ?_
  · intro s' hs'
    cases hs'
    exact h.known t s hheld
  · intro s' hs'
    rcases h.owned s' hs' with hstored | ⟨u,hheld'⟩
    · exact absurd hs' (eq_false_iff.mp (hspent s' hstored))
    · obtain rfl := h.alone t s u s' hheld hheld'
      exact hheld.symm.trans hheld'
  · intro u next hnext hrelies
    rcases held_or_isStop_of_relies hrelies with ⟨s',hs'⟩ | hstop
    · have hnone' := hfree u
      rw [Tunnel.hands,hnext] at hnone'
      cases hnone'.symm.trans hs'
    · rcases lookup_of_insert hnext with ⟨-,rfl⟩ | ⟨-,hold⟩
      · rw [hbusy] at hstop
        cases hstop
      · have hcalm := h.calm t s u next hheld hold
        rw [hstop] at hcalm
        cases hcalm

/-- At the end of a stop the stored session is taken away. -/
theorem Owned.clear (hfree : n.Free) (hspent : n.Spent) :
    Owned ({n with session := none}.finish t) ∧
      ({n with session := none}.finish t : Tunnel).openSessions=[] := by
  have hclosed : ∀ s, n.isOpen s=false := by
    intro s
    rw [eq_false_iff]
    intro hs
    exact absurd hs (eq_false_iff.mp (hspent s (h.stored_of_free hfree hs)))
  have hcleared : Owned {n with session := none} :=
    owned_of_free hfree nofun (fun s hs => absurd hs (eq_false_iff.mp (hclosed s))) nofun
  refine ⟨hcleared.finish (hfree t),?_⟩
  unfold Tunnel.openSessions
  rw [List.filter_eq_nil_iff]
  exact fun s _ => eq_false_iff.mp (hclosed s)

end

end Ownership

section Runs

variable {n n' : Tunnel} {t : ℕ}
variable {c : Caller} {o : Outcome} {new : List Event}

section

variable (h : Owned n)

include h

/-- What follows an exception out of a dial without a session in its hands. -/
theorem Owned.failed (hbefore : n.hands t=none)
    (hfree : c=.start → n.Free) : Owned (n.put t c.failed) := by
  cases c with
  | start => exact h.stop (hfree rfl) .cancelling nofun
  | redial r => exact h.quiet hbefore rfl rfl

theorem Owned.roundOver (r : Redialer)
    (hbefore : n.hands t=none) : Owned (n.roundOver t r) := by
  unfold Tunnel.roundOver
  split
  · exact h.quiet hbefore rfl rfl
  · exact h.finish hbefore

theorem Owned.startStep {p : StartPhase} (hlook : n.tasks.lookup t=some (.starting p))
    (hcond : orderlyStep n o (.starting p)=true) (he : startStep n t p o=some n') : Owned n' := by
  have hbefore : n.hands t=none := by rw [Tunnel.hands,hlook]; rfl
  unfold FoxyTunnels.startStep at he
  split at he
  case h_1 =>
    cases he
    exact h.fields.quiet hbefore rfl rfl
  case h_2 =>
    split_ifs at he
    cases he
    exact h.quiet hbefore rfl rfl
  case h_3 =>
    cases he
    exact h.finish hbefore
  case h_4 =>
    split_ifs at he
    cases he
    exact h.finish hbefore
  case h_5 count =>
    split at he
    · cases he
    · split at he
      · cases he
        exact h.finish hbefore
      · cases he
        exact h.fields.quiet hbefore rfl rfl
  case h_6 =>
    cases he
    exact h.finish hbefore
  case h_7 =>
    split_ifs at he
    cases he
    exact h.finish hbefore
  case h_8 =>
    cases he
    exact h.fields.quiet hbefore rfl rfl
  case h_9 =>
    cases he
    have hfree : n.Free := free_of_holding (by simpa [orderlyStep] using hcond)
    exact h.failed (c := .start) hbefore fun _ => hfree
  case h_10 w =>
    split_ifs at he with hw
    cases he
    refine Owned.quiet (h.fields.finish hbefore) ?_ rfl rfl
    -- the new watchdog is another task
    have hnone : n.hands w=none := hands_of_isFree hw
    rw [hands_finish]
    split
    · rfl
    · exact hnone
  case h_11 => cases he

theorem Owned.dialStep {d : Dial} (hlook : n.tasks.lookup t=some (.dialing c d))
    (hcond : orderlyStep n o (.dialing c d)=true) (he : dialStep n t c d o=some n') : Owned n' := by
  have hbefore : n.hands t=(Task.dialing c d).held := by rw [Tunnel.hands,hlook]; rfl
  unfold FoxyTunnels.dialStep at he
  split at he
  case h_1 =>
    split at he
    · rename_i hnone
      cases he
      refine h.failed hbefore ?_
      rintro rfl
      exact free_of_holding (by simpa [orderlyStep,hnone] using hcond)
    · cases he
      exact h.quiet hbefore rfl rfl
  case h_2 =>
    cases he
    refine h.failed hbefore ?_
    rintro rfl
    exact free_of_holding (by simpa [orderlyStep] using hcond)
  case h_3 =>
    split_ifs at he
    cases he
    exact h.quiet hbefore rfl rfl
  case h_4 =>
    split_ifs at he
    cases he
    exact h.quiet hbefore rfl rfl
  case h_5 =>
    split_ifs at he
    cases he
    refine h.failed hbefore ?_
    rintro rfl
    exact free_of_holding (by simpa [orderlyStep] using hcond)
  case h_6 =>
    split_ifs at he with hstart
    cases he
    exact h.failed hbefore (fun heq => absurd heq hstart)
  case h_7 left =>
    cases he
    simp only [orderlyStep,and_eq_true,not_eq_true',or_eq_true,
      decide_eq_true_eq] at hcond
    obtain ⟨⟨hholding,hstop⟩,hcaller⟩ := hcond
    refine h.construct (free_of_holding hholding) hstop ?_
    intro hstart
    rcases hcaller with hne | hclosed
    · exact absurd hstart hne
    · exact spent_of_currentOpen hclosed
  case h_8 s left =>
    split_ifs at he
    cases he
    exact h.connect hlook
  case h_9 => simp [orderlyStep] at hcond
  case h_10 => simp [orderlyStep] at hcond
  case h_11 => simp [orderlyStep] at hcond
  case h_12 s =>
    split at he
    · cases he
      exact h.store hbefore (h.spent t _ hlook rfl) rfl rfl
    · split at he
      · cases he
        exact h.carry hbefore rfl (by rintro ⟨⟩)
      · cases he
        exact h.discard hbefore
  case h_13 => cases he

theorem Owned.redialStep {r : Redialer} {p : RedialPhase} (hlook : n.tasks.lookup t=some (.redialing r p)) (he : redialStep n t r p o=some n') :
    Owned n' := by
  have hbefore : n.hands t=(Task.redialing r p).held := by rw [Tunnel.hands,hlook]; rfl
  unfold FoxyTunnels.redialStep at he
  split at he
  case h_1 =>
    split at he
    · cases he
      exact h.roundOver r hbefore
    · cases he
      exact h.fields.quiet hbefore rfl rfl
  case h_2 =>
    split_ifs at he
    cases he
    exact h.finish hbefore
  case h_3 =>
    cases he
    split <;> exact h.quiet hbefore rfl rfl
  case h_4 =>
    cases he
    split <;> exact h.quiet hbefore rfl rfl
  case h_5 =>
    split_ifs at he
    cases he
    exact h.quiet hbefore rfl rfl
  case h_6 =>
    cases he
    exact h.quiet hbefore rfl rfl
  case h_7 =>
    split_ifs at he
    cases he
    exact h.quiet hbefore rfl rfl
  case h_8 s =>
    cases he
    have hclosing : n.closeCurrent.hands t=some s := (hands_closeCurrent t).trans hbefore
    exact h.closeCurrent.carry hclosing rfl (fun _ => spent_closeCurrent)
  case h_9 s =>
    cases he
    exact h.store hbefore (h.spent t _ hlook rfl) rfl rfl
  case h_10 =>
    cases he
    exact h.fields.roundOver r hbefore
  case h_11 => cases he

theorem Owned.watchStep (hlook : n.tasks.lookup t=some .watching)
    (he : watchStep n t o=some n') : Owned n' := by
  have hbefore : n.hands t=none := by rw [Tunnel.hands,hlook]; rfl
  unfold FoxyTunnels.watchStep at he
  split at he
  case h_1 =>
    split at he
    · cases he
    · split at he
      · cases he
        exact h.finish hbefore
      · split at he
        · cases he
          exact h
        · cases he
          exact h.quiet hbefore rfl rfl
  case h_2 =>
    split_ifs at he
    cases he
    exact h.finish hbefore
  case h_3 => cases he

theorem Owned.stopStep {p : StopPhase} (hlook : n.tasks.lookup t=some (.stopping p)) (he : stopStep n t p o=some (n',new)) :
    Owned n' ∧ ∀ e∈new, Closed e := by
  have hfree : n.Free := h.free_of_stop hlook rfl
  unfold FoxyTunnels.stopStep at he
  split at he
  case h_1 =>
    cases he
    refine ⟨h.fields.stop ?_ .clearing nofun,by simp⟩
    exact hfree
  case h_2 =>
    cases he
    refine ⟨h.fields.stop ?_ .unserving nofun,by simp⟩
    exact hfree
  case h_3 =>
    cases he
    refine ⟨h.fields.stop ?_ .closing nofun,by simp⟩
    exact hfree
  case h_4 =>
    cases he
    have hfree' : n.closeCurrent.Free := fun t' => (hands_closeCurrent t').trans (hfree t')
    exact ⟨h.closeCurrent.stop hfree' .nulling (fun _ => spent_closeCurrent),by simp⟩
  case h_5 =>
    cases he
    obtain ⟨hcleared,hclosed⟩ := h.clear hfree (h.spent t _ hlook rfl)
    refine ⟨hcleared,?_⟩
    intro e hmem
    rw [List.mem_singleton.mp hmem]
    exact hclosed
  case h_6 => cases he

/-- One step of a task. -/
theorem Owned.taskStep {task : Task} (hlook : n.tasks.lookup t=some task)
    (hcond : orderlyStep n o task=true) (he : taskStep n t o task=some (n',new)) :
    Owned n' ∧ ∀ e∈new, Closed e := by
  cases task with
  | starting p =>
    obtain ⟨next,hnext,heq⟩ := map_eq_some_iff.mp he
    cases heq
    exact ⟨h.startStep hlook hcond hnext,by simp⟩
  | dialing c d =>
    obtain ⟨next,hnext,heq⟩ := map_eq_some_iff.mp he
    cases heq
    exact ⟨h.dialStep hlook hcond hnext,by simp⟩
  | redialing r p =>
    obtain ⟨next,hnext,heq⟩ := map_eq_some_iff.mp he
    cases heq
    exact ⟨h.redialStep hlook hnext,by simp⟩
  | watching =>
    obtain ⟨next,hnext,heq⟩ := map_eq_some_iff.mp he
    cases heq
    exact ⟨h.watchStep hlook hnext,by simp⟩
  | reporting =>
    have hbefore : n.hands t=none := by rw [Tunnel.hands,hlook]; rfl
    simp only [FoxyTunnels.taskStep] at he
    split at he
    · cases he
      exact ⟨h.quiet hbefore rfl rfl,by simp⟩
    · cases he
  | stopping p => exact h.stopStep hlook he

/-- One orderly step keeps every open session stored or on its way, and nothing is open behind a
stop. -/
theorem Owned.step {a : Action} {new : List Event} (hcond : orderly n a=true)
    (he : exec n a=some (n',new)) : Owned n' ∧ ∀ e∈new, Closed e := by
  cases a with
  | start t =>
    simp only [exec] at he
    split at he
    · cases he
    · rename_i hfree
      split at he
      · cases he
        exact ⟨h,by simp⟩
      · cases he
        exact ⟨h.quiet (hands_of_isFree (by simpa using hfree)) rfl rfl,by simp⟩
  | stop t =>
    simp only [exec] at he
    split_ifs at he
    cases he
    have hfree : n.Free := free_of_holding (by simpa [orderly] using hcond)
    exact ⟨h.stop hfree .cancelling nofun,by simp⟩
  | unhealthy t =>
    simp only [exec] at he
    split at he
    · cases he
    · rename_i hfree
      split at he
      · cases he
        exact ⟨h.quiet (hands_of_isFree (by simpa using hfree)) rfl rfl,by simp⟩
      · cases he
        exact ⟨h,by simp⟩
  | step t o =>
    obtain ⟨task,hlook,hstep⟩ := bind_eq_some_iff.mp he
    have hcond' : orderlyStep n o task=true := by simpa [orderly,hlook] using hcond
    exact h.taskStep hlook hcond' hstep
  | interrupt t =>
    simp only [exec] at he
    split at he <;> cases he
    · exact ⟨h.fields,by simp⟩
    · exact ⟨h.fields,by simp⟩
  | lose s =>
    simp only [exec] at he
    split_ifs at he with hlive
    cases he
    exact ⟨h.mark (fun _ => .inl (by simp [Tunnel.isOpen,hlive])),by simp⟩
  | expire s =>
    simp only [exec] at he
    split_ifs at he
    cases he
    exact ⟨h.mark_closed s,by simp⟩

/-- Without an operation under way nothing is on its way. -/
theorem Owned.settled (hquiescent : Quiescent n) : Settled n := by
  refine fun s hs => h.stored_of_free (fun t => ?_) hs
  rw [Tunnel.hands,bind_eq_none_iff]
  intro task hlook
  rw [hquiescent t task hlook]
  rfl

end

/-- A task goes on by a number of steps that come out as they should. -/
def onward (t count : ℕ) : List Action := List.replicate count (.step t .done)

/-- A start up to its dial with a number of candidates. -/
def dialFrom (t count : ℕ) : List Action :=
  [.start t]++onward t 2++[.step t (.candidates count)]

/-- A stop from its beginning to its end. -/
def stopWith (t : ℕ) : List Action := [.stop t]++onward t 5

theorem quiescent_of_no_tasks (h : n.tasks.entries.isEmpty=true) : Quiescent n := by
  have hempty : n.tasks=∅ := AList.ext (List.isEmpty_iff.mp h)
  intro t task hlook
  rw [hempty] at hlook
  cases hlook

end Runs

end MsnGuard.FoxySessions
