import MsnGuard.FiniteTables
import MsnGuard.TransitionRuns
import MsnGuard.UdpgwFrames

/-!
# Associations of the datagram gateway

The thread that reads frames opens an association for the number of a flow and stores it. A
thread of the association's own takes replies, and at its end removes whatever is stored under
its number, which the device may have used again by then.
-/

namespace MsnGuard.WarpAssociations

open RustText FiniteTables TransitionRuns UdpgwFrames Option Function

/-- How long an association may be idle, in milliseconds. -/
def associationIdle : ℕ := 60000

/-- As many associations may be stored. -/
def maxAssociations : ℕ := 192

/-- Where the thread of an association stands. -/
inductive Relay where
  | receiving
  /-- It has closed its socket and is about to remove its number. -/
  | ending
  | ended
  deriving DecidableEq

/-- An association. -/
structure Association where
  conid : ℕ
  lastUsed : ℕ
  /-- Is its socket open? -/
  isOpen : Bool
  relay : Relay

/-- Where the reader of a stream stands. -/
inductive Phase where
  | reading
  /-- There is a datagram to send. -/
  | looking (conid : ℕ)
  /-- There is no association for it. -/
  | absent (conid : ℕ)
  | opening (conid : ℕ)
  | storing (conid a : ℕ)
  | sending (conid a : ℕ)
  deriving DecidableEq

/-- The gateway. -/
structure Gateway where
  now : ℕ
  running : Bool
  /-- Which association is stored under a number. -/
  associations : Table ℕ
  /-- All associations that have been opened. -/
  opened : Table Association
  next : ℕ
  readers : Table Phase
  nextReader : ℕ
  /-- How often the table is to be emptied, after its associations have been closed. -/
  clearing : ℕ
  /-- The numbers of idle associations that have been closed and are to be removed. -/
  reaping : List ℕ

/-- What can be seen of the gateway. -/
inductive Event where
  /-- The thread of an association removes what is stored under its number. -/
  | ended (a : ℕ) (removed : Option ℕ)
  deriving DecidableEq

/-- What the reader of a stream may do. -/
inductive ReaderInput where
  | frame (body : Bytes)
  | look
  | evict
  /-- The far side may agree to an association. -/
  | opened (agreed : Bool)
  | store
  | send (sent : Bool)
  /-- The stream is over. -/
  | down

/-- What the thread of an association may do. -/
inductive RelayInput where
  | ends
  | removes

/-- What may happen next. -/
inductive Action where
  | advance (milliseconds : ℕ)
  | start
  | stop
  | clear
  | streamUp
  | reader (r : ℕ) (input : ReaderInput)
  /-- An association is looked at, and closed if it was idle. -/
  | reap (conid : ℕ)
  /-- Its number is removed after that. -/
  | remove (conid : ℕ)
  | relay (a : ℕ) (input : RelayInput)

namespace Gateway

/-- The gateway before it is started. -/
def new : Gateway := ⟨0,false,∅,∅,0,∅,0,0,[]⟩

/-- Change an association. -/
def modify (g : Gateway) (a : ℕ) (change : Association → Association) : Gateway :=
  match g.opened.lookup a with
  | some x => {g with opened := g.opened.insert a (change x)}
  | none => g

/-- Close the socket of an association. -/
def close (g : Gateway) (a : ℕ) : Gateway := g.modify a fun x => {x with isOpen := false}

/-- Remove a number, and close what is stored under it. -/
def removeAndClose (g : Gateway) (conid : ℕ) : Gateway :=
  match g.associations.lookup conid with
  | some a => {g with associations := g.associations.erase conid}.close a
  | none => g

/-- Close all that is stored, before the table is emptied. -/
def closeAll (g : Gateway) : Gateway :=
  {g.associations.entries.foldl (fun g e => g.close e.2) g with clearing := g.clearing+1}

/-- The reader of a stream goes on. -/
def goOn (g : Gateway) (r : ℕ) (phase : Phase) : Gateway :=
  {g with readers := g.readers.insert r phase}

/-- When an association was used last. -/
def lastUsed (g : Gateway) (a : ℕ) : ℕ := ((g.opened.lookup a).map (·.lastUsed)).getD 0

/-- The number whose association was used least recently. -/
def victim (g : Gateway) : Option ℕ :=
  (g.associations.entries.argmin fun e => g.lastUsed e.2).map (·.1)

/-- Make room for one more association. -/
def makeRoom (g : Gateway) : Gateway :=
  if maxAssociations≤g.associations.entries.length then
    match g.victim with
    | some conid => g.removeAndClose conid
    | none => g
  else g

/-- A frame arrives. -/
def takeFrame (g : Gateway) (r : ℕ) (body : Bytes) : Gateway :=
  match parseFrame body with
  | none => g
  | some frame =>
    let freed := if frame.rebind then g.removeAndClose frame.conid else g
    if frame.datagram.isSome then freed.goOn r (.looking frame.conid) else freed

/-- A new association, whose thread begins. -/
def openAssociation (g : Gateway) (conid : ℕ) : Gateway :=
  {g with
    opened := g.opened.insert g.next ⟨conid,g.now,true,.receiving⟩
    next := g.next+1}

/-- Send a datagram; if that fails, what is stored under the number is removed. -/
def sendOn (g : Gateway) (conid a : ℕ) (sent : Bool) : Gateway :=
  let used := g.modify a fun x => {x with lastUsed := g.now}
  if sent && (g.opened.lookup a).any (·.isOpen) then used else used.removeAndClose conid

/-- Close an association that was idle. -/
def reap (g : Gateway) (conid : ℕ) : Gateway :=
  match g.associations.lookup conid with
  | some a =>
    if g.lastUsed a+associationIdle<g.now then
      {g.close a with reaping := conid::g.reaping}
    else g
  | none => g

/-- The reader of a stream takes a step. -/
def readerStep (g : Gateway) (r : ℕ) : Phase → ReaderInput → Option Gateway
  | .reading,.frame body => some (g.takeFrame r body)
  | .reading,.down => some {g.closeAll with readers := g.readers.erase r}
  | .looking conid,.look =>
    match g.associations.lookup conid with
    | some a => some (g.goOn r (.sending conid a))
    | none => some (g.goOn r (.absent conid))
  | .absent conid,.evict => some (g.makeRoom.goOn r (.opening conid))
  | .opening conid,.opened agreed =>
    if agreed then some ((g.openAssociation conid).goOn r (.storing conid g.next))
    else some (g.goOn r .reading)
  | .storing conid a,.store =>
    some ({g with associations := g.associations.insert conid a}.goOn r (.sending conid a))
  | .sending conid a,.send sent => some ((g.sendOn conid a sent).goOn r .reading)
  | _,_ => none

/-- The thread of an association takes a step. -/
def relayStep (g : Gateway) (a : ℕ) (x : Association) : RelayInput → Option (Gateway × List Event)
  | .ends =>
    if x.relay=.receiving then
      some (g.modify a fun x => {x with
        isOpen := false
        relay := .ending},[])
    else none
  | .removes =>
    if x.relay=.ending then
      some ({g.modify a fun x => {x with relay := .ended} with
        associations := g.associations.erase x.conid},[.ended a (g.associations.lookup x.conid)])
    else none

/-- One step. -/
def exec (g : Gateway) : Action → Option (Gateway × List Event)
  | .advance milliseconds => some ({g with now := g.now+milliseconds},[])
  | .start => some ({g with running := true},[])
  | .stop => some (if g.running then {g.closeAll with running := false} else g,[])
  | .clear =>
    if 0<g.clearing then
      some ({g with
        associations := ∅
        clearing := g.clearing-1},[])
    else none
  | .streamUp =>
    some ({g.closeAll with
      readers := g.readers.insert g.nextReader .reading
      nextReader := g.nextReader+1},[])
  | .reader r input =>
    (g.readers.lookup r).bind fun phase => (g.readerStep r phase input).map fun g' => (g',[])
  | .reap conid => some (g.reap conid,[])
  | .remove conid =>
    if g.reaping.contains conid then
      some ({g with
        associations := g.associations.erase conid
        reaping := g.reaping.erase conid},[])
    else none
  | .relay a input => (g.opened.lookup a).bind fun x => g.relayStep a x input

end Gateway

/-- The gateway with its readers and the threads of its associations in any order. -/
def machine : Machine Gateway Action Event where
  start g := g=.new
  allowed _ _ := True
  exec := Gateway.exec

/-- An association is opened for a number only when the threads of all earlier ones with that
number are through. -/
def unused (g : Gateway) : Action → Bool
  | .reader r (.opened _) =>
    match g.readers.lookup r with
    | some (.opening conid) => g.opened.entries.all fun e =>
        decide (e.2.conid≠conid) || decide (e.2.relay=.ended)
    | _ => true
  | _ => true

/-- The thread of an association does not remove a newer one. -/
def NotNewer : Event → Prop
  | .ended a removed => ∀ b, removed=some b → b≤a

namespace Gateway

variable {g g' : Gateway}
variable {phase : Phase} {r conid a : ℕ} {x : Association}

/-- Nothing is opened or stored, and no thread of an association goes on. -/
structure Quiet (g g' : Gateway) : Prop where
  conids : view (·.conid) g'.opened=view (·.conid) g.opened
  relays : view (·.relay) g'.opened=view (·.relay) g.opened
  next : g'.next=g.next
  entries : ∀ k a, g'.associations.lookup k=some a → g.associations.lookup k=some a
  storing : ∀ r k a, g'.readers.lookup r=some (.storing k a) →
    g.readers.lookup r=some (.storing k a)

theorem Quiet.refl (g : Gateway) : g.Quiet g := ⟨rfl,rfl,rfl,fun _ _ h => h,fun _ _ _ h => h⟩

theorem Quiet.trans {g'' : Gateway} (h : g.Quiet g') (h' : g'.Quiet g'') : g.Quiet g'' where
  conids := h'.conids.trans h.conids
  relays := h'.relays.trans h.relays
  next := h'.next.trans h.next
  entries k a hk := h.entries k a (h'.entries k a hk)
  storing r k a hr := h.storing r k a (h'.storing r k a hr)

/-- A change that leaves the number and the thread alone. -/
theorem modify_quiet (g : Gateway) (a : ℕ) {change : Association → Association}
    (hconid : ∀ x, (change x).conid=x.conid) (hrelay : ∀ x, (change x).relay=x.relay) :
    g.Quiet (g.modify a change) := by
  rw [modify]
  split
  · rename_i x hx
    exact ⟨view_insert_same hx (hconid x),view_insert_same hx (hrelay x),rfl,fun _ _ h => h,
      fun _ _ _ h => h⟩
  · exact .refl g

theorem close_quiet (g : Gateway) (a : ℕ) : g.Quiet (g.close a) :=
  g.modify_quiet a (fun _ => rfl) (fun _ => rfl)

theorem erase_quiet (g : Gateway) (conid : ℕ) :
    g.Quiet {g with associations := g.associations.erase conid} :=
  ⟨rfl,rfl,rfl,fun _ _ h => lookup_of_erase h,fun _ _ _ h => h⟩

theorem removeAndClose_quiet (g : Gateway) (conid : ℕ) : g.Quiet (g.removeAndClose conid) := by
  rw [removeAndClose]
  split
  · exact (g.erase_quiet conid).trans (close_quiet _ _)
  · exact .refl g

theorem foldl_close_quiet (entries : List (Sigma fun _ : ℕ => ℕ)) (g : Gateway) :
    g.Quiet (entries.foldl (fun g e => g.close e.2) g) := by
  induction entries generalizing g with
  | nil => exact .refl g
  | cons e rest ih => exact (g.close_quiet e.2).trans (ih (g.close e.2))

theorem closeAll_quiet (g : Gateway) : g.Quiet g.closeAll := by
  obtain ⟨hconids,hrelays,hnext,hentries,hstoring⟩ := foldl_close_quiet g.associations.entries g
  exact ⟨hconids,hrelays,hnext,hentries,hstoring⟩

/-- A reader that does not store anything goes on. -/
theorem goOn_quiet (g : Gateway) (r : ℕ) (h : ∀ k a, phase≠.storing k a) :
    g.Quiet (g.goOn r phase) := by
  refine ⟨rfl,rfl,rfl,fun _ _ h => h,fun r' k a hr => ?_⟩
  rw [goOn,lookup_insert_eq] at hr
  split at hr
  · exact absurd (some.inj hr) (h k a)
  · exact hr

theorem makeRoom_quiet (g : Gateway) : g.Quiet g.makeRoom := by
  rw [makeRoom]
  split
  · split
    · exact g.removeAndClose_quiet _
    · exact .refl g
  · exact .refl g

theorem takeFrame_quiet (g : Gateway) (r : ℕ) (body : Bytes) : g.Quiet (g.takeFrame r body) := by
  rw [takeFrame]
  split
  · exact .refl g
  · rename_i frame _
    have hfreed : g.Quiet (if frame.rebind then g.removeAndClose frame.conid else g) := by
      split
      · exact g.removeAndClose_quiet _
      · exact .refl g
    dsimp only
    split
    · exact hfreed.trans (goOn_quiet _ r nofun)
    · exact hfreed

theorem sendOn_quiet (g : Gateway) (conid a : ℕ) (sent : Bool) :
    g.Quiet (g.sendOn conid a sent) := by
  have hused : g.Quiet (g.modify a fun x => {x with lastUsed := g.now}) :=
    g.modify_quiet a (fun _ => rfl) (fun _ => rfl)
  rw [sendOn]
  split
  · exact hused
  · exact hused.trans (removeAndClose_quiet _ conid)

theorem reap_quiet (g : Gateway) (conid : ℕ) : g.Quiet (g.reap conid) := by
  rw [reap]
  split
  · split
    · obtain ⟨hconids,hrelays,hnext,hentries,hstoring⟩ := g.close_quiet _
      exact ⟨hconids,hrelays,hnext,hentries,hstoring⟩
    · exact .refl g
  · exact .refl g

/-- What the reader of a stream can do. -/
theorem readerStep_cases {input : ReaderInput} (hr : g.readers.lookup r=some phase)
    (h : g.readerStep r phase input=some g') :
    g.Quiet g' ∨ (∃ conid, phase=.opening conid ∧ (∃ agreed, input=.opened agreed) ∧
        g'=(g.openAssociation conid).goOn r (.storing conid g.next)) ∨
      ∃ conid a, phase=.storing conid a ∧ g'=
          {g with associations := g.associations.insert conid a}.goOn r (.sending conid a) := by
  unfold readerStep at h
  split at h
  · cases h
    exact .inl (g.takeFrame_quiet r _)
  · cases h
    obtain ⟨hconids,hrelays,hnext,hentries,_⟩ := g.closeAll_quiet
    exact .inl ⟨hconids,hrelays,hnext,hentries,fun _ _ _ h => lookup_of_erase h⟩
  · split at h
    · cases h
      exact .inl (g.goOn_quiet r nofun)
    · cases h
      exact .inl (g.goOn_quiet r nofun)
  · cases h
    exact .inl (g.makeRoom_quiet.trans (goOn_quiet _ r nofun))
  · split at h
    · cases h
      exact .inr (.inl ⟨_,rfl,⟨_,rfl⟩,rfl⟩)
    · cases h
      exact .inl (g.goOn_quiet r nofun)
  · cases h
    exact .inr (.inr ⟨_,_,rfl,rfl⟩)
  · cases h
    exact .inl ((g.sendOn_quiet _ _ _).trans (goOn_quiet _ r nofun))
  · cases h

/-- What is stored has its number, and the thread of an association is through when there is a
newer one with its number. -/
structure Inv (g : Gateway) : Prop where
  entries : ∀ k a, g.associations.lookup k=some a → view (·.conid) g.opened a=some k
  storing : ∀ r k a, g.readers.lookup r=some (.storing k a) → view (·.conid) g.opened a=some k
  fresh : ∀ a k, view (·.conid) g.opened a=some k → a<g.next
  ended : ∀ a b k, view (·.conid) g.opened a=some k → view (·.conid) g.opened b=some k →
    a<b → view (·.relay) g.opened a=some .ended

theorem Inv.quiet (h : g.Inv) (hquiet : g.Quiet g') : g'.Inv where
  entries k a hk := by
    rw [hquiet.conids]
    exact h.entries k a (hquiet.entries k a hk)
  storing r k a hr := by
    rw [hquiet.conids]
    exact h.storing r k a (hquiet.storing r k a hr)
  fresh a k ha := by
    rw [hquiet.conids] at ha
    rw [hquiet.next]
    exact h.fresh a k ha
  ended a b k ha hb hlt := by
    rw [hquiet.conids] at ha hb
    rw [hquiet.relays]
    exact h.ended a b k ha hb hlt

/-- An association is opened for a number that no thread will remove any more. -/
theorem Inv.openAssociation (h : g.Inv) (hunused : ∀ a, view (·.conid) g.opened a=some conid →
      view (·.relay) g.opened a=some .ended) :
    ((g.openAssociation conid).goOn r (.storing conid g.next)).Inv := by
  have hconids : view (·.conid) (g.openAssociation conid).opened=
      update (view (·.conid) g.opened) g.next (some conid) := view_insert ..
  have hrelays : view (·.relay) (g.openAssociation conid).opened=
      update (view (·.relay) g.opened) g.next (some .receiving) := view_insert ..
  have hkept : ∀ a k, view (·.conid) g.opened a=some k →
      view (·.conid) (g.openAssociation conid).opened a=some k := by
    intro a k ha
    rw [hconids,update_of_ne (h.fresh a k ha).ne,ha]
  constructor
  · intro k a hk
    exact hkept a k (h.entries k a hk)
  · intro r' k a hr
    rw [goOn,lookup_insert_eq] at hr
    split at hr
    · cases hr
      exact (congrFun hconids g.next).trans (update_self ..)
    · exact hkept a k (h.storing r' k a hr)
  · intro a k ha
    rcases update_eq_some ((congrFun hconids a).symm.trans ha) with ⟨rfl,_⟩ | ⟨_,ha⟩
    · exact Nat.lt_succ_self _
    · exact (h.fresh a k ha).trans (Nat.lt_succ_self _)
  · intro a b k ha hb hlt
    change view (·.relay) (g.openAssociation conid).opened a=_
    rcases update_eq_some ((congrFun hconids b).symm.trans hb) with ⟨rfl,hk⟩ | ⟨_,hb⟩
    · rcases update_eq_some ((congrFun hconids a).symm.trans ha) with ⟨rfl,_⟩ | ⟨hne,ha⟩
      · exact absurd hlt (lt_irrefl _)
      · cases hk
        rw [hrelays,update_of_ne hne]
        exact hunused a ha
    · have hbound := h.fresh b k hb
      rcases update_eq_some ((congrFun hconids a).symm.trans ha) with ⟨rfl,_⟩ | ⟨hne,ha⟩
      · omega
      · rw [hrelays,update_of_ne hne]
        exact h.ended a b k ha hb hlt

/-- An association is stored under its number. -/
theorem Inv.store (h : g.Inv) (hr : g.readers.lookup r=some (.storing conid a)) :
    ({g with associations := g.associations.insert conid a}.goOn r (.sending conid a)).Inv := by
  have hstored : ({g with associations := g.associations.insert conid a} : Gateway).Inv := by
    refine ⟨fun k b hk => ?_,h.storing,h.fresh,h.ended⟩
    rw [lookup_insert_eq] at hk
    split at hk
    · rename_i heq
      cases hk
      rw [heq]
      exact h.storing r conid a hr
    · exact h.entries k b hk
  exact hstored.quiet (goOn_quiet _ r nofun)

/-- The thread of an association goes on. -/
theorem Inv.modify_relay (h : g.Inv) {f : Association → Association}
    (hx : g.opened.lookup a=some x) (hconid : (f x).conid=x.conid)
    (hrelay : (f x).relay≠.ended → x.relay≠.ended) : (g.modify a f).Inv := by
  have heq : g.modify a f={g with opened := g.opened.insert a (f x)} := by
    rw [modify,hx]
  rw [heq]
  have hconids : view (·.conid) (g.opened.insert a (f x))=view (·.conid) g.opened :=
    view_insert_same hx hconid
  refine ⟨?_,?_,?_,?_⟩
  · intro k b hk
    exact (congrFun hconids b).trans (h.entries k b hk)
  · intro r k b hr
    exact (congrFun hconids b).trans (h.storing r k b hr)
  · intro b k hb
    exact h.fresh b k ((congrFun hconids b).symm.trans hb)
  · intro b c k hb hc hlt
    have hended := h.ended b c k ((congrFun hconids b).symm.trans hb)
      ((congrFun hconids c).symm.trans hc) hlt
    rw [view_insert]
    by_cases hba : b=a
    · rw [hba,update_self]
      rw [hba,view_of_lookup hx] at hended
      have hwas := some.inj hended
      exact congrArg some (not_not.mp fun hne => hrelay hne hwas)
    · rw [update_of_ne hba]
      exact hended

/-- The thread of an association removes no newer one. -/
theorem Inv.relayStep (h : g.Inv) {input : RelayInput} {new : List Event}
    (hx : g.opened.lookup a=some x) (he : g.relayStep a x input=some (g',new)) :
    g'.Inv ∧ ∀ e∈new, NotNewer e := by
  cases input with
  | ends =>
    simp only [Gateway.relayStep] at he
    split_ifs at he with hrelay
    cases he
    refine ⟨h.modify_relay hx rfl fun _ => ?_,by simp⟩
    rw [hrelay]
    decide
  | removes =>
    simp only [Gateway.relayStep] at he
    split_ifs at he with hrelay
    cases he
    refine ⟨?_,?_⟩
    · have hmodified : (g.modify a fun x => {x with relay := .ended}).Inv :=
        h.modify_relay hx rfl fun hne => absurd rfl hne
      have herase := hmodified.quiet (erase_quiet _ x.conid)
      have hsame : (g.modify a fun x => {x with relay := .ended}).associations=
          g.associations := by
        rw [modify,hx]
      rwa [hsame] at herase
    · intro e hmem b hb
      obtain rfl := List.mem_singleton.mp hmem
      -- A newer one with this number would mean that this thread is through.
      by_contra hnewer
      have hended := h.ended a b x.conid (view_of_lookup hx) (h.entries x.conid b hb)
        (Nat.lt_of_not_le hnewer)
      rw [view_of_lookup hx,hrelay] at hended
      cases hended

/-- A step that meets the condition removes no newer association. -/
theorem Inv.exec (h : g.Inv) {action : Action} {new : List Event}
    (hunused : unused g action=true) (he : g.exec action=some (g',new)) :
    g'.Inv ∧ ∀ e∈new, NotNewer e := by
  cases action with
  | advance milliseconds | start =>
    cases he
    exact ⟨⟨h.entries,h.storing,h.fresh,h.ended⟩,by simp⟩
  | stop =>
    cases he
    refine ⟨?_,by simp⟩
    split
    · obtain ⟨hentries,hstoring,hfresh,hended⟩ := h.quiet g.closeAll_quiet
      exact ⟨hentries,hstoring,hfresh,hended⟩
    · exact h
  | clear =>
    simp only [Gateway.exec] at he
    split at he
    · cases he
      exact ⟨⟨fun k a hk => (by cases hk),h.storing,h.fresh,h.ended⟩,by simp⟩
    · cases he
  | streamUp =>
    cases he
    obtain ⟨hentries,hstoring,hfresh,hended⟩ := h.quiet g.closeAll_quiet
    refine ⟨⟨hentries,fun r k a hr => ?_,hfresh,hended⟩,by simp⟩
    rw [lookup_insert_eq] at hr
    split at hr
    · cases hr
    · exact (congrFun g.closeAll_quiet.conids a).trans (h.storing r k a hr)
  | reader r input =>
    obtain ⟨phase,hr,hrest⟩ := bind_eq_some_iff.mp he
    obtain ⟨g'',hstep,heq⟩ := map_eq_some_iff.mp hrest
    cases heq
    refine ⟨?_,by simp⟩
    rcases readerStep_cases hr hstep with hquiet | ⟨conid,rfl,⟨agreed,rfl⟩,rfl⟩ | ⟨conid,a,rfl,rfl⟩
    · exact h.quiet hquiet
    · refine h.openAssociation fun a ha => ?_
      obtain ⟨x,hx,hconid⟩ := view_eq_some.mp ha
      simp only [unused,hr] at hunused
      have hthis := List.all_eq_true.mp hunused ⟨a,x⟩ (AList.mem_lookup_iff.mp hx)
      simp only [hconid,ne_eq,not_true_eq_false,decide_false,Bool.false_or,
        decide_eq_true_eq] at hthis
      rw [view_of_lookup hx,hthis]
    · exact h.store hr
  | reap conid =>
    cases he
    exact ⟨h.quiet (g.reap_quiet conid),by simp⟩
  | remove conid =>
    simp only [Gateway.exec] at he
    split_ifs at he
    cases he
    obtain ⟨hentries,hstoring,hfresh,hended⟩ := h.quiet (g.erase_quiet conid)
    exact ⟨⟨hentries,hstoring,hfresh,hended⟩,by simp⟩
  | relay a input =>
    obtain ⟨x,hx,hstep⟩ := bind_eq_some_iff.mp he
    exact h.relayStep hx hstep

end Gateway

/-- As long as no number is used again before the threads of its earlier associations are
through, no such thread removes a newer association. -/
theorem run_not_newer {t : List Event} {g : Gateway}
    (h : machine.Run (fun _ g a => unused g a=true) t g) : ∀ e∈t, NotNewer e := by
  have hsafe := h.safe Gateway.Inv NotNewer
    (by
      rintro g rfl
      constructor
      · nofun
      · nofun
      · nofun
      · intro a b k ha
        cases ha)
    (fun _ _ _ _ _ hinv _ hcond he => hinv.exec hcond he)
  exact hsafe.2

/-- The frame of a datagram under a number, which it may take over from another flow. -/
def sampleFrame (flags conid : UInt8) : Bytes := [flags,conid,0,9,9,9,9,1,187,42]

/-- An association is opened and used. -/
def sampleUse (flags : UInt8) : List Action :=
  [.reader 0 (.frame (sampleFrame flags 5)),.reader 0 .look,.reader 0 .evict,
    .reader 0 (.opened true),.reader 0 .store,.reader 0 (.send true)]

/-- A number is taken over after the thread of its association is through. -/
theorem run_not_newer_sample :
    ∃ t g, machine.Run (fun _ g a => unused g a=true) t g ∧
      (g.associations.lookup 5=some 1 ∧ t=[.ended 0 (some 0)]) ∧ ∀ e∈t, NotNewer e :=
  Machine.exists_run_with unused (fun _ _ _ h => ⟨trivial,h⟩) rfl
    ([.start,.streamUp,.clear]++sampleUse 0++[.relay 0 .ends,.relay 0 .removes] ++
      sampleUse 2) (by decide +kernel) fun _ _ => run_not_newer

/-- A number is taken over while the thread of its association is still to remove it. The
thread removes the new association. -/
theorem run_newer_removed : ∃ t g, machine.Run always t g ∧ ∃ e∈t, ¬NotNewer e := by
  obtain ⟨t,g,hrun,hended⟩ : ∃ t g, machine.Run always t g ∧ .ended 0 (some 1)∈t :=
    Machine.exists_run (fun _ _ => true) (fun _ _ _ _ => ⟨trivial,trivial⟩) rfl
      ([.start,.streamUp,.clear]++sampleUse 0++sampleUse 2 ++
        [.relay 0 .ends,.relay 0 .removes]) (by decide +kernel)
  refine ⟨t,g,hrun,.ended 0 (some 1),hended,?_⟩
  intro hnot
  have hle := hnot 1 rfl
  omega

end MsnGuard.WarpAssociations
