import MsnGuard.SmartDnsRelays

/-!
# The table of associations

The association for DNS is put into a table, from where the front closes it when it is stopped,
when it was idle and when sending fails. The one of a client is not, and whoever fails to send
on it takes the key of the association for DNS instead.
-/

namespace MsnGuard.SmartDnsAssociations

open SmartDnsRelays TransitionRuns FiniteTables

/-- The key of the association for DNS. -/
def dnsAssociationKey : ℤ := -1

/-- How long an association may be idle, in milliseconds. -/
def udpIdleTimeout : ℕ := 60000

/-- An association with the far side. -/
structure Association where
  /-- The key it is to have in the table. -/
  key : ℤ
  lastUsed : ℕ
  isOpen : Bool
  deriving DecidableEq

/-- The associations of the front. -/
structure Front where
  now : ℕ
  running : Bool
  /-- The associations have been closed, and the table is to be emptied. -/
  stopping : Bool
  /-- Which association has a key. -/
  associations : AList fun _ : ℤ => ℕ
  /-- All associations that have been opened, by their number. -/
  opened : Table Association
  next : ℕ
  /-- The keys of the idle associations that have been closed and are to be removed. -/
  reaping : List ℤ

/-- What can be seen of the front. -/
inductive Event where
  /-- Sending on an association fails, and some associations are closed for that. -/
  | failed (a : ℕ) (closed : List ℕ)
  deriving DecidableEq

/-- What may happen next. -/
inductive Action where
  | advance (milliseconds : ℕ)
  | start
  | stop
  /-- The table is emptied after that. -/
  | clear
  /-- A client asks for a session. There may be a free port when the relay socket is created,
  and one when it is bound; the far side may agree. -/
  | associate (identity : ℕ) (created bound : Option ℕ) (agreed : Bool)
  /-- A datagram of a client goes to the far side, unless sending fails. -/
  | request (a : ℕ) (sent : Bool)
  /-- A datagram comes back. -/
  | receive (a : ℕ)
  /-- A worker needs the association for DNS; the far side may agree. -/
  | openDns (agreed : Bool)
  /-- A worker fails to send. -/
  | askFails (a : ℕ)
  /-- The control connection of a client is over, as seen by its two readers. -/
  | controlEnds (a : ℕ)
  | sessionEnds (a : ℕ)
  /-- An association is looked at, and closed if it was idle. -/
  | reap (key : ℤ)
  /-- A key is removed after that. -/
  | remove (key : ℤ)

namespace Front

/-- The front before it is started. -/
def new : Front := ⟨0,false,false,∅,∅,0,[]⟩

/-- Is an association open? -/
def live (f : Front) (a : ℕ) : Bool := (f.opened.lookup a).any (·.isOpen)

/-- An association of a client. -/
def client (f : Front) (a : ℕ) : Option Association :=
  (f.opened.lookup a).filter fun association => association.key != dnsAssociationKey

/-- Close an association. -/
def close (f : Front) (a : ℕ) : Front :=
  match f.opened.lookup a with
  | some association => {f with opened := f.opened.insert a {association with isOpen := false}}
  | none => f

/-- Remove a key, and close what it led to. -/
def removeAndClose (f : Front) (key : ℤ) : Front × List ℕ :=
  match f.associations.lookup key with
  | some a => ({f with associations := f.associations.erase key}.close a,[a])
  | none => (f,[])

/-- The key of an association, or that of the association for DNS. -/
def associationKey (f : Front) (a : ℕ) : ℤ :=
  ((f.associations.entries.find? fun e => e.2 == a).map (·.1)).getD dnsAssociationKey

/-- A new association. -/
def openAssociation (f : Front) (key : ℤ) : Front :=
  {f with
    opened := f.opened.insert f.next ⟨key,f.now,true⟩
    next := f.next+1}

/-- The front is started, and the table is emptied. -/
def start (f : Front) : Front :=
  if f.running then f
  else
    {f with
      associations := ∅
      running := true}

/-- The front is stopped, and what is in the table is closed. -/
def stop (f : Front) : Front :=
  if f.running then
    {f.associations.entries.foldl (fun g e => g.close e.2) f with
      running := false
      stopping := true}
  else f

/-- A worker gets the association for DNS, or a new one takes its place. -/
def openDnsAssociation (f : Front) (agreed : Bool) : Front :=
  if (f.associations.lookup dnsAssociationKey).any f.live || !agreed then f
  else
    {f.openAssociation dnsAssociationKey with
      associations := f.associations.insert dnsAssociationKey f.next}

/-- An association is used. -/
def use (f : Front) (a : ℕ) (association : Association) : Front :=
  {f with opened := f.opened.insert a {association with lastUsed := f.now}}

/-- A datagram goes to the far side, or the failure path is taken. -/
def request (f : Front) (a : ℕ) (association : Association) (sent : Bool) : Front × List Event :=
  if sent && association.isOpen then (f.use a association,[])
  else
    let removed := (f.use a association).removeAndClose (f.associationKey a)
    (removed.1,[.failed a removed.2])

/-- Close an association that was idle. -/
def reap (f : Front) (key : ℤ) : Front :=
  match f.associations.lookup key with
  | some a =>
    if (f.opened.lookup a).any fun association =>
        decide (association.lastUsed+udpIdleTimeout<f.now) then
      {f.close a with reaping := key::f.reaping}
    else f
  | none => f

/-- The reader of a control connection lets go of its own association. -/
def controlEnds (f : Front) (a : ℕ) (association : Association) : Front :=
  {f with
    associations := if f.associations.lookup association.key=some a then
        f.associations.erase association.key
      else f.associations}.close a

/-- One step; how a socket is bound is up to the platform. -/
def exec (bind : DatagramSocket → Option ℕ → Option DatagramSocket) (f : Front) :
    Action → Option (Front × List Event)
  | .advance milliseconds => some ({f with now := f.now+milliseconds},[])
  | .start => if f.stopping then none else some (f.start,[])
  | .stop => if f.stopping then none else some (f.stop,[])
  | .clear =>
    if f.stopping then
      some ({f with
        associations := ∅
        stopping := false},[])
    else none
  | .associate identity created bound agreed =>
    some (if ((DatagramSocket.create created).bind (bind · bound)).isSome && agreed then
      f.openAssociation identity else f,[])
  | .request a sent => (f.client a).map fun association => f.request a association sent
  | .receive a => (f.client a).map fun association => (f.use a association,[])
  | .openDns agreed => some (f.openDnsAssociation agreed,[])
  | .askFails a => some (f,[.failed a []])
  | .controlEnds a => (f.client a).map fun association => (f.controlEnds a association,[])
  | .sessionEnds a => (f.client a).map fun association =>
    ((f.removeAndClose association.key).1,[])
  | .reap key => some (f.reap key,[])
  | .remove key =>
    if f.reaping.contains key then
      some ({f with
        associations := f.associations.erase key
        reaping := f.reaping.erase key},[])
    else none

end Front

/-- The front with its clients, workers and readers in any order. -/
def machine (bind : DatagramSocket → Option ℕ → Option DatagramSocket) :
    Machine Front Action Event where
  start f := f=.new
  allowed _ _ := True
  exec := Front.exec bind

/-- No client gets a session, the table holds nothing open when it is emptied, and an idle
association is removed before another takes its place. -/
def registered (bind : DatagramSocket → Option ℕ → Option DatagramSocket) (f : Front) :
    Action → Bool
  | .associate _ created bound agreed =>
    !(((DatagramSocket.create created).bind (bind · bound)).isSome && agreed)
  | .start => f.running || f.associations.entries.all fun e => !f.live e.2
  | .clear => f.associations.entries.all fun e => !f.live e.2
  | .remove key => (f.associations.lookup key).all fun a => !f.live a
  | _ => true

/-- Every open association is in the table under its own key. -/
def Registered (f : Front) : Prop :=
  ∀ a association, f.opened.lookup a=some association → association.isOpen=true →
    f.associations.lookup association.key=some a

/-- A failure closes at most the association on which sending failed. -/
def OnlyItself : Event → Prop
  | .failed a closed => ∀ b∈closed, b=a

namespace Front

variable {f g : Front}

/-- Nothing has been opened, and nothing has changed its key. -/
def Quieter (f g : Front) : Prop :=
  ∀ a x, g.opened.lookup a=some x → ∃ y, f.opened.lookup a=some y ∧ y.key=x.key ∧
    (x.isOpen=true → y.isOpen=true)

theorem Quieter.refl (f : Front) : f.Quieter f := fun _ x h => ⟨x,h,rfl,id⟩

theorem Quieter.trans {k : Front} (h : f.Quieter g) (h' : g.Quieter k) : f.Quieter k := by
  intro a x hx
  obtain ⟨y,hy,hkey,hopen⟩ := h' a x hx
  obtain ⟨z,hz,hkey',hopen'⟩ := h a y hy
  exact ⟨z,hz,hkey'.trans hkey,fun hx => hopen' (hopen hx)⟩

theorem close_quieter (f : Front) (a : ℕ) : f.Quieter (f.close a) := by
  rw [close]
  split
  · rename_i association hfound
    intro b x hx
    rw [lookup_insert_eq] at hx
    split at hx
    · rename_i heq
      cases hx
      exact ⟨association,by rw [heq,hfound],rfl,nofun⟩
    · exact ⟨x,hx,rfl,id⟩
  · exact .refl f

theorem close_associations (f : Front) (a : ℕ) : (f.close a).associations=f.associations := by
  rw [close]
  split <;> rfl

/-- Closing several associations closes, and leaves the table alone. -/
theorem foldl_close (entries : List (Sigma fun _ : ℤ => ℕ)) (f : Front) :
    f.Quieter (entries.foldl (fun g e => g.close e.2) f) ∧
      (entries.foldl (fun g e => g.close e.2) f).associations=f.associations := by
  induction entries generalizing f with
  | nil => exact ⟨.refl f,rfl⟩
  | cons e rest ih =>
    obtain ⟨hquiet,hsame⟩ := ih (f.close e.2)
    exact ⟨(close_quieter f e.2).trans hquiet,hsame.trans (close_associations f e.2)⟩

/-- All associations are for DNS, and what is open is in the table. -/
structure Inv (f : Front) : Prop where
  dns : ∀ a x, f.opened.lookup a=some x → x.key=dnsAssociationKey
  registered : Registered f

/-- Nothing that is open loses its place in the table. -/
theorem Inv.quieter (h : f.Inv) (hquiet : f.Quieter g)
    (hsame : ∀ a, f.live a=true → f.associations.lookup dnsAssociationKey=some a →
      g.associations.lookup dnsAssociationKey=some a) : g.Inv := by
  constructor
  · intro a x hx
    obtain ⟨y,hy,hkey,_⟩ := hquiet a x hx
    rw [←hkey]
    exact h.dns a y hy
  · intro a x hx hopen
    obtain ⟨y,hy,hkey,hwas⟩ := hquiet a x hx
    have hplace := h.registered a y hy (hwas hopen)
    rw [h.dns a y hy] at hplace
    rw [←hkey,h.dns a y hy]
    refine hsame a ?_ hplace
    rw [live,hy,Option.any_some]
    exact hwas hopen

/-- A table without anything open may be emptied. -/
theorem not_live_of_all (h : (f.associations.entries.all fun e => !f.live e.2)=true) (a : ℕ)
    (key : ℤ) (hplace : f.associations.lookup key=some a) : f.live a=false := by
  have hmem : (⟨key,a⟩ : Sigma fun _ : ℤ => ℕ)∈f.associations.entries :=
    AList.mem_lookup_iff.mp hplace
  simpa using List.all_eq_true.mp h _ hmem

/-- The association for DNS is replaced only when nothing is open. -/
theorem Inv.openDnsAssociation (h : f.Inv) (agreed : Bool) : (f.openDnsAssociation agreed).Inv := by
  rw [Front.openDnsAssociation]
  split
  · exact h
  · rename_i hneeded
    have hlive : (f.associations.lookup dnsAssociationKey).any f.live=false := by
      simp only [Bool.or_eq_true,not_or,Bool.not_eq_true] at hneeded
      exact hneeded.1
    have hclosed : ∀ a x, f.opened.lookup a=some x → x.isOpen≠true := by
      intro a x hx hopen
      have hplace := h.registered a x hx hopen
      rw [h.dns a x hx] at hplace
      rw [hplace,Option.any_some,live,hx,Option.any_some,hopen] at hlive
      cases hlive
    constructor
    · intro a x hx
      rw [Front.openAssociation,lookup_insert_eq] at hx
      split at hx
      · cases hx
        rfl
      · exact h.dns a x hx
    · intro a x hx hopen
      rw [Front.openAssociation,lookup_insert_eq] at hx
      split at hx
      · rename_i heq
        cases hx
        rw [heq]
        exact AList.lookup_insert _
      · exact absurd hopen (hclosed a x hx)

/-- No association is a client's. -/
theorem Inv.client (h : f.Inv) (a : ℕ) : f.client a=none := by
  rw [Front.client]
  cases hx : f.opened.lookup a with
  | none => rfl
  | some x => simp [h.dns a x hx]

/-- A step that meets the condition keeps every open association in the table. -/
theorem Inv.exec {bind : DatagramSocket → Option ℕ → Option DatagramSocket} {action : Action}
    {new : List Event} (h : f.Inv) (hcond : SmartDnsAssociations.registered bind f action=true)
    (he : f.exec bind action=some (g,new)) : g.Inv ∧ ∀ e∈new, OnlyItself e := by
  cases action with
  | advance milliseconds =>
    cases he
    exact ⟨⟨h.dns,h.registered⟩,by simp⟩
  | start =>
    simp only [Front.exec] at he
    split_ifs at he
    cases he
    refine ⟨?_,by simp⟩
    rw [Front.start]
    split
    · exact h
    · rename_i hstopped
      simp only [SmartDnsAssociations.registered,hstopped,Bool.false_or] at hcond
      refine h.quieter (.refl f) fun a hlive hplace => ?_
      rw [not_live_of_all hcond a _ hplace] at hlive
      cases hlive
  | stop =>
    simp only [Front.exec] at he
    split_ifs at he
    cases he
    refine ⟨?_,by simp⟩
    rw [Front.stop]
    split
    · obtain ⟨hquiet,hsame⟩ := foldl_close f.associations.entries f
      refine h.quieter hquiet fun a _ hplace => ?_
      rw [←hplace]
      exact congrArg (AList.lookup dnsAssociationKey) hsame
    · exact h
  | clear =>
    simp only [Front.exec] at he
    split_ifs at he
    cases he
    refine ⟨h.quieter (.refl f) fun a hlive hplace => ?_,by simp⟩
    rw [not_live_of_all hcond a _ hplace] at hlive
    cases hlive
  | associate identity created bound agreed =>
    simp only [SmartDnsAssociations.registered,Bool.not_eq_true'] at hcond
    simp only [Front.exec,hcond] at he
    cases he
    exact ⟨h,by simp⟩
  | request a sent | receive a | controlEnds a | sessionEnds a =>
    simp only [Front.exec,h.client a] at he
    cases he
  | openDns agreed =>
    cases he
    exact ⟨h.openDnsAssociation agreed,by simp⟩
  | askFails a =>
    cases he
    refine ⟨h,?_⟩
    simp [OnlyItself]
  | reap key =>
    cases he
    refine ⟨?_,by simp⟩
    rw [Front.reap]
    split
    · split
      · refine h.quieter (close_quieter f _) fun a _ hplace => ?_
        rw [←hplace]
        exact congrArg (AList.lookup dnsAssociationKey) (close_associations f _)
      · exact h
    · exact h
  | remove key =>
    simp only [Front.exec] at he
    split_ifs at he
    cases he
    refine ⟨h.quieter (.refl f) fun a hlive hplace => ?_,by simp⟩
    -- The key that is removed leads nowhere, or to what has been closed.
    have hne : dnsAssociationKey≠key := by
      rintro rfl
      simp only [SmartDnsAssociations.registered,hplace,Option.all_some,hlive] at hcond
      cases hcond
    exact (AList.lookup_erase_ne hne).trans hplace

end Front

/-- As long as no client gets a session, the table is emptied of closed associations only and
idle ones are removed before they are replaced, every open association is in the table under
its own key and a failure closes no other one. -/
theorem run_registered (bind : DatagramSocket → Option ℕ → Option DatagramSocket) {t : List Event}
    {f : Front} (h : (machine bind).Run (fun _ f a => registered bind f a=true) t f) :
    Registered f ∧ ∀ e∈t, OnlyItself e := by
  have hsafe := h.safe Front.Inv OnlyItself
    (by
      rintro f rfl
      constructor <;> (intro a x hx; cases hx))
    (fun _ _ _ _ _ hinv _ hcond he => hinv.exec hcond he)
  exact ⟨hsafe.1.registered,hsafe.2⟩

/-- The association for DNS is idle, gives way to another one, fails and outlives a restart
that closes it first. -/
theorem run_registered_sample :
    ∃ t f, (machine DatagramSocket.bind).Run
        (fun _ f a => registered DatagramSocket.bind f a=true) t f ∧
      (f.live 2=true ∧ t=[.failed 1 []]) ∧ Registered f ∧ ∀ e∈t, OnlyItself e :=
  Machine.exists_run_with (registered DatagramSocket.bind) (fun _ _ _ h => ⟨trivial,h⟩) rfl
    [.start,.openDns true,.associate 7 (some 40000) (some 40001) true,.advance 60001,.reap (-1),
      .remove (-1),.openDns true,.askFails 1,.stop,.clear,.start,.openDns true]
    (by decide +kernel) fun _ _ => run_registered _

/-- A worker opens the association for DNS while the front is stopped. It goes into the table
that the next start empties, and stays open out of everyone's reach. Where a relay socket could
be bound, sending fails on a client's association and the one for DNS is closed. -/
theorem run_unregistered :
    (∃ t f, (machine DatagramSocket.bind).Run always t f ∧ ¬Registered f) ∧
      ∃ t f, (machine fun s _ => some s).Run always t f ∧ ∃ e∈t, ¬OnlyItself e := by
  constructor
  · obtain ⟨t,f,hrun,hopened,hgone⟩ : ∃ t f, (machine DatagramSocket.bind).Run always t f ∧
        f.opened.lookup 0=some ⟨-1,0,true⟩ ∧ f.associations.lookup (-1)=none :=
      Machine.exists_run (fun _ _ => true) (fun _ _ _ _ => ⟨trivial,trivial⟩) rfl
        [.start,.stop,.clear,.openDns true,.start] (by decide +kernel)
    refine ⟨t,f,hrun,fun hregistered => ?_⟩
    have hplace := hregistered 0 _ hopened rfl
    rw [hgone] at hplace
    cases hplace
  · obtain ⟨t,f,hrun,hfailed⟩ : ∃ t f, (machine fun s _ => some s).Run always t f ∧
        .failed 1 [0]∈t :=
      Machine.exists_run (fun _ _ => true) (fun _ _ _ _ => ⟨trivial,trivial⟩) rfl
        [.start,.openDns true,.associate 7 (some 40000) (some 40001) true,.request 1 false]
        (by decide +kernel)
    refine ⟨t,f,hrun,.failed 1 [0],hfailed,?_⟩
    · intro honly
      cases honly 0 (List.mem_singleton.mpr rfl)

end MsnGuard.SmartDnsAssociations
