import MsnGuard.ShardFront

/-!
# The end of one stream and the next one

What a stream clears at its end are fields of the front, whoever has set them. They are safe
when a stream begins only after all earlier ones are through with their end.
-/

namespace MsnGuard.ShardStreams

open RustText FiniteTables TransitionRuns UdpgwFrames ShardFront Option

/-- A stream begins only after all earlier ones are through. -/
def alone (f : Front) : Action → Bool
  | .streamUp => f.streams.entries.all fun e => decide (e.2=.ended)
  | _ => true

/-- The end of a stream clears nothing of a newer one. -/
def Spares : Event → Prop
  | .tornDown r _ lost => ∀ r'∈lost, r'≤r
  | _ => True

/-- What of the front belongs to streams. -/
structure Owned where
  links : Table Link
  queries : Table DnsPending
  udpgwOut : Option ℕ
  udpgwLock : Option ℕ
  streams : Table Phase
  nextStream : ℕ

/-- What of a front belongs to streams. -/
def owned (f : Front) : Owned :=
  ⟨f.links,f.queries,f.udpgwOut,f.udpgwLock,f.streams,f.nextStream⟩

/-- So many streams have begun, everything belongs to one of them, and only the newest is not
through. -/
structure Inv (n : ℕ) (f : Front) : Prop where
  begun : f.nextStream=n
  links : ∀ a link, f.links.lookup a=some link → link.stream<n
  queries : ∀ x q, f.queries.lookup x=some q → q.asked.stream<n
  output : ∀ r, f.udpgwOut=some r → r<n
  lock : ∀ r, f.udpgwLock=some r → r<n
  streams : ∀ r phase, f.streams.lookup r=some phase → r<n
  newest : ∀ r phase, f.streams.lookup r=some phase → phase≠.ended → r+1=n

section Functions

variable {f g : Front} {n r : ℕ}

section

variable (h : Inv n f)

include h

/-- The tables of associations, of channels and of waiting queries do not matter. -/
theorem Inv.of_eq (heq : owned g=owned f) : Inv n g where
  begun := (congrArg Owned.nextStream heq).trans h.begun
  links := by
    rw [show g.links=f.links from congrArg Owned.links heq]
    exact h.links
  queries := by
    rw [show g.queries=f.queries from congrArg Owned.queries heq]
    exact h.queries
  output := by
    rw [show g.udpgwOut=f.udpgwOut from congrArg Owned.udpgwOut heq]
    exact h.output
  lock := by
    rw [show g.udpgwLock=f.udpgwLock from congrArg Owned.udpgwLock heq]
    exact h.lock
  streams := by
    rw [show g.streams=f.streams from congrArg Owned.streams heq]
    exact h.streams
  newest := by
    rw [show g.streams=f.streams from congrArg Owned.streams heq]
    exact h.newest

theorem Inv.modifyLink (a : ℕ) {change : Link → Link}
    (hstream : ∀ link, (change link).stream=link.stream) : Inv n (f.modifyLink a change) := by
  rw [Front.modifyLink]
  split
  · rename_i link hlink
    refine {h with links := fun b link' hb => ?_}
    rw [lookup_insert_eq] at hb
    split at hb
    · cases hb
      rw [hstream]
      exact h.links a link hlink
    · exact h.links b link' hb
  · exact h

theorem Inv.close (a : ℕ) : Inv n (f.close a) := h.modifyLink a fun _ => rfl

theorem Inv.closeAll (table : Table ℕ) : Inv n (f.closeAll table) := by
  rw [Front.closeAll]
  induction table.entries generalizing f with
  | nil => exact h
  | cons e rest ih => exact ih (h.close e.2)

theorem Inv.openLink (hr : r<n) : Inv n (f.openLink r) := by
  refine {h with links := fun a link ha => ?_}
  rw [Front.openLink,lookup_insert_eq] at ha
  split at ha
  · cases ha
    exact hr
  · exact h.links a link ha

theorem Inv.modifyQuery (x : ℕ) (change : DnsPending → DnsPending) :
    Inv n (f.modifyQuery x change) := by
  rw [Front.modifyQuery]
  split
  · rename_i q hq
    refine {h with queries := fun y q' hy => ?_}
    rw [lookup_insert_eq] at hy
    split at hy
    · cases hy
      exact h.queries x q hq
    · exact h.queries y q' hy
  · exact h

theorem Inv.dnsChannel (hr : r<n) (index : ℕ) (agreed : Bool) :
    Inv n (f.dnsChannel r index agreed).1 := by
  rw [Front.dnsChannel]
  split
  · exact h
  · split
    · exact (h.openLink hr).of_eq rfl
    · exact h

/-- Sending a query tears nothing down. -/
theorem Inv.sendDnsQuery (hr : r<n) (x index : ℕ) (query : Bytes)
    (agreed sent : Bool) :
    Inv n (f.sendDnsQuery r x index query agreed sent).1 ∧
      ∀ e∈(f.sendDnsQuery r x index query agreed sent).2, Spares e := by
  have hopened := h.dnsChannel hr index agreed
  rw [Front.sendDnsQuery]
  split
  · exact ⟨hopened,by simp⟩
  · split
    · exact ⟨hopened,by simp⟩
    · split
      · exact ⟨hopened.modifyLink _ fun _ => rfl,by simp [Spares]⟩
      · split
        · refine ⟨Inv.close ?_ _,by simp⟩
          exact hopened.of_eq rfl
        · exact ⟨hopened,by simp⟩

/-- The thread of the newest stream goes on. -/
theorem Inv.goOn (hr : r+1=n) (phase : Phase) : Inv n (f.goOn r phase) := by
  refine {h with
    streams := fun r' phase' hr' => ?_
    newest := fun r' phase' hr' hphase => ?_}
  · rw [Front.goOn,lookup_insert_eq] at hr'
    split at hr'
    · omega
    · exact h.streams r' phase' hr'
  · rw [Front.goOn,lookup_insert_eq] at hr'
    split at hr'
    · omega
    · exact h.newest r' phase' hr' hphase

theorem Inv.submitDnsQuery (hr : r+1=n) (conid : ℕ) (isIpv6 : Bool)
    (d : Datagram) :
    Inv n (f.submitDnsQuery r conid isIpv6 d).1 ∧
      ∀ e∈(f.submitDnsQuery r conid isIpv6 d).2, Spares e := by
  rw [Front.submitDnsQuery]
  split
  · exact ⟨h.goOn hr _,by simp⟩
  · refine ⟨Inv.goOn ?_ hr _,by simp [Front.draw,Spares]⟩
    refine {h with queries := fun x q hx => ?_}
    rw [lookup_insert_eq] at hx
    split at hx
    · cases hx
      exact Nat.lt_of_succ_le hr.le
    · exact h.queries x q hx

theorem Inv.removeAndClose (conid : ℕ) : Inv n (f.removeAndClose conid) := by
  rw [Front.removeAndClose]
  split
  · refine Inv.close ?_ _
    exact h.of_eq rfl
  · exact h

theorem Inv.takeFrame (hr : r+1=n) (body : Bytes) : Inv n (f.takeFrame r body) := by
  rw [Front.takeFrame]
  split
  · exact h
  · rename_i frame _
    have hfreed : Inv n (if frame.rebind then f.removeAndClose frame.conid else f) := by
      split
      · exact h.removeAndClose _
      · exact h
    dsimp only
    split
    · exact hfreed
    · split <;> exact hfreed.goOn hr _

theorem Inv.makeRoom : Inv n f.makeRoom := by
  rw [Front.makeRoom]
  split
  · split
    · exact h.removeAndClose _
    · exact h
  · exact h

theorem Inv.sendOn (conid a size : ℕ) (sent : Bool) : Inv n (f.sendOn conid a size sent) := by
  have hused : Inv n (f.modifyLink a fun link => {link with lastUsed := f.now}) :=
    h.modifyLink a fun _ => rfl
  rw [Front.sendOn]
  split
  · exact (hused.close a).of_eq rfl
  · split
    · exact hused
    · exact hused.removeAndClose conid

theorem Inv.setUp (hr : r+1=n) (chore : Chore) : Inv n (f.setUp r chore) := by
  cases chore with
  | closeAssociations => exact (h.closeAll _).goOn hr _
  | clearAssociations | forget =>
    refine Inv.goOn ?_ hr _
    exact h.of_eq rfl
  | output =>
    refine Inv.goOn ?_ hr _
    exact {h with output := fun r' hr' => by cases hr'; omega}
  | lock =>
    refine Inv.goOn ?_ hr _
    exact {h with lock := fun r' hr' => by cases hr'; omega}
  | closeChannels | clearChannels => exact h.goOn hr _

/-- The end of a stream keeps what the others have in order. -/
theorem Inv.tearDown (hr : r+1=n) (chore : Chore) : Inv n (f.tearDown r chore).1 := by
  cases chore with
  | closeAssociations | closeChannels => exact (h.closeAll _).goOn hr _
  | clearAssociations | forget | clearChannels =>
    refine Inv.goOn ?_ hr _
    exact h.of_eq rfl
  | output =>
    refine Inv.goOn ?_ hr _
    exact {h with output := nofun}
  | lock =>
    refine Inv.goOn ?_ hr _
    exact {h with lock := nofun}

theorem Inv.linkOwners (table : Table ℕ) : ∀ r'∈f.linkOwners table, r'<n := by
  intro r' hmem
  obtain ⟨e,_,he⟩ := List.mem_filterMap.mp hmem
  obtain ⟨link,hlink,rfl⟩ := map_eq_some_iff.mp he
  exact h.links e.2 link hlink

theorem Inv.queryOwners : ∀ r'∈f.queryOwners, r'<n := by
  intro r' hmem
  obtain ⟨e,_,he⟩ := List.mem_filterMap.mp hmem
  obtain ⟨q,hq,rfl⟩ := map_eq_some_iff.mp he
  exact h.queries e.2 q hq

/-- What the end of a stream clears belongs to streams that have begun. -/
theorem Inv.lost (chore : Chore) : ∀ r'∈(f.tearDown r chore).2, r'<n := by
  cases chore with
  | closeAssociations | clearAssociations | closeChannels | clearChannels => exact h.linkOwners _
  | output => exact fun r' hr' => h.output r' (mem_toList.mp hr')
  | lock => exact fun r' hr' => h.lock r' (mem_toList.mp hr')
  | forget => exact h.queryOwners

/-- The thread of a stream that is not through is that of the newest one. -/
theorem Inv.readerStep {phase : Phase} {input : ReaderInput} {new : List Event}
    (hphase : f.streams.lookup r=some phase)
    (he : f.readerStep r phase input=some (g,new)) : Inv n g ∧ ∀ e∈new, Spares e := by
  have hr : r+1=n := by
    refine h.newest r phase hphase ?_
    rintro rfl
    cases he
  unfold Front.readerStep at he
  split at he
  · cases he
    exact ⟨h.setUp hr _,by simp⟩
  · cases he
    exact ⟨h.takeFrame hr _,by simp⟩
  · cases he
    exact ⟨h.goOn hr _,by simp⟩
  · rename_i conid isIpv6 d
    have hsubmitted := h.submitDnsQuery hr conid isIpv6 d
    rw [some.inj he] at hsubmitted
    exact hsubmitted
  · cases he
    refine ⟨?_,by simp⟩
    rw [Front.check]
    split
    · split
      · exact h.goOn hr _
      · exact h.goOn hr _
    · exact h.goOn hr _
  · cases he
    refine ⟨Inv.goOn ?_ hr _,by simp⟩
    exact h.of_eq rfl
  · obtain ⟨q,_,heq⟩ := map_eq_some_iff.mp he
    cases heq
    refine ⟨Inv.goOn ?_ hr _,by simp [Spares]⟩
    exact h.of_eq rfl
  · obtain ⟨q,_,heq⟩ := map_eq_some_iff.mp he
    cases heq
    obtain ⟨hsent,hevents⟩ := (h.modifyQuery _ _).sendDnsQuery (Nat.lt_of_succ_le hr.le)
      _ _ q.asked.query _ _
    exact ⟨hsent.goOn hr _,hevents⟩
  · split at he
    · cases he
      exact ⟨h.goOn hr _,by simp⟩
    · cases he
      exact ⟨h.goOn hr _,by simp⟩
  · cases he
    exact ⟨h.makeRoom.goOn hr _,by simp⟩
  · split at he
    · cases he
      exact ⟨(h.openLink (Nat.lt_of_succ_le hr.le)).goOn hr _,by simp⟩
    · cases he
      exact ⟨h.goOn hr _,by simp⟩
  · cases he
    refine ⟨Inv.goOn ?_ hr _,by simp⟩
    exact h.of_eq rfl
  · cases he
    exact ⟨(h.sendOn _ _ _ _).goOn hr _,by simp⟩
  · cases he
    refine ⟨h.tearDown hr _,?_⟩
    intro e hmem
    obtain rfl := List.mem_singleton.mp hmem
    intro r' hr'
    have hbound := h.lost _ r' hr'
    omega
  · cases he

/-- A stream begins after all others are through. -/
theorem Inv.streamUp (halone : alone f .streamUp=true) :
    Inv (n+1) {f with
      streams := f.streams.insert f.nextStream (.starting .closeAssociations)
      nextStream := f.nextStream+1} where
  begun := by rw [h.begun]
  links a link ha := Nat.lt_succ_of_lt (h.links a link ha)
  queries x q hx := Nat.lt_succ_of_lt (h.queries x q hx)
  output r hr := Nat.lt_succ_of_lt (h.output r hr)
  lock r hr := Nat.lt_succ_of_lt (h.lock r hr)
  streams r phase hr := by
    rw [lookup_insert_eq,h.begun] at hr
    split at hr
    · omega
    · exact Nat.lt_succ_of_lt (h.streams r phase hr)
  newest r phase hr hphase := by
    rw [lookup_insert_eq,h.begun] at hr
    split at hr
    · omega
    · -- an earlier stream, which is through by the condition
      have hended := List.all_eq_true.mp halone ⟨r,phase⟩ (AList.mem_lookup_iff.mp hr)
      exact absurd (of_decide_eq_true hended) hphase

theorem Inv.reap (conid : ℕ) : Inv n (f.reap conid) := by
  rw [Front.reap]
  split
  · split
    · exact (h.close _).of_eq rfl
    · exact h
  · exact h

theorem Inv.look (token captured : ℕ) : Inv n (f.look token captured) := by
  rw [Front.look]
  split
  · exact h
  · split
    · exact h
    · split
      · exact h.of_eq rfl
      · split
        · exact h.of_eq rfl
        · exact h

theorem Inv.takeReply (p index : ℕ) (packet : Bytes) :
    Inv n (f.takeReply p index packet).1 ∧ ∀ e∈(f.takeReply p index packet).2, Spares e := by
  rw [Front.takeReply]
  split
  · exact ⟨h,by simp⟩
  · split
    · exact ⟨h,by simp⟩
    · split
      · exact ⟨h,by simp⟩
      · exact ⟨h.of_eq rfl,by simp [Spares]⟩

theorem Inv.writeReply (p x : ℕ) (payload : Bytes) (q : Asked) :
    Inv n (f.writeReply p x payload q).1 ∧ ∀ e∈(f.writeReply p x payload q).2, Spares e := by
  rw [Front.writeReply]
  split
  · exact ⟨h.of_eq rfl,by simp [Spares]⟩
  · exact ⟨h.of_eq rfl,by simp⟩

theorem Inv.resend {x : ℕ} {q : DnsPending} (hq : f.queries.lookup x=some q)
    (captured : ℕ) (agreed sent : Bool) :
    Inv n (f.resend x captured q agreed sent).1 ∧
      ∀ e∈(f.resend x captured q agreed sent).2, Spares e := by
  rw [Front.resend]
  refine Inv.sendDnsQuery ?_ (h.queries x q hq) _ _ _ _ _
  refine Inv.modifyQuery ?_ _ _
  exact h.of_eq rfl

/-- A step of a run that meets the condition spares newer streams. -/
theorem Inv.exec {action : Action} {new : List Event}
    (halone : alone f action=true) (he : f.exec action=some (g,new)) :
    (∃ n', Inv n' g) ∧ ∀ e∈new, Spares e := by
  cases action with
  | advance milliseconds | start =>
    cases he
    exact ⟨⟨n,h.of_eq rfl⟩,by simp⟩
  | stop =>
    cases he
    refine ⟨⟨n,?_⟩,by simp⟩
    split
    · exact (h.closeAll _).of_eq rfl
    · exact h
  | streamUp =>
    cases he
    exact ⟨⟨n+1,h.streamUp halone⟩,by simp⟩
  | reader r input =>
    obtain ⟨phase,hphase,hstep⟩ := bind_eq_some_iff.mp he
    obtain ⟨hinv,hevents⟩ := h.readerStep hphase hstep
    exact ⟨⟨n,hinv⟩,hevents⟩
  | warm r index agreed =>
    simp only [Front.exec] at he
    split_ifs at he with hsome
    cases he
    obtain ⟨phase,hphase⟩ := isSome_iff_exists.mp hsome
    exact ⟨⟨n,h.dnsChannel (h.streams r phase hphase) index agreed⟩,by simp⟩
  | probe index =>
    cases he
    refine ⟨⟨n,?_⟩,by simp⟩
    split
    · exact h.of_eq rfl
    · exact h
  | reply p index packet =>
    simp only [Front.exec] at he
    split_ifs at he
    have htaken := h.takeReply p index packet
    rw [some.inj he] at htaken
    exact ⟨⟨n,htaken.1⟩,htaken.2⟩
  | write p =>
    obtain ⟨claim,_,hrest⟩ := bind_eq_some_iff.mp he
    obtain ⟨q,_,heq⟩ := map_eq_some_iff.mp hrest
    have hwritten := h.writeReply p claim.1 claim.2 q.asked
    rw [heq] at hwritten
    exact ⟨⟨n,hwritten.1⟩,hwritten.2⟩
  | look token captured =>
    simp only [Front.exec] at he
    split_ifs at he
    cases he
    exact ⟨⟨n,h.look token captured⟩,by simp⟩
  | expire token | remove conid =>
    simp only [Front.exec] at he
    split_ifs at he
    cases he
    exact ⟨⟨n,h.of_eq rfl⟩,by simp⟩
  | resend x captured agreed sent =>
    simp only [Front.exec] at he
    split_ifs at he
    obtain ⟨q,hq,heq⟩ := map_eq_some_iff.mp he
    have hsent := h.resend hq captured agreed sent
    rw [heq] at hsent
    exact ⟨⟨n,hsent.1⟩,hsent.2⟩
  | channelEnds index c =>
    cases he
    refine ⟨⟨n,Inv.close ?_ c⟩,by simp⟩
    exact h.of_eq rfl
  | associationEnds conid a =>
    cases he
    refine ⟨⟨n,Inv.close ?_ a⟩,by simp⟩
    exact h.of_eq rfl
  | receive a =>
    cases he
    exact ⟨⟨n,h.modifyLink a fun _ => rfl⟩,by simp⟩
  | reap conid =>
    cases he
    exact ⟨⟨n,h.reap conid⟩,by simp⟩

end

/-- At the start there are no streams. -/
theorem inv_start (h : machine.start f) : Inv 0 f := by
  obtain ⟨seq,preferred,rfl⟩ := h
  refine ⟨rfl,?_,?_,?_,?_,?_,?_⟩
  · nofun
  · nofun
  · nofun
  · nofun
  · nofun
  · nofun

end Functions

/-- If every stream begins after all earlier ones are through, the end of a stream never clears
anything of a newer one. -/
theorem run_spares {t : List Event} {f : Front}
    (h : machine.Run (fun _ f a => alone f a=true) t f) : ∀ e∈t, Spares e := by
  have hsafe := h.safe (fun f => ∃ n, Inv n f) Spares (fun _ hstart => ⟨0,inv_start hstart⟩)
    (fun _ _ _ _ _ hinv _ hcond he => hinv.elim fun _ h => h.exec hcond he)
  exact hsafe.2

/-- A stream begins. -/
def sampleStart (r : ℕ) : List Action := .streamUp::List.replicate 5 (.reader r .go)

/-- The frame of a query for the resolver. -/
def sampleQuery (id : UInt8) : Bytes := [4,7,0,10,0,0,2,0,53,0,id,1,0,0,1,0,0,0,0,0,0,0]

/-- The frame of a datagram for another flow. -/
def sampleDatagram : Bytes := [0,9,0,9,9,9,9,1,187,42]

/-- A stream is used for a flow and for a query. -/
def sampleUse (r : ℕ) : List Action :=
  [.reader r (.frame sampleDatagram),.reader r .go,.reader r .go,.reader r (.opened true),
    .reader r .go,.reader r (.send true),.reader r (.frame (sampleQuery 1)),.reader r .go,
    .reader r .go,.reader r .go,.reader r (.ask true true)]

/-- A stream ends. -/
def sampleEnd (r : ℕ) : List Action := .reader r .down::List.replicate 7 (.reader r .go)

/-- Two streams come one after the other. -/
theorem run_spares_sample :
    ∃ t f, machine.Run (fun _ f a => alone f a=true) t f ∧
      (f.udpgwOut=some 1 ∧ Event.tornDown 0 .forget [0]∈t) ∧ ∀ e∈t, Spares e :=
  Machine.exists_run_with alone (fun _ _ _ h => ⟨trivial,h⟩) ⟨0,0,rfl⟩
    (.start::sampleStart 0++sampleUse 0++sampleEnd 0++sampleStart 1++sampleUse 1)
    (by decide +kernel) fun _ _ => run_spares

/-- The front is stopped and started again. The thread of the old stream is still there when
the new stream is in use, and its end takes the output, the lock, the flow, the query and the
channel of the new one. -/
theorem run_disabled :
    ∃ t f, machine.Run always t f ∧ f.udpgwOut=none ∧
      (∀ chore : Chore, Event.tornDown 0 chore [1]∈t) ∧ ¬∀ e∈t, Spares e := by
  obtain ⟨t,f,hrun,hout,hchores⟩ : ∃ t f, machine.Run always t f ∧ f.udpgwOut=none ∧
      ∀ chore∈[Chore.closeAssociations,.clearAssociations,.output,.lock,.forget,
        .closeChannels,.clearChannels], Event.tornDown 0 chore [1]∈t :=
    Machine.exists_run (fun _ _ => true) (fun _ _ _ _ => ⟨trivial,trivial⟩) ⟨0,0,rfl⟩
      (.start::sampleStart 0++.stop::.start::sampleStart 1++sampleUse 1++sampleEnd 0)
      (by decide +kernel)
  have hlost : ∀ chore : Chore, Event.tornDown 0 chore [1]∈t := by
    intro chore
    exact hchores chore (by cases chore <;> decide)
  refine ⟨t,f,hrun,hout,hlost,fun hspares => ?_⟩
  have hle := hspares _ (hlost .output) 1 (List.mem_singleton.mpr rfl)
  omega

end MsnGuard.ShardStreams
