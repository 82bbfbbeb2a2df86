import MsnGuard.UdpgwExchanges

/-!
# Every answer belongs to its query

A query that waits has its own entry, and an entry has a query that waits. An entry put in
before the channel is marked is cleared with the others; a query that comes later sees the mark
and does not wait.
-/

namespace MsnGuard.UdpgwMatching

open RustText IpAddresses TransitionRuns FiniteTables UdpgwExchanges List Option Function

variable {t events : List Event} {c c' : Channel} {place : WriteAt} {i : WriteInput}
  {written : Written} {x : ℕ} {e : Exchange}

/-- The answer is a frame with the slot and the number the query was sent with, and
the first two bytes are the query's own. -/
def Answers (t : List Event) (x : ℕ) (answer : Bytes) : Prop :=
  ∃ query resolver slot id frame payload, .asked x query resolver∈t ∧
    .sent x (dnsFrame slot id query resolver)∈t ∧ .received frame∈t ∧
    dnsReply frame=some (slot,id,payload) ∧ answer=restore query payload

/-- A query is asked once, sent once and returns once; its answer is its own. -/
def Law (before : List Event) : Event → Prop
  | .asked x _ _ => ∀ query resolver, .asked x query resolver ∉ before
  | .sent x _ => ∀ frame, .sent x frame ∉ before
  | .returned x result => (∀ r, .returned x r ∉ before) ∧
      ∀ answer, result=.ok answer → Answers before x answer
  | _ => True

/-- The query an event is about. -/
def about : Event → Option ℕ
  | .asked x _ _ | .sent x _ | .returned x _ | .cancelled x => some x
  | .received _ | .invalidated => none

/-- The channel has been marked by this writer. -/
def markedWrite : WriteAt → Bool
  | .failing _ _ marked => marked
  | _ => false

/-- The channel has been marked by the task that keeps it alive. -/
def markedKeeper : Keeper → Bool
  | .write place => markedWrite place
  | _ => false

/-- The channel has been marked by the reader. -/
def markedReader : Reader → Bool
  | .closing marked => marked
  | _ => false

/-- What is known of a query where it stands. -/
def StageOk (t : List Event) (alive : Bool) (x : ℕ) (e : Exchange) : Stage → Prop
  | .write place => (∀ frame, .sent x frame ∉ t) ∧ (markedWrite place=true → alive=false)
  | .cancelling marked => marked=true → alive=false
  | .awaiting => .sent x (dnsFrame e.slot e.id e.query e.resolver)∈t
  | .leaving result => ∀ answer, result=some (.ok answer) → Answers t x answer

/-- What is known of a query under way. -/
structure Known (t : List Event) (alive : Bool) (x : ℕ) (e : Exchange) : Prop where
  asked : .asked x e.query e.resolver∈t
  handed : ∀ payload, e.inbox=.delivered payload →
    ∃ frame, .received frame∈t ∧ dnsReply frame=some (e.slot,e.id,payload)
  pending : (∀ r, .returned x r ∉ t) ∧ .cancelled x ∉ t
  told : .invalidated∈t → e.inbox=.waiting →
    e.stage=.write .entering ∨ ∃ result, e.stage=.leaving result
  stage : StageOk t alive x e e.stage

/-- The entries and the queries that wait belong together. -/
structure Sound (t : List Event) (c : Channel) : Prop where
  size : c.entries.entries.length ≤ maxPending
  owner : ∀ {id slot x}, c.entries.lookup id=some (slot,x) →
    ∃ e, c.exchanges x=some e ∧ e.id=id ∧ e.slot=slot ∧ e.inbox=.waiting
  listed : ∀ {x e}, c.exchanges x=some e → e.inbox=.waiting → c.entries.lookup e.id=some (e.slot,x)
  known : ∀ {x e}, c.exchanges x=some e → Known t c.alive x e
  dead : .invalidated∈t → c.alive=false
  keeper : markedKeeper c.keeper=true → c.alive=false
  reader : markedReader c.reader=true → c.alive=false
  fresh : ∀ ev∈t, ∀ x, about ev=some x → x<c.nextExchange
  law : Guarded Law t

section Growth

variable {t new : List Event} {alive alive' : Bool} {x : ℕ} {e : Exchange}

theorem Answers.append {answer : Bytes} (h : Answers t x answer) : Answers (t++new) x answer := by
  obtain ⟨query,resolver,slot,id,frame,payload,hasked,hsent,hreceived,hreply,hanswer⟩ := h
  exact ⟨query,resolver,slot,id,frame,payload,mem_append_left _ hasked,
    mem_append_left _ hsent,mem_append_left _ hreceived,hreply,hanswer⟩

/-- An event about a query that is not in the history and not new is not there. -/
theorem notMem_append {ev : Event} (h : ev ∉ t) (hev : about ev=some x)
    (hnew : ∀ ev∈new, about ev≠some x) : ev ∉ t++new := by
  intro hmem
  rcases mem_append.mp hmem with hold | hadded
  · exact h hold
  · exact hnew ev hadded hev

theorem StageOk.append {stage : Stage} (h : StageOk t alive x e stage)
    (hnew : ∀ ev∈new, about ev≠some x) (halive : alive=false → alive'=false) :
    StageOk (t++new) alive' x e stage := by
  cases stage with
  | write place =>
    exact ⟨fun frame => notMem_append (h.1 frame) rfl hnew,fun hmarked => halive (h.2 hmarked)⟩
  | awaiting => exact mem_append_left _ h
  | cancelling marked => exact fun hmarked => halive (h hmarked)
  | leaving result => exact fun answer hanswer => (h answer hanswer).append

section

variable (h : Known t alive x e)

include h

/-- What is known stays known while nothing happens to the query. -/
theorem Known.append (hnew : ∀ ev∈new, about ev≠some x)
    (hquiet : .invalidated∈new → e.inbox≠.waiting) (halive : alive=false → alive'=false) :
    Known (t++new) alive' x e where
  asked := mem_append_left _ h.asked
  handed payload hinbox := by
    obtain ⟨frame,hreceived,hreply⟩ := h.handed payload hinbox
    exact ⟨frame,mem_append_left _ hreceived,hreply⟩
  pending := ⟨fun r => notMem_append (h.pending.1 r) rfl hnew,notMem_append h.pending.2 rfl hnew⟩
  told hmem hinbox := by
    rcases mem_append.mp hmem with hold | hadded
    · exact h.told hold hinbox
    · exact absurd hinbox (hquiet hadded)
  stage := h.stage.append hnew halive

/-- A query that has been told something stays known when the channel is given up. -/
theorem Known.invalidated (hinbox : e.inbox≠.waiting) :
    Known (t++[.invalidated]) alive x e :=
  h.append (by simp [about]) (fun _ => hinbox) id

/-- A query is told something. -/
theorem Known.tell {inbox : Inbox} (hwaiting : inbox≠.waiting)
    (hpayload : ∀ payload, inbox=.delivered payload →
      ∃ frame, .received frame∈t ∧ dnsReply frame=some (e.slot,e.id,payload)) :
    Known t alive x {e with inbox := inbox} where
  __ := h
  handed := hpayload
  told _ hinbox := absurd hinbox hwaiting
  stage := by
    have hstage := h.stage
    cases hs : e.stage <;> rw [hs] at hstage <;> exact hstage

/-- The frame of a query is sent. -/
theorem Known.sent (htold : .invalidated∈t → e.inbox≠.waiting) :
    Known (t++[.sent x (dnsFrame e.slot e.id e.query e.resolver)]) alive x
      {e with stage := .awaiting} where
  asked := mem_append_left _ h.asked
  handed payload hpayload := by
    obtain ⟨frame,hreceived,hreply⟩ := h.handed payload hpayload
    exact ⟨frame,mem_append_left _ hreceived,hreply⟩
  pending := by simpa using h.pending
  told hmem hinbox := absurd hinbox (htold (by simpa using hmem))
  stage := mem_append_right _ (mem_singleton_self _)

/-- A query goes on elsewhere. -/
theorem Known.move {stage : Stage} (hstage : StageOk t alive x e stage)
    (htold : .invalidated∈t → e.inbox=.waiting → ∃ result, stage=.leaving result) :
    Known t alive x {e with stage := stage} where
  __ := h
  told hmem hinbox := .inr (htold hmem hinbox)
  stage := by cases stage <;> exact hstage

end

end Growth

theorem setStage_exchanges (c : Channel) (x : ℕ) (stage : Stage) :
    (c.setStage x stage).exchanges=update c.exchanges x
      ((c.exchanges x).map fun e => {e with stage := stage}) := rfl

namespace Sound

variable {t new : List Event} {c c' : Channel} {x : ℕ} {e : Exchange}

section

variable (h : Sound t c)

include h

theorem lt_nextExchange (hx : c.exchanges x=some e) : x<c.nextExchange :=
  h.fresh _ (h.known hx).asked x rfl

/-- New events are about queries that have begun. -/
theorem fresh_append {n : ℕ} (hn : c.nextExchange≤n)
    (hnew : ∀ ev∈new, ∀ y, about ev=some y → y<n) : ∀ ev∈t++new, ∀ y, about ev=some y → y<n := by
  intro ev hmem y hy
  rcases mem_append.mp hmem with hold | hadded
  · exact (h.fresh ev hold y hy).trans_le hn
  · exact hnew ev hadded y hy

theorem fresh_about {n : ℕ} (hn : c.nextExchange≤n) (hx : x<n)
    (hnew : ∀ ev∈new, about ev=some x) : ∀ ev∈t++new, ∀ y, about ev=some y → y<n := by
  refine h.fresh_append hn fun ev hev y hy => ?_
  rw [hnew ev hev] at hy
  rwa [←some_inj.mp hy]

/-- The events about one query do not give up the channel. -/
theorem dead_append (hnew : ∀ ev∈new, about ev=some x)
    (hmem : .invalidated∈t++new) : c.alive=false := by
  rcases mem_append.mp hmem with hold | hadded
  · exact h.dead hold
  · cases hnew _ hadded

/-- The events about one query leave what is known of the others. -/
theorem known_append (hnew : ∀ ev∈new, about ev=some x) {y : ℕ}
    (hy : c.exchanges y=some e) (hne : y≠x) : Known (t++new) c.alive y e := by
  refine (h.known hy).append (fun ev hev habout => hne ?_) (fun hmem => ?_) id
  · rw [hnew ev hev] at habout
    exact (some_inj.mp habout).symm
  · cases hnew _ hmem

/-- A change beside the entries and the queries. -/
theorem aside (hentries : c'.entries=c.entries)
    (hexchanges : c'.exchanges=c.exchanges) (hnext : c'.nextExchange=c.nextExchange)
    (halive : c.alive=false → c'.alive=false)
    (hkeeper : markedKeeper c'.keeper=true → c'.alive=false)
    (hreader : markedReader c'.reader=true → c'.alive=false) : Sound t c' where
  size := hentries ▸ h.size
  owner hlookup := by
    rw [hentries] at hlookup
    rw [hexchanges]
    exact h.owner hlookup
  listed hx hinbox := by
    rw [hexchanges] at hx
    rw [hentries]
    exact h.listed hx hinbox
  known hx := by
    rw [hexchanges] at hx
    have hknown : Known (t++[]) c'.alive _ _ :=
      (h.known hx).append (by simp) (by simp) halive
    rwa [append_nil] at hknown
  dead hmem := halive (h.dead hmem)
  keeper := hkeeper
  reader := hreader
  fresh := hnext ▸ h.fresh
  law := h.law

/-- A frame is read; the entries are not touched yet. -/
theorem received (frame : Bytes) : Sound (t++[.received frame]) c where
  __ := h
  known hx := (h.known hx).append (by simp [about]) (by simp) id
  dead hmem := h.dead (by simpa using hmem)
  fresh := h.fresh_append le_rfl (by simp [about])
  law := h.law.concat trivial

/-- A query goes on elsewhere; the new events are about it. -/
theorem setStage {stage : Stage}
    (hnew : ∀ ev∈new, about ev=some x)
    (hknown : Known (t++new) c.alive x {e with stage := stage})
    (hx : c.exchanges x=some e) (hlaw : Guarded Law (t++new)) :
    Sound (t++new) (c.setStage x stage) where
  __ := h
  owner hlookup := by
    obtain ⟨e',hy,hid,hslot,hinbox⟩ := h.owner hlookup
    rename_i y
    rcases eq_or_ne y x with rfl | hne
    · refine ⟨{e' with stage := stage},?_,hid,hslot,hinbox⟩
      rw [setStage_exchanges,update_self,hy,map_some]
    · refine ⟨e',?_,hid,hslot,hinbox⟩
      rw [setStage_exchanges,update_of_ne hne,hy]
  listed hy hinbox := by
    rcases update_eq_some hy with ⟨rfl,hmap⟩ | ⟨-,hold⟩
    · obtain ⟨e',he',rfl⟩ := map_eq_some_iff.mp hmap
      have hlisted := h.listed he' hinbox
      exact hlisted
    · exact h.listed hold hinbox
  known hy := by
    rcases update_eq_some hy with ⟨rfl,hmap⟩ | ⟨hne,hold⟩
    · obtain ⟨e',he',rfl⟩ := map_eq_some_iff.mp hmap
      rw [hx] at he'
      cases he'
      exact hknown
    · exact h.known_append hnew hold hne
  dead := h.dead_append hnew
  fresh := h.fresh_about le_rfl (h.lt_nextExchange hx) hnew
  law := hlaw

/-- The entry of a number is taken out and its query is told. -/
theorem resolve (id : ℕ) (inbox : Inbox) (hwaiting : inbox≠.waiting)
    (hpayload : ∀ slot x payload, c.entries.lookup id=some (slot,x) → inbox=.delivered payload →
      ∃ frame, .received frame∈t ∧ dnsReply frame=some (slot,id,payload)) :
    Sound t (c.resolve id inbox) := by
  unfold Channel.resolve
  split
  · exact h
  · rename_i slot x hlookup
    obtain ⟨e,hx,hid,hslot,-⟩ := h.owner hlookup
    refine ⟨?_,?_,?_,?_,h.dead,h.keeper,h.reader,h.fresh,h.law⟩
    · exact (List.Sublist.length_le (kerase_sublist id c.entries.entries)).trans h.size
    · intro k s y hk
      rw [lookup_erase_eq] at hk
      split_ifs at hk with hne
      obtain ⟨e',hy,hid',hslot',hinbox'⟩ := h.owner hk
      have hyx : y≠x := by
        rintro rfl
        rw [hx] at hy
        cases hy
        exact hne (hid'.symm.trans hid)
      exact ⟨e',(update_of_ne hyx _ _).trans hy,hid',hslot',hinbox'⟩
    · intro y e' hy hinbox'
      rcases update_eq_some hy with ⟨rfl,hmap⟩ | ⟨hne,hold⟩
      · obtain ⟨e'',-,rfl⟩ := map_eq_some_iff.mp hmap
        exact absurd hinbox' hwaiting
      · have hlisted := h.listed hold hinbox'
        have hidne : e'.id≠id := by
          intro heq
          rw [heq,hlookup] at hlisted
          exact hne (congrArg Prod.snd (some_inj.mp hlisted)).symm
        rw [lookup_erase_eq,if_neg hidne,hlisted]
    · intro y e' hy
      rcases update_eq_some hy with ⟨rfl,hmap⟩ | ⟨-,hold⟩
      · obtain ⟨e'',he'',rfl⟩ := map_eq_some_iff.mp hmap
        rw [hx] at he''
        cases he''
        refine (h.known hx).tell hwaiting fun payload hinbox => ?_
        rw [hslot,hid]
        exact hpayload slot y payload hlookup hinbox
      · exact h.known hold

/-- What a query is after all entries have been taken out. -/
theorem of_drain {e' : Exchange} (hx : c.drain.exchanges x=some e') :
    ∃ e, c.exchanges x=some e ∧ e'.inbox≠.waiting ∧
      (e'=e ∨ e'={e with inbox := .failed closedError}) := by
  obtain ⟨e,he,heq⟩ := map_eq_some_iff.mp hx
  refine ⟨e,he,?_⟩
  split_ifs at heq with hany
  · exact ⟨by rw [←heq]; simp,.inr heq.symm⟩
  · refine ⟨fun hinbox => hany (any_eq_true.mpr ⟨⟨e.id,e.slot,x⟩,?_,beq_self_eq_true x⟩),
      .inl heq.symm⟩
    exact AList.mem_lookup_iff.mp (h.listed he (by rwa [heq]))

/-- All entries are taken out of a channel that is marked. -/
theorem drain (hdead : c.alive=false) :
    Sound (t++[.invalidated]) c.drain where
  __ := h
  size := Nat.zero_le _
  owner hlookup := by cases hlookup
  listed hx hinbox := by
    obtain ⟨-,-,hne,-⟩ := h.of_drain hx
    exact absurd hinbox hne
  known hx := by
    obtain ⟨e,he,hne,rfl | rfl⟩ := h.of_drain hx
    · exact (h.known he).invalidated hne
    · exact ((h.known he).tell (by simp) (by simp)).invalidated hne
  dead _ := hdead
  fresh := h.fresh_append le_rfl (by simp [about])
  law := h.law.concat trivial

theorem release (agent : Agent) : Sound t (c.release agent) := by
  unfold Channel.release
  split
  · exact h.aside rfl rfl rfl id h.keeper h.reader
  · exact h

theorem mark : Sound t c.mark :=
  h.aside rfl rfl rfl (fun _ => rfl) (fun _ => rfl) (fun _ => rfl)

/-- A reply is handed over. -/
theorem deliver {frame : Bytes} (hmem : .received frame∈t) : Sound t (c.deliver frame) := by
  unfold Channel.deliver
  split
  · exact h
  · rename_i slot id payload hreply
    split_ifs with hslot
    · refine h.resolve id (.delivered payload) (by simp) fun slot' x payload' hlookup hinbox => ?_
      rw [hlookup,any_some,beq_iff_eq] at hslot
      cases hinbox
      exact ⟨frame,hmem,by rw [hreply,←hslot]⟩
    · exact h

end

end Sound

/-- What one step of writing a frame does to the rest. -/
structure WriteOk (t : List Event) (c : Channel) (place : WriteAt) (c' : Channel)
    (written : Written) (events : List Event) : Prop where
  sound : Sound (t++events) c'
  keeper : c'.keeper=c.keeper
  stages : ∀ x, (c'.exchanges x).map Exchange.stage=(c.exchanges x).map Exchange.stage
  marked : ∀ place', written=.inl place' → markedWrite place'=true → c'.alive=false
  entered : ∀ place', written=.inl place' → place=.entering → c'.alive=true
  finished : written=.inr (.ok ()) → c'.exchanges=c.exchanges ∧ events=[] ∧ place≠.entering

theorem release_exchanges (c : Channel) (agent : Agent) :
    (c.release agent).exchanges=c.exchanges := by
  unfold Channel.release
  split <;> rfl

theorem release_keeper (c : Channel) (agent : Agent) : (c.release agent).keeper=c.keeper := by
  unfold Channel.release
  split <;> rfl

theorem drain_stages (c : Channel) (x : ℕ) :
    (c.drain.exchanges x).map Exchange.stage=(c.exchanges x).map Exchange.stage := by
  change ((c.exchanges x).map _).map _=_
  rw [Option.map_map]
  congr 1
  funext e
  rw [comp_apply]
  split <;> rfl

theorem writeStep_ok {agent : Agent} (h : Sound t c)
    (hmarked : markedWrite place=true → c.alive=false)
    (hstep : writeStep c agent place i=some (c',written,events)) :
    WriteOk t c place c' written events := by
  have hquiet : Sound (t++[]) c := by rwa [append_nil]
  unfold writeStep at hstep
  split at hstep
  case h_1 =>
    split_ifs at hstep with halive
    · cases hstep
      exact ⟨hquiet,rfl,fun _ => rfl,by rintro _ ⟨⟩ ⟨⟩,fun _ _ _ => halive,nofun⟩
    · cases hstep
      exact ⟨hquiet,rfl,fun _ => rfl,nofun,nofun,nofun⟩
  case h_2 =>
    split_ifs at hstep
    cases hstep
    exact ⟨hquiet.aside rfl rfl rfl id h.keeper h.reader,rfl,fun _ => rfl,by rintro _ ⟨⟩ ⟨⟩,
      nofun,nofun⟩
  case h_3 =>
    cases hstep
    exact ⟨hquiet,rfl,fun _ => rfl,by rintro _ ⟨⟩ ⟨⟩,nofun,nofun⟩
  case h_4 =>
    split at hstep
    · cases hstep
      exact ⟨hquiet,rfl,fun _ => rfl,by rintro _ ⟨⟩ ⟨⟩,nofun,nofun⟩
    · cases hstep
      exact ⟨hquiet.release agent,release_keeper c agent,fun _ => by rw [release_exchanges],
        by rintro _ ⟨⟩ ⟨⟩,nofun,nofun⟩
  case h_5 =>
    cases hstep
    exact ⟨hquiet.release agent,release_keeper c agent,fun _ => by rw [release_exchanges],
      nofun,nofun,fun _ => ⟨release_exchanges c agent,rfl,nofun⟩⟩
  case h_6 =>
    cases hstep
    exact ⟨hquiet,rfl,fun _ => rfl,by rintro _ ⟨⟩ ⟨⟩,nofun,nofun⟩
  case h_7 =>
    cases hstep
    exact ⟨hquiet,rfl,fun _ => rfl,by rintro _ ⟨⟩ ⟨⟩,nofun,nofun⟩
  case h_8 =>
    cases hstep
    exact ⟨hquiet.mark,rfl,fun _ => rfl,fun _ _ _ => rfl,nofun,nofun⟩
  case h_9 =>
    cases hstep
    refine ⟨(h.drain (hmarked rfl)).release agent,(release_keeper _ agent).trans rfl,
      fun x => by rw [release_exchanges,drain_stages],?_,nofun,?_⟩
    · intro place' hplace hmark
      split at hplace <;> cases hplace
      cases hmark
    · intro hwritten
      split at hwritten <;> cases hwritten
  case h_10 => cases hstep

namespace Sound

variable {t : List Event} {c c' : Channel} {x : ℕ} {e : Exchange}

/-- A query steps aside; nothing is seen of it. -/
theorem setStage_quiet (h : Sound t c) (hx : c.exchanges x=some e) {stage : Stage}
    (hstage : StageOk t c.alive x e stage)
    (htold : .invalidated∈t → e.inbox=.waiting → ∃ result, stage=.leaving result) :
    Sound t (c.setStage x stage) := by
  have hknown : Known (t++[]) c.alive x {e with stage := stage} := by
    rw [append_nil]
    exact (h.known hx).move hstage htold
  have hlaw : Guarded Law (t++[]) := by
    rw [append_nil]
    exact h.law
  have hsound := h.setStage (by simp) hknown hx hlaw
  rwa [append_nil] at hsound

/-- A query that is being written and is not at the entry has been told of a failure. -/
theorem told_write (h : Sound t c) (hx : c.exchanges x=some e) {place : WriteAt}
    (hstage : e.stage=.write place) (hplace : place=.entering → c.alive=true)
    (hmem : .invalidated∈t) : e.inbox≠.waiting := by
  intro hinbox
  rcases (h.known hx).told hmem hinbox with hentering | ⟨result,hleaving⟩
  · rw [hstage] at hentering
    have halive := hplace (Stage.write.inj hentering)
    rw [h.dead hmem] at halive
    cases halive
  · rw [hstage] at hleaving
    cases hleaving

/-- A query comes to its end. -/
theorem leave (h : Sound t c) (hx : c.exchanges x=some e) {result : Option (Except String Bytes)}
    (hresult : ∀ answer, result=some (.ok answer) → Answers t x answer) :
    Sound t (c.setStage x (.leaving result)) :=
  h.setStage_quiet hx hresult fun _ _ => ⟨result,rfl⟩

/-- What is made of a reply answers the query. -/
theorem answers (h : Sound t c) (hx : c.exchanges x=some e) (hstage : e.stage=.awaiting)
    {answer : Bytes} (hresult : e.inbox.result e.query=some (.ok answer)) : Answers t x answer := by
  have hknown := h.known hx
  have hsent := hknown.stage
  rw [hstage] at hsent
  cases hinbox : e.inbox with
  | delivered payload =>
    obtain ⟨frame,hreceived,hreply⟩ := hknown.handed payload hinbox
    rw [hinbox] at hresult
    cases hresult
    exact ⟨e.query,e.resolver,e.slot,e.id,frame,payload,hknown.asked,hsent,hreceived,hreply,rfl⟩
  | waiting | failed | dropped =>
    rw [hinbox] at hresult
    cases hresult

/-- A query without an entry is over. -/
theorem remove (h : Sound t c) (hx : c.exchanges x=some e) {ev : Event}
    (hentry : ∀ id slot, c.entries.lookup id≠some (slot,x))
    (hev : about ev=some x) (hlaw : Law t ev) :
    Sound (t++[ev]) {c with exchanges := update c.exchanges x none} := by
  have hnew : ∀ ev'∈[ev], about ev'=some x := by
    intro ev' hmem
    rw [mem_singleton.mp hmem]
    exact hev
  refine ⟨h.size,?_,?_,?_,h.dead_append hnew,h.keeper,h.reader,
    h.fresh_about le_rfl (h.lt_nextExchange hx) hnew,h.law.concat hlaw⟩
  · intro id slot y hlookup
    have hne : y≠x := by
      rintro rfl
      exact hentry id slot hlookup
    obtain ⟨e',hy,hfacts⟩ := h.owner hlookup
    exact ⟨e',(update_of_ne hne _ _).trans hy,hfacts⟩
  · intro y e' hy hinbox
    rcases update_eq_some hy with ⟨-,hnone⟩ | ⟨-,hold⟩
    · cases hnone
    · exact h.listed hold hinbox
  · intro y e' hy
    rcases update_eq_some hy with ⟨-,hnone⟩ | ⟨hne,hold⟩
    · cases hnone
    · exact h.known_append hnew hold hne

end Sound

/-- A query goes on writing its frame, or is done with it. -/
theorem WriteOk.next (hok : WriteOk t c place c' written events) (hx : c.exchanges x=some e)
    (hstage : e.stage=.write place) :
    match written with
    | .inl place' => Sound (t++events) (c'.setStage x (.write place'))
    | .inr (.error m) => Sound (t++events) (c'.setStage x (.leaving (some (.error m))))
    | .inr (.ok ()) =>
      Sound (t++(events++[.sent x (dnsFrame e.slot e.id e.query e.resolver)]))
        (c'.setStage x .awaiting) := by
  have hmap := hok.stages x
  rw [hx] at hmap
  obtain ⟨e',hx',hstage'⟩ := map_eq_some_iff.mp hmap
  rw [hstage] at hstage'
  have hwrite := (hok.sound.known hx').stage
  rw [hstage'] at hwrite
  match written with
  | .inl place' =>
    refine hok.sound.setStage_quiet hx' ⟨hwrite.1,hok.marked place' rfl⟩ fun hmem hinbox => ?_
    exact absurd hinbox (hok.sound.told_write hx' hstage' (hok.entered place' rfl) hmem)
  | .inr (.error m) =>
    exact hok.sound.setStage_quiet hx' nofun fun _ _ => ⟨_,rfl⟩
  | .inr (.ok ()) =>
    obtain ⟨hsame,rfl,hplace⟩ := hok.finished rfl
    have hsound := hok.sound
    rw [append_nil] at hsound hwrite
    rw [hsame,hx] at hx'
    cases hx'
    rw [←hsame] at hx
    rw [nil_append]
    refine hsound.setStage (by simp [about]) ?_ hx (hsound.law.concat hwrite.1)
    exact (hsound.known hx).sent
      (hsound.told_write hx hstage fun hentering => absurd hentering hplace)

/-- Taking out an entry leaves every query its number and its stage. -/
theorem resolve_exchanges (c : Channel) (id : ℕ) (inbox : Inbox) (x : ℕ)
    (hx : c.exchanges x=some e) : ∃ e', (c.resolve id inbox).exchanges x=some e' ∧
      e'.id=e.id ∧ e'.stage=e.stage := by
  unfold Channel.resolve
  split
  · exact ⟨e,hx,rfl,rfl⟩
  · rename_i slot y _
    rcases eq_or_ne x y with rfl | hne
    · refine ⟨{e with inbox := inbox},?_,rfl,rfl⟩
      change update _ _ _ _=_
      rw [update_self,hx,map_some]
    · exact ⟨e,(update_of_ne hne _ _).trans hx,rfl,rfl⟩

theorem resolve_lookup (c : Channel) (id : ℕ) (inbox : Inbox) :
    (c.resolve id inbox).entries.lookup id=none := by
  unfold Channel.resolve
  split
  · assumption
  · exact AList.lookup_erase _ _

/-- A query takes out what is under its number and is gone. -/
theorem Sound.finish (h : Sound t c) (hx : c.exchanges x=some e)
    {result : Option (Except String Bytes)} (hstage : e.stage=.leaving result) :
    Sound (t++[result.elim (.cancelled x) (.returned x)])
      {c.resolve e.id .dropped with
        exchanges := update (c.resolve e.id .dropped).exchanges x none} := by
  have hsound := h.resolve e.id .dropped (by simp) (by simp)
  obtain ⟨e',hx',hid,-⟩ := resolve_exchanges c e.id .dropped x hx
  have hentry : ∀ id slot, (c.resolve e.id .dropped).entries.lookup id≠some (slot,x) := by
    intro id slot hlookup
    obtain ⟨e'',hx'',hid'',-⟩ := hsound.owner hlookup
    rw [hx'] at hx''
    cases hx''
    rw [←hid'',hid,resolve_lookup] at hlookup
    cases hlookup
  have hknown := h.known hx
  have hleaving := hknown.stage
  rw [hstage] at hleaving
  cases result with
  | none => exact hsound.remove hx' hentry rfl trivial
  | some r =>
    refine hsound.remove hx' hentry rfl ⟨hknown.pending.1,fun answer hanswer => ?_⟩
    exact hleaving answer (congrArg some hanswer)

/-- Every step of a query keeps the entries and the queries together. -/
theorem exchangeStep_sound {input : Input} (h : Sound t c) (hx : c.exchanges x=some e)
    (hstep : c.exchangeStep x e e.stage input=some (c',events)) : Sound (t++events) c' := by
  have hknown := h.known hx
  have hstage := hknown.stage
  have hquiet : Sound (t++[]) c := by rwa [append_nil]
  unfold Channel.exchangeStep at hstep
  split at hstep
  case h_1 place i hplace =>
    rw [hplace] at hstage
    cases hwrite : writeStep c (.exchange x) place i with
    | none =>
      rw [hwrite] at hstep
      cases hstep
    | some r =>
      obtain ⟨mid,written,seen⟩ := r
      have hdone := (writeStep_ok h hstage.2 hwrite).next hx hplace
      rw [hwrite] at hstep
      match written with
      | .inl _ | .inr (.error _) | .inr (.ok ()) =>
        cases hstep
        exact hdone
  case h_2 =>
    cases hstep
    exact hquiet.leave hx nofun
  case h_3 =>
    cases hstep
    exact hquiet.leave hx nofun
  case h_4 hwriting =>
    cases hstep
    refine hquiet.setStage_quiet hx nofun fun hmem hinbox => absurd hinbox ?_
    exact hquiet.told_write hx hwriting nofun hmem
  case h_5 hawaiting =>
    obtain ⟨result,hresult,heq⟩ := map_eq_some_iff.mp hstep
    cases heq
    refine hquiet.leave hx ?_
    rintro answer ⟨⟩
    exact hquiet.answers hx hawaiting hresult
  case h_6 =>
    cases hstep
    exact hquiet.leave hx nofun
  case h_7 hcancelling =>
    cases hstep
    refine hquiet.mark.setStage_quiet hx (fun _ => rfl) fun hmem hinbox => ?_
    rcases (hquiet.known hx).told hmem hinbox with hentering | ⟨result,hleaving⟩
    · rw [hcancelling] at hentering
      cases hentering
    · rw [hcancelling] at hleaving
      cases hleaving
  case h_8 hcancelling =>
    cases hstep
    rw [hcancelling] at hstage
    have hdrained := (h.drain (hstage rfl)).release (.exchange x)
    have hmap := drain_stages c x
    rw [hx] at hmap
    obtain ⟨e',hx',-⟩ := map_eq_some_iff.mp hmap
    rw [←release_exchanges c.drain (.exchange x)] at hx'
    exact hdrained.leave hx' nofun
  case h_9 hleaving =>
    cases hstep
    exact h.finish hx hleaving
  case h_10 => cases hstep

/-- The number of a new query is not in use. -/
theorem freshId_lookup {entries : Table (ℕ × ℕ)} {tries last id : ℕ}
    (h : freshId entries tries last=some id) : entries.lookup id=none := by
  induction tries generalizing last with
  | zero => cases h
  | succ tries ih =>
    rw [freshId] at h
    split_ifs at h with hnone
    · cases h
      exact hnone
    · exact ih h

section Search

variable {entries : Table (ℕ × ℕ)} {tries last : ℕ}

/-- A search that finds nothing has gone through numbers in use. -/
theorem freshId_none (h : freshId entries tries last=none) {i : ℕ} (hi : i<tries) :
    (last+1+i)%65536∈entries.keys := by
  induction tries generalizing last i with
  | zero => omega
  | succ tries ih =>
    rw [freshId] at h
    split_ifs at h with hused
    cases i with
    | zero => exact AList.lookup_isSome.1 (isSome_iff_ne_none.2 hused)
    | succ i =>
      have hnext := ih h (Nat.lt_of_succ_lt_succ hi)
      rwa [show ((last+1)%65536+1+i)%65536=(last+1+(i+1))%65536 by omega] at hnext

/-- These numbers are different, so there are as many entries as tries. -/
theorem le_of_freshId_none (h : freshId entries tries last=none) (htries : tries≤65536) :
    tries≤entries.entries.length := by
  have hnodup : ((range tries).map fun i => (last+1+i)%65536).Nodup :=
    nodup_range.map_on fun i hi j hj heq => by
      have := mem_range.1 hi
      have := mem_range.1 hj
      omega
  have hsub : ((range tries).map fun i => (last+1+i)%65536) ⊆ entries.keys := by
    intro k hk
    obtain ⟨i,hi,rfl⟩ := mem_map.1 hk
    exact freshId_none h (mem_range.1 hi)
  simpa [AList.keys,keys] using (hnodup.subperm hsub).length_le

end Search

namespace Sound

variable {t events : List Event} {c : Channel}

/-- Nothing has been seen of a query that has not begun. -/
theorem unseen (h : Sound t c) {ev : Event} (hev : about ev=some c.nextExchange) : ev ∉ t :=
  fun hmem => lt_irrefl _ (h.fresh ev hmem _ hev)

/-- A query is seen that has no entry. -/
theorem announce (h : Sound t c) (hevents : ∀ ev∈events, about ev=some c.nextExchange)
    (hlaw : Guarded Law (t++events)) :
    Sound (t++events) {c with nextExchange := c.nextExchange+1} where
  __ := h
  known hx := h.known_append hevents hx (h.lt_nextExchange hx).ne
  dead := h.dead_append hevents
  fresh := h.fresh_about (Nat.le_succ _) (Nat.lt_succ_self _) hevents
  law := hlaw

/-- A query gets an entry under a number that is not in use. -/
theorem insert (h : Sound t c) {x slot : ℕ} {e : Exchange} (hx : c.exchanges x=none)
    (hfree : c.entries.lookup e.id=none) (hroom : c.entries.entries.length < maxPending)
    (hinbox : e.inbox=.waiting) (hknown : Known t c.alive x e) :
    Sound t {c with
      nextId := e.id
      nextSlot := slot
      entries := c.entries.insert e.id (e.slot,x)
      exchanges := update c.exchanges x (some e)} where
  __ := h
  size := by
    rw [AList.entries_insert_of_notMem (AList.lookup_eq_none.mp hfree)]
    exact hroom
  owner hlookup := by
    rename_i id slot' y
    rw [lookup_insert_eq] at hlookup
    split_ifs at hlookup with hid
    · cases hlookup
      exact ⟨e,update_self ..,hid.symm,rfl,hinbox⟩
    · obtain ⟨e',hy,hfacts⟩ := h.owner hlookup
      have hne : y≠x := by
        rintro rfl
        rw [hx] at hy
        cases hy
      exact ⟨e',(update_of_ne hne _ _).trans hy,hfacts⟩
  listed hy hwaiting := by
    rw [lookup_insert_eq]
    rcases update_eq_some hy with ⟨rfl,hsome⟩ | ⟨-,hold⟩
    · cases hsome
      exact if_pos rfl
    · have hlisted := h.listed hold hwaiting
      rw [if_neg,hlisted]
      intro heq
      rw [heq,hfree] at hlisted
      cases hlisted
  known hy := by
    rcases update_eq_some hy with ⟨rfl,hsome⟩ | ⟨-,hold⟩
    · cases hsome
      exact hknown
    · exact h.known hold

end Sound

/-- A query begins, with an entry of its own or with an error. -/
theorem start_sound {query : Bytes} {resolver : Option Ipv4Addr} (h : Sound t c)
    (hstep : c.start query resolver=some (c',events)) : Sound (t++events) c' := by
  have hasked : Guarded Law (t++[.asked c.nextExchange query resolver]) :=
    h.law.concat fun _ _ => h.unseen rfl
  simp only [Channel.start] at hstep
  split_ifs at hstep with hroom
  · cases hstep
    refine h.announce (by simp [about]) ?_
    rw [append_cons]
    refine hasked.concat ⟨fun r hmem => ?_,nofun⟩
    have hold : .returned c.nextExchange r∈t := by simpa using hmem
    exact h.unseen rfl hold
  · obtain ⟨id,hid,heq⟩ := map_eq_some_iff.mp hstep
    cases heq
    have hsound := h.announce (by simp [about]) hasked
    have hnone : c.exchanges c.nextExchange=none := by
      cases hsome : c.exchanges c.nextExchange with
      | none => rfl
      | some e => exact absurd (h.lt_nextExchange hsome) (lt_irrefl _)
    refine hsound.insert (e := ⟨query,resolver,id,c.nextSlot % dnsSlots+1,.write .entering,
      .waiting⟩) hnone (freshId_lookup hid) (not_le.mp hroom) rfl ?_
    have hnew : ∀ ev, about ev=some c.nextExchange → (∀ q r, ev≠.asked c.nextExchange q r) →
        ev ∉ t++[.asked c.nextExchange query resolver] := by
      intro ev hev hne hmem
      rcases mem_append.mp hmem with hold | hadded
      · exact h.unseen hev hold
      · exact hne _ _ (mem_singleton.mp hadded)
    exact ⟨mem_append_right _ (mem_singleton_self _),nofun,
      ⟨fun r => hnew _ rfl (by simp),hnew _ rfl (by simp)⟩,fun _ _ => .inl rfl,
      fun frame => hnew _ rfl (by simp),nofun⟩

/-- Every step of the task that keeps the stream alive keeps the rest together. -/
theorem keeperStep_sound (h : Sound t c) (hstep : c.keeperStep c.keeper i=some (c',events)) :
    Sound (t++events) c' := by
  unfold Channel.keeperStep at hstep
  split at hstep
  case h_1 =>
    cases hstep
    rw [append_nil]
    exact h.aside rfl rfl rfl id nofun h.reader
  case h_2 place i hkeeper =>
    obtain ⟨⟨mid,written,seen⟩,hwrite,heq⟩ := map_eq_some_iff.mp hstep
    cases heq
    have hmarked := h.keeper
    rw [hkeeper] at hmarked
    have hok := writeStep_ok h hmarked hwrite
    refine hok.sound.aside rfl rfl rfl id ?_ hok.sound.reader
    match written with
    | .inl place' => exact hok.marked place' rfl
    | .inr (.ok ()) => rintro ⟨⟩
    | .inr (.error m) => rintro ⟨⟩
  case h_3 => cases hstep

/-- Every step of the reader keeps the entries and the queries together. -/
theorem readerStep_sound {i : ReaderInput} (h : Sound t c)
    (hstep : c.readerStep c.reader i=some (c',events)) : Sound (t++events) c' := by
  have hquiet : Sound (t++[]) c := by rwa [append_nil]
  unfold Channel.readerStep at hstep
  split at hstep
  case h_1 =>
    cases hstep
    refine hquiet.aside rfl rfl rfl id h.keeper ?_
    split <;> rintro ⟨⟩
  case h_2 frame _ =>
    split at hstep
    · cases hstep
      have hsound := (h.received frame).deliver
        (mem_append_right _ (mem_singleton_self _))
      exact hsound.aside rfl rfl rfl id hsound.keeper nofun
    · cases hstep
      exact hquiet.aside rfl rfl rfl id h.keeper nofun
  case h_3 =>
    cases hstep
    exact hquiet.aside rfl rfl rfl id h.keeper nofun
  case h_4 =>
    cases hstep
    exact hquiet.aside rfl rfl rfl (fun _ => rfl) (fun _ => rfl) (fun _ => rfl)
  case h_5 hclosing =>
    cases hstep
    have hdead := h.reader (by rw [hclosing]; rfl)
    have hsound := h.drain hdead
    exact hsound.aside rfl rfl rfl id hsound.keeper nofun
  case h_6 => cases hstep

/-- The entries and the queries belong together in every run. -/
theorem sound_of_run (h : machine.Run always t c) : Sound t c := by
  refine h.invariant Sound ?_ ?_
  · rintro c rfl
    exact ⟨Nat.zero_le _,nofun,nofun,nofun,by simp,
      nofun,nofun,by simp,guarded_nil Law⟩
  · intro t c a c' new hsound _ _ hexec
    cases a with
    | start query resolver => exact start_sound hsound hexec
    | exchange x input =>
      simp only [machine,Channel.exec] at hexec
      split at hexec
      · cases hexec
      · rename_i e hx
        exact exchangeStep_sound hsound hx hexec
    | keeper input => exact keeperStep_sound hsound hexec
    | reader input => exact readerStep_sound hsound hexec

/-- Whatever the order of queries, replies, failures and timeouts: every query
returns once at most and its answer is its own; the table stays within its size and
holds no entry of a query that is over; once the channel is given up no query waits:
it has been told, or it leaves, or it has yet to see that the channel is not alive. -/
theorem exchanges_of_run {t : List Event} {c : Channel} (h : machine.Run always t c) :
    Guarded Law t ∧ c.entries.entries.length ≤ maxPending ∧
      (∀ id slot x, c.entries.lookup id=some (slot,x) →
        (c.exchanges x).isSome=true ∧ (∀ r, .returned x r ∉ t) ∧ .cancelled x ∉ t) ∧
      (.invalidated∈t → ∀ x e, c.exchanges x=some e → e.inbox=.waiting →
        (e.stage=.write .entering ∧ c.alive=false) ∨ ∃ result, e.stage=.leaving result) := by
  have hsound := sound_of_run h
  refine ⟨hsound.law,hsound.size,?_,?_⟩
  · intro id slot x hlookup
    obtain ⟨e,hx,-⟩ := hsound.owner hlookup
    exact ⟨by rw [hx]; rfl,(hsound.known hx).pending⟩
  · intro hmem x e hx hinbox
    rcases (hsound.known hx).told hmem hinbox with hentering | hleaving
    · exact .inl ⟨hentering,hsound.dead hmem⟩
    · exact .inr hleaving

/-- A query with the number 258 and twelve bytes. -/
def sampleQuery (last : UInt8) : Bytes := [1,2,1,0,0,1,0,0,0,0,0,last]

/-- The reply of a gateway under a slot and a number. -/
def sampleReply (slot id last : UInt8) : Bytes :=
  [dnsFlag,slot,0,0,0,0,0,0,53,0,id,129,128,0,1,0,0,0,0,0,last]

/-- Two queries with the same first bytes are written, their replies come the other way
round, one of them twice, and a third query comes after the stream has failed. -/
def crossedReplies : List Action :=
  ([.start (sampleQuery 7) none,.start (sampleQuery 9) none] : List Action) ++
    [0,1].flatMap (fun x => [.exchange x (.write .go),.exchange x (.write .go),
      .exchange x (.write .go),.exchange x (.write .written)]) ++
    ([.reader .go,.reader (.frame (sampleReply 2 2 9)),.reader .go,
      .reader (.frame (sampleReply 2 2 9)),.reader .go,.reader (.frame (sampleReply 1 1 7)),
      .exchange 0 .reply,.exchange 0 .go,.exchange 1 .reply,.exchange 1 .go,
      .reader .go,.reader .stop,.start (sampleQuery 3) none,.reader .go,.reader .go,
      .start (sampleQuery 5) none] : List Action)

/-- The two answers and the failed channel. -/
def crossedSeen (t : List Event) : Bool :=
  t.any (fun | .returned 0 (.ok answer) => answer == [1,2,129,128,0,1,0,0,0,0,0,7] | _ => false) &&
  t.any (fun | .returned 1 (.ok answer) => answer == [1,2,129,128,0,1,0,0,0,0,0,9] | _ => false) &&
  t.any (fun | .invalidated => true | _ => false)

theorem crossed_replies : ∃ t c, machine.Run always t c ∧ crossedSeen t=true ∧
    Guarded Law t ∧ c.entries.entries.length ≤ maxPending :=
  Machine.exists_run_with (fun _ a => a.allowed) (fun _ _ _ ha => ⟨ha,trivial⟩) rfl crossedReplies
    (by decide +kernel) fun _ _ h => ⟨(exchanges_of_run h).1,(exchanges_of_run h).2.1⟩

end MsnGuard.UdpgwMatching
