import MsnGuard.ShardStreams
import MsnGuard.SmartDnsPackets

/-!
# DNS replies and their queries

A query is taken from the table when its reply is written, so that a second reply finds nothing.
A number stands for no other query until 65536 more have been drawn. One stream at a time sends
queries, and it makes room before it adds one.
-/

namespace MsnGuard.ShardMatching

open Option
open RustText FiniteTables TransitionRuns UdpgwFrames SmartDnsMessages ShardFront ShardStreams List
open OctetsVarint (beBytes)
open SmartDnsPackets (exists_two_bytes)

/-- A query is answered at most once, by a reply with its token and under its own flow, address
and identifier. The token is that of no other query within 65536 numbers, and the query loses
its place in the table to none of them. -/
def Law (before : List Event) : Event → Prop
  | .submitted x s => ∀ y s', .submitted y s'∈before → y≠x ∧ s'.seq<s.seq
  | .stored x replaced => ∀ y, replaced=some y → ∃ s s', .submitted x s∈before ∧
      .submitted y s'∈before ∧ s'.seq+65536 ≤ s.seq
  | .asked x datagram => ∃ s index, .submitted x s∈before ∧ datagram=
      encapsulate (dnsUpstream index) 53 (beBytes 2 s.token++s.d.payload.drop 2)
  | .claimed x reply => (∀ r, .claimed x r ∉ before) ∧ ∃ s, .submitted x s∈before ∧
      word reply 0=s.token ∧ ∀ y s', .submitted y s'∈before → y≠x →
        s.seq<s'.seq+65536 → s'.seq<s.seq+65536 → s'.token≠s.token
  | .written x reply _ frame => (∀ r stream w, .written x r stream w ∉ before) ∧
      .claimed x reply∈before ∧ ∃ s, .submitted x s∈before ∧
        frame=replyFrame s.conid s.isIpv6 s.d.address (s.d.payload.take 2++reply.drop 2)
  | .tornDown _ _ _ => True

/-- The query that a stream has submitted and not yet stored. -/
def unstored : Phase → Option ℕ
  | .checking x => some x
  | .evicting x _ => some x
  | .storing x => some x
  | _ => none

/-- There is room for the query that a stream stores next. -/
def Room (pending : Table ℕ) : Phase → Prop
  | .evicting _ token => (pending.lookup token).isSome=true ∨ pending.entries.length < maxAssociations
  | .storing _ => pending.entries.length < maxAssociations
  | _ => True

/-- What is known of a query. -/
structure Known (t : List Event) (x : ℕ) (q : Asked) (s : Submission) : Prop where
  submitted : .submitted x s∈t
  conid : q.conid=s.conid
  isIpv6 : q.isIpv6=s.isIpv6
  address : q.clientAddress=s.d.address
  identifier : beBytes 2 q.originalId=s.d.payload.take 2
  seq : q.seq=s.seq
  query : q.query=beBytes 2 s.token++s.d.payload.drop 2

/-- The queries, the table and the replies in hand belong together. -/
structure Sound (t : List Event) (f : Front) : Prop where
  size : f.dnsPending.entries.length ≤ maxAssociations
  room : ∀ r phase, f.streams.lookup r=some phase → Room f.dnsPending phase
  known : ∀ x q, view (·.asked) f.queries x=some q → (∃ s, Known t x q s) ∧ q.seq≤f.dnsSeq
  found : ∀ x s, .submitted x s∈t → ∃ q, view (·.asked) f.queries x=some q ∧ q.seq=s.seq
  fresh : ∀ x q, view (·.asked) f.queries x=some q → x<f.nextQuery
  rising : ∀ x y q q', view (·.asked) f.queries x=some q → view (·.asked) f.queries y=some q' →
    x<y → q.seq<q'.seq
  waiting : ∀ k x, f.dnsPending.lookup k=some x →
    (∃ q, view (·.asked) f.queries x=some q ∧ q.token=k) ∧ ∀ r, .claimed x r ∉ t
  storing : ∀ r phase x, f.streams.lookup r=some phase → unstored phase=some x →
    x+1=f.nextQuery ∧ (∀ k, f.dnsPending.lookup k≠some x) ∧ ∀ r, .claimed x r ∉ t
  claimed : ∀ p x reply, f.claims.lookup p=some (x,reply) → .claimed x reply∈t ∧
    ∀ r stream w, .written x r stream w ∉ t
  apart : ∀ p p' x reply reply', f.claims.lookup p=some (x,reply) →
    f.claims.lookup p'=some (x,reply') → p=p'
  law : Guarded Law t

section Growth

variable {t : List Event} {f g : Front}

theorem Known.append {x : ℕ} {q : Asked} {s : Submission} (h : Known t x q s) (new : List Event) :
    Known (t++new) x q s :=
  {h with submitted := mem_append_left new h.submitted}

/-- An event that the queries, the table and the replies in hand are ready for. -/
def Admits (f : Front) : Event → Prop
  | .submitted _ _ => False
  | .claimed x _ => (∀ k, f.dnsPending.lookup k≠some x) ∧
      ∀ r phase, f.streams.lookup r=some phase → unstored phase≠some x
  | .written x _ _ _ => ∀ p reply, f.claims.lookup p≠some (x,reply)
  | _ => True

/-- What is not in a history is not in it after another event. -/
theorem notMem_concat {e e' : Event} (h : e ∉ t) (hne : e≠e') : e ∉ t++[e'] := by
  intro hmem
  rcases mem_append.mp hmem with hold | hadded
  · exact h hold
  · exact hne (mem_singleton.mp hadded)

/-- An event is added to the history. -/
theorem Sound.concat {e : Event} (h : Sound t f) (hadmits : Admits f e) (hlaw : Law t e) :
    Sound (t++[e]) f where
  __ := h
  known x q hq := by
    obtain ⟨⟨s,hs⟩,hle⟩ := h.known x q hq
    exact ⟨⟨s,hs.append [e]⟩,hle⟩
  found x s hmem := by
    rcases mem_append.mp hmem with hold | hadded
    · exact h.found x s hold
    · obtain rfl := mem_singleton.mp hadded
      exact hadmits.elim
  waiting k x hk := by
    obtain ⟨hq,hnot⟩ := h.waiting k x hk
    refine ⟨hq,fun r => notMem_concat (hnot r) ?_⟩
    rintro rfl
    exact hadmits.1 k hk
  storing r phase x hr hx := by
    obtain ⟨hnext,hplace,hnot⟩ := h.storing r phase x hr hx
    refine ⟨hnext,hplace,fun r' => notMem_concat (hnot r') ?_⟩
    rintro rfl
    exact hadmits.2 r phase hr hx
  claimed p x reply hp := by
    obtain ⟨hmem,hnot⟩ := h.claimed p x reply hp
    refine ⟨mem_append_left [e] hmem,fun r stream w => notMem_concat (hnot r stream w) ?_⟩
    rintro rfl
    exact hadmits p reply hp
  law := h.law.concat hlaw

/-- What a step leaves alone that has nothing to do with queries, apart from removing some of
them from the table. -/
structure Aside (f g : Front) : Prop where
  seq : f.dnsSeq≤g.dnsSeq
  queries : view (·.asked) g.queries=view (·.asked) f.queries
  next : g.nextQuery=f.nextQuery
  pending : Shrinks g.dnsPending f.dnsPending
  claims : g.claims=f.claims
  streams : ∀ r phase, g.streams.lookup r=some phase →
    f.streams.lookup r=some phase ∨ unstored phase=none

theorem Aside.trans {k : Front} (h : Aside f g) (h' : Aside g k) : Aside f k where
  seq := h.seq.trans h'.seq
  queries := h'.queries.trans h.queries
  next := h'.next.trans h.next
  pending := h.pending.trans h'.pending
  claims := h'.claims.trans h.claims
  streams r phase hr := by
    rcases h'.streams r phase hr with hmid | hnone
    · exact h.streams r phase hmid
    · exact .inr hnone

/-- There is still room when the table shrinks. -/
theorem Room.shrinks {small big : Table ℕ} {phase : Phase} (h : Room big phase)
    (hshrinks : Shrinks small big) (hsize : big.entries.length ≤ maxAssociations) :
    Room small phase := by
  cases phase with
  | evicting x token =>
    rcases h with hfound | hroom
    · rcases hshrinks.missing token hfound with hstill | hless
      · exact .inl hstill
      · exact .inr (hless.trans_le hsize)
    · exact .inr (hshrinks.length.trans_lt hroom)
  | storing x => exact hshrinks.length.trans_lt h
  | _ => trivial

/-- A stream without a query to store needs no room. -/
theorem room_of_unstored {pending : Table ℕ} {phase : Phase} (h : unstored phase=none) :
    Room pending phase := by
  cases phase with
  | evicting x token | storing x => cases h
  | _ => trivial

/-- A step aside keeps everything in order. -/
theorem Sound.aside (h : Sound t f) (ha : Aside f g) : Sound t g where
  size := ha.pending.length.trans h.size
  room r phase hr := by
    rcases ha.streams r phase hr with hold | hnone
    · exact (h.room r phase hold).shrinks ha.pending h.size
    · exact room_of_unstored hnone
  known x q hq := by
    rw [ha.queries] at hq
    obtain ⟨hs,hle⟩ := h.known x q hq
    exact ⟨hs,hle.trans ha.seq⟩
  found := by
    rw [ha.queries]
    exact h.found
  fresh := by
    rw [ha.queries,ha.next]
    exact h.fresh
  rising := by
    rw [ha.queries]
    exact h.rising
  waiting k x hk := by
    rw [ha.queries]
    exact h.waiting k x (ha.pending.holds k x hk)
  storing r phase x hr hx := by
    rcases ha.streams r phase hr with hold | hnone
    · obtain ⟨hnext,hplace,hnot⟩ := h.storing r phase x hold hx
      exact ⟨hnext.trans ha.next.symm,fun k hk => hplace k (ha.pending.holds k x hk),hnot⟩
    · rw [hnone] at hx
      cases hx
  claimed := by
    rw [ha.claims]
    exact h.claimed
  apart := by
    rw [ha.claims]
    exact h.apart
  law := h.law

/-- A step aside that shows nothing. -/
theorem Sound.silent (h : Sound t f) (ha : Aside f g) : Sound (t++[]) g := by
  rw [append_nil]
  exact h.aside ha

end Growth

section Asides

variable {f g : Front}

/-- The queries, the table, the replies in hand and the streams. -/
structure Core where
  dnsSeq : ℕ
  queries : Table DnsPending
  nextQuery : ℕ
  dnsPending : Table ℕ
  claims : Table (ℕ × Bytes)
  streams : Table Phase

/-- The queries, the table, the replies in hand and the streams of a front. -/
def core (f : Front) : Core :=
  ⟨f.dnsSeq,f.queries,f.nextQuery,f.dnsPending,f.claims,f.streams⟩

/-- Two fronts have the same queries. -/
def Same (f g : Front) : Prop := core g=core f

theorem Same.refl (f : Front) : Same f f := rfl

theorem Same.trans {k : Front} (h : Same f g) (h' : Same g k) : Same f k := Eq.trans h' h

theorem Same.aside (h : Same f g) : Aside f g where
  seq := (congrArg Core.dnsSeq h).ge
  queries := congrArg (fun c : Core => view (·.asked) c.queries) h
  next := congrArg Core.nextQuery h
  pending := by
    rw [show g.dnsPending=f.dnsPending from congrArg Core.dnsPending h]
    exact .refl _
  claims := congrArg Core.claims h
  streams r phase hr := by
    rw [show g.streams=f.streams from congrArg Core.streams h] at hr
    exact .inl hr

variable (f)

theorem modifyLink_same (a : ℕ) (change : Link → Link) :
    Same f (f.modifyLink a change) := by
  rw [Front.modifyLink]
  split <;> rfl

theorem close_same (a : ℕ) : Same f (f.close a) := modifyLink_same f a _

theorem closeAll_same (table : Table ℕ) : Same f (f.closeAll table) := by
  rw [Front.closeAll]
  induction table.entries generalizing f with
  | nil => exact .refl f
  | cons e rest ih => exact (close_same f e.2).trans (ih (f.close e.2))

theorem dnsChannel_same (stream index : ℕ) (agreed : Bool) :
    Same f (f.dnsChannel stream index agreed).1 := by
  rw [Front.dnsChannel]
  split
  · exact .refl f
  · split <;> rfl

/-- Sending a query leaves the queries alone, and shows at most the datagram. -/
theorem sendDnsQuery_same (stream x index : ℕ) (query : Bytes) (agreed sent : Bool) :
    Same f (f.sendDnsQuery stream x index query agreed sent).1 ∧
      ((f.sendDnsQuery stream x index query agreed sent).2=[] ∨
        (f.sendDnsQuery stream x index query agreed sent).2=
          [.asked x (encapsulate (dnsUpstream index) 53 query)]) := by
  have hopened := dnsChannel_same f stream index agreed
  rw [Front.sendDnsQuery]
  split
  · exact ⟨hopened,.inl rfl⟩
  · split
    · exact ⟨hopened,.inl rfl⟩
    · split
      · exact ⟨hopened.trans (modifyLink_same _ _ _),.inr rfl⟩
      · split
        · refine ⟨hopened.trans (Same.trans ?_ (close_same _ _)),.inl rfl⟩
          rfl
        · exact ⟨hopened,.inl rfl⟩

theorem removeAndClose_same (conid : ℕ) : Same f (f.removeAndClose conid) := by
  rw [Front.removeAndClose]
  split
  · refine Same.trans ?_ (close_same _ _)
    rfl
  · exact .refl f

theorem makeRoom_same : Same f f.makeRoom := by
  rw [Front.makeRoom]
  split
  · split
    · exact removeAndClose_same f _
    · exact .refl f
  · exact .refl f

theorem sendOn_same (conid a size : ℕ) (sent : Bool) :
    Same f (f.sendOn conid a size sent) := by
  have hused := modifyLink_same f a fun link => {link with lastUsed := f.now}
  rw [Front.sendOn]
  split
  · exact hused.trans (close_same _ a)
  · split
    · exact hused
    · exact hused.trans (removeAndClose_same _ conid)

theorem reap_same (conid : ℕ) : Same f (f.reap conid) := by
  rw [Front.reap]
  split
  · split
    · exact close_same f _
    · exact .refl f
  · exact .refl f

theorem look_same (token captured : ℕ) : Same f (f.look token captured) := by
  rw [Front.look]
  split
  · exact .refl f
  · split
    · exact .refl f
    · split
      · rfl
      · split <;> rfl

/-- A stream without a query to store goes on. -/
theorem goOn_aside (r : ℕ) {phase : Phase} (h : unstored phase=none) :
    Aside f (f.goOn r phase) where
  seq := le_rfl
  queries := rfl
  next := rfl
  pending := .refl _
  claims := rfl
  streams r' phase' hr' := by
    rw [Front.goOn,lookup_insert_eq] at hr'
    split at hr'
    · cases hr'
      exact .inr h
    · exact .inl hr'

theorem modifyQuery_aside (x : ℕ) (change : DnsPending → DnsPending) :
    Aside f (f.modifyQuery x change) := by
  rw [Front.modifyQuery]
  split
  · rename_i q hq
    refine {(Same.refl f).aside with queries := ?_}
    exact view_insert_same hq rfl
  · exact (Same.refl f).aside

/-- Some queries are removed from the table. -/
theorem pending_aside {f : Front} {pending : Table ℕ} (h : Shrinks pending f.dnsPending) :
    Aside f {f with dnsPending := pending} :=
  {(Same.refl f).aside with pending := h}

theorem takeFrame_aside (r : ℕ) (body : Bytes) : Aside f (f.takeFrame r body) := by
  rw [Front.takeFrame]
  split
  · exact (Same.refl f).aside
  · rename_i frame _
    have hfreed : Aside f (if frame.rebind then f.removeAndClose frame.conid else f) := by
      split
      · exact (removeAndClose_same f _).aside
      · exact (Same.refl f).aside
    dsimp only
    split
    · exact hfreed
    · split <;> exact hfreed.trans (goOn_aside _ r rfl)

variable {f} in
/-- The same, and a stream without a query to store goes on. -/
theorem Same.goOn (h : Same f g) (r : ℕ) {phase : Phase} (hphase : unstored phase=none) :
    Aside f (g.goOn r phase) := h.aside.trans (goOn_aside g r hphase)

theorem setUp_aside (r : ℕ) (chore : Chore) : Aside f (f.setUp r chore) := by
  cases chore with
  | closeAssociations => exact (closeAll_same f _).goOn r rfl
  | clearAssociations | output | lock =>
    refine Same.goOn ?_ r rfl
    rfl
  | forget => exact (pending_aside (shrinks_empty _)).trans (goOn_aside _ r rfl)
  | closeChannels | clearChannels => exact goOn_aside f r rfl

theorem tearDown_aside (r : ℕ) (chore : Chore) : Aside f (f.tearDown r chore).1 := by
  cases chore with
  | closeAssociations | closeChannels => exact (closeAll_same f _).goOn r rfl
  | clearAssociations | output | lock | clearChannels =>
    refine Same.goOn ?_ r rfl
    rfl
  | forget => exact (pending_aside (shrinks_empty _)).trans (goOn_aside _ r rfl)

end Asides

section Tokens

/-- Two numbers less than 65536 apart have different tokens. -/
theorem apart_of_mod_eq {m n : ℕ} (hlt : m<n) (hmod : m % 65536=n % 65536) : m+65536≤n := by
  omega

/-- The identifier of a message as it stands in it. -/
theorem beBytes_word {payload : Bytes} (h : 2≤payload.length) :
    beBytes 2 (word payload 0)=payload.take 2 := by
  obtain ⟨a,b,rest,rfl⟩ := exists_two_bytes h
  have hword : word (a::b::rest) 0=(0*256+a.toNat)*256+b.toNat := rfl
  have ha : a.toNat<256 := a.toNat_lt
  have hb : b.toNat<256 := b.toNat_lt
  simp only [beBytes]
  congr 1
  · exact UInt8.toNat_inj.mp (by rw [UInt8.toNat_ofNat']; omega)
  · congr 1
    exact UInt8.toNat_inj.mp (by rw [UInt8.toNat_ofNat']; omega)

end Tokens

section Steps

variable {t : List Event} {f g : Front} {n r : ℕ}
variable {x token p : ℕ} {reply : Bytes} {phase : Phase} {q : DnsPending} {new : List Event}

/-- What has been claimed or written has been submitted. -/
theorem Sound.lt_of_claimed (h : Sound t f) (hmem : .claimed x reply∈t) : x<f.nextQuery := by
  obtain ⟨front,back,rfl⟩ := append_of_mem hmem
  obtain ⟨_,s,hs,_⟩ := h.law front _ back rfl
  obtain ⟨q,hq,_⟩ := h.found x s (mem_append_left _ hs)
  exact h.fresh x q hq

/-- No stream has a query to store if the newest one has none. -/
theorem unstored_eq_none (hinv : Inv n f) (hr : r+1=n)
    (hphase : f.streams.lookup r=some phase) (hnone : unstored phase=none) (r' : ℕ)
    (phase' : Phase) (hphase' : f.streams.lookup r'=some phase') : unstored phase'=none := by
  by_cases hended : phase'=.ended
  · rw [hended]
    rfl
  · have hnewest := hinv.newest r' phase' hphase' hended
    obtain rfl : r'=r := by omega
    cases hphase.symm.trans hphase'
    exact hnone

/-- The thread of a stream goes on, with a query to store if there is room for it. -/
theorem Sound.goOn (h : Sound t f) (hroom : Room f.dnsPending phase)
    (hstoring : ∀ x, unstored phase=some x → x+1=f.nextQuery ∧
      (∀ k, f.dnsPending.lookup k≠some x) ∧ ∀ reply, .claimed x reply ∉ t) :
    Sound t (f.goOn r phase) := by
  refine {h with
    room := fun r' phase' hr' => ?_
    storing := fun r' phase' x hr' hx => ?_}
  · rw [Front.goOn,lookup_insert_eq] at hr'
    split at hr'
    · cases hr'
      exact hroom
    · exact h.room r' phase' hr'
  · rw [Front.goOn,lookup_insert_eq] at hr'
    split at hr'
    · cases hr'
      exact hstoring x hx
    · exact h.storing r' phase' x hr' hx

/-- A query gets a number while no other one is to be stored. -/
theorem Sound.submit (h : Sound t f)
    (hnone : ∀ r phase, f.streams.lookup r=some phase → unstored phase=none) {s : Submission}
    (hknown : Known (t++[.submitted f.nextQuery s]) f.nextQuery q.asked s)
    (hseq : s.seq=f.dnsSeq+1) :
    Sound (t++[.submitted f.nextQuery s]) {f with
      dnsSeq := f.dnsSeq+1
      queries := f.queries.insert f.nextQuery q
      nextQuery := f.nextQuery+1} := by
  have hkept : ∀ y q', view (·.asked) f.queries y=some q' →
      view (·.asked) (f.queries.insert f.nextQuery q) y=some q' := by
    intro y q' hy
    rw [view_insert,Function.update_of_ne (h.fresh y q' hy).ne,hy]
  refine ⟨h.size,h.room,?_,?_,?_,?_,?_,?_,?_,h.apart,?_⟩
  · intro y q' hy
    rw [view_insert] at hy
    rcases update_eq_some hy with ⟨rfl,hsome⟩ | ⟨_,hold⟩
    · cases hsome
      exact ⟨⟨s,hknown⟩,(hknown.seq.trans hseq).le⟩
    · obtain ⟨⟨s',hs'⟩,hle⟩ := h.known y q' hold
      exact ⟨⟨s',hs'.append _⟩,Nat.le_succ_of_le hle⟩
  · intro y s' hmem
    rcases mem_append.mp hmem with hold | hadded
    · obtain ⟨q',hq',hseq'⟩ := h.found y s' hold
      exact ⟨q',hkept y q' hq',hseq'⟩
    · cases mem_singleton.mp hadded
      exact ⟨q.asked,by rw [view_insert,Function.update_self],hknown.seq⟩
  · intro y q' hy
    rw [view_insert] at hy
    rcases update_eq_some hy with ⟨rfl,_⟩ | ⟨_,hold⟩
    · exact Nat.lt_succ_self _
    · exact Nat.lt_succ_of_lt (h.fresh y q' hold)
  · intro y z q' q'' hy hz hlt
    rw [view_insert] at hy hz
    rcases update_eq_some hz with ⟨rfl,hsome⟩ | ⟨_,hz⟩
    · cases hsome
      rcases update_eq_some hy with ⟨rfl,_⟩ | ⟨_,hy⟩
      · exact absurd hlt (lt_irrefl _)
      · rw [hknown.seq,hseq]
        exact Nat.lt_succ_of_le (h.known y q' hy).2
    · have hbound := h.fresh z q'' hz
      rcases update_eq_some hy with ⟨rfl,_⟩ | ⟨_,hy⟩
      · omega
      · exact h.rising y z q' q'' hy hz hlt
  · intro k y hk
    obtain ⟨⟨q',hq',htoken⟩,hnot⟩ := h.waiting k y hk
    exact ⟨⟨q',hkept y q' hq',htoken⟩,fun reply => notMem_concat (hnot reply) nofun⟩
  · intro r' phase y hr' hy
    rw [hnone r' phase hr'] at hy
    cases hy
  · intro p y reply hp
    obtain ⟨hmem,hnot⟩ := h.claimed p y reply hp
    exact ⟨mem_append_left _ hmem,
      fun reply' stream w => notMem_concat (hnot reply' stream w) nofun⟩
  · refine h.law.concat ?_
    intro y s' hmem
    obtain ⟨q',hq',hseq'⟩ := h.found y s' hmem
    have hle := (h.known y q' hq').2
    exact ⟨(h.fresh y q' hq').ne,by omega⟩

/-- A new query is neither in the table nor has it been claimed. -/
theorem Sound.unclaimed (h : Sound t f) : (∀ k, f.dnsPending.lookup k≠some f.nextQuery) ∧
    ∀ reply, .claimed f.nextQuery reply ∉ t := by
  refine ⟨fun k hk => ?_,fun reply hmem => ?_⟩
  · obtain ⟨⟨q,hq,_⟩,_⟩ := h.waiting k _ hk
    exact absurd (h.fresh _ q hq) (lt_irrefl _)
  · exact absurd (h.lt_of_claimed hmem) (lt_irrefl _)

theorem Sound.submitDnsQuery (h : Sound t f) (hinv : Inv n f) (hr : r+1=n) {conid : ℕ}
    {isIpv6 : Bool} {d : Datagram} (hphase : f.streams.lookup r=some (.drawing conid isIpv6 d)) :
    Sound (t++(f.submitDnsQuery r conid isIpv6 d).2) (f.submitDnsQuery r conid isIpv6 d).1 := by
  rw [Front.submitDnsQuery]
  split
  · exact h.silent (goOn_aside f r rfl)
  · obtain ⟨hplace,hnot⟩ := h.unclaimed
    have hidentifier : beBytes 2 (word d.payload 0)=d.payload.take 2 := beBytes_word (by omega)
    refine Sound.goOn (h.submit (unstored_eq_none hinv hr hphase rfl) ?_ rfl) trivial ?_
    · exact ⟨by simp,rfl,rfl,rfl,hidentifier,rfl,rfl⟩
    · rintro y ⟨⟩
      exact ⟨rfl,hplace,fun reply => notMem_concat (hnot reply) fun heq => by cases heq⟩

/-- The oldest query is in the table. -/
theorem lookup_oldest (h : f.oldest=some token) : (f.dnsPending.lookup token).isSome=true := by
  obtain ⟨e,he,rfl⟩ := map_eq_some_iff.mp h
  exact isSome_of_mem (AList.mem_lookup_iff.mpr (argmin_mem he))

section

variable (h : Sound t f)

include h

theorem Sound.check (hphase : f.streams.lookup r=some (.checking x)) : Sound t (f.check r x) := by
  rw [Front.check]
  split
  · split
    · rename_i token holdest
      exact h.goOn (.inl (lookup_oldest holdest)) (h.storing r (.checking x) · hphase)
    · rename_i holdest
      refine h.goOn ?_ (h.storing r (.checking x) · hphase)
      rw [Room,argmin_eq_none.mp (map_eq_none_iff.mp holdest)]
      decide
  · rename_i hroom
    exact h.goOn (not_le.mp hroom) (h.storing r (.checking x) · hphase)

theorem Sound.evict (hphase : f.streams.lookup r=some (.evicting x token)) :
    Sound t ({f with dnsPending := f.dnsPending.erase token}.goOn r (.storing x)) := by
  have herased := h.aside (pending_aside (shrinks_erase f.dnsPending token))
  refine herased.goOn ?_ (herased.storing r (.evicting x token) · hphase)
  rcases h.room r _ hphase with hfound | hroom
  · exact (length_erase_lt hfound).trans_le h.size
  · exact (length_erase_le f.dnsPending token).trans_lt hroom

/-- Two queries with the same token have numbers that are far apart. -/
theorem Sound.far {y : ℕ} {q q' : Asked} (hx : view (·.asked) f.queries x=some q)
    (hy : view (·.asked) f.queries y=some q') (hlt : y<x) (htoken : q'.token=q.token) :
    q'.seq+65536≤q.seq :=
  apart_of_mod_eq (h.rising y x q' q hy hx hlt) htoken

/-- A query begins to wait. It replaces only one whose number is far from its own. -/
theorem Sound.store (hinv : Inv n f) (hr : r+1=n)
    (hphase : f.streams.lookup r=some (.storing x)) (hq : f.queries.lookup x=some q) :
    Sound (t++(f.store r x q).2) (f.store r x q).1 := by
  obtain ⟨hnext,hplace,hnot⟩ := h.storing r _ x hphase rfl
  have hasked : view (·.asked) f.queries x=some q.asked := view_of_lookup hq
  have hlaw : Law t (.stored x (f.dnsPending.lookup q.asked.token)) := by
    intro y hy
    -- the query that is replaced came before the newest one and has its token
    obtain ⟨⟨q',hq',htoken⟩,_⟩ := h.waiting _ y hy
    obtain ⟨⟨s,hs⟩,_⟩ := h.known x _ hasked
    obtain ⟨⟨s',hs'⟩,_⟩ := h.known y q' hq'
    have hne : y≠x := by
      rintro rfl
      exact hplace _ hy
    have hbound := h.fresh y q' hq'
    have hfar := h.far hasked hq' (by omega) htoken
    refine ⟨s,s',hs.submitted,hs'.submitted,?_⟩
    rwa [hs.seq,hs'.seq] at hfar
  have hasking : Aside f (f.goOn r (.asking x)) := goOn_aside f r rfl
  have hstored := (h.aside hasking).concat (e := .stored x _) trivial hlaw
  have hnone := unstored_eq_none (hinv.goOn hr (.asking x)) hr (AList.lookup_insert _) rfl
  refine {hstored with
    size := ?_
    room := fun r' phase hr' => room_of_unstored (hnone r' phase hr')
    waiting := fun k y hk => ?_
    storing := fun r' phase y hr' hy => ?_}
  · exact (length_insert_le f.dnsPending _ x).trans (h.room r _ hphase)
  · have hinsert := (lookup_insert_eq f.dnsPending _ k x).symm.trans hk
    split at hinsert
    · rename_i heq
      cases hinsert
      refine ⟨⟨q.asked,hasked,heq.symm⟩,fun reply => notMem_concat (hnot reply) ?_⟩
      rintro ⟨⟩
    · exact hstored.waiting k y hinsert
  · rw [hnone r' phase hr'] at hy
    cases hy

/-- A query is sent with its token in it. -/
theorem Sound.sendDnsQuery {q : Asked} (hq : view (·.asked) f.queries x=some q)
    (stream index : ℕ) (agreed sent : Bool) :
    Sound (t++(f.sendDnsQuery stream x index q.query agreed sent).2)
      (f.sendDnsQuery stream x index q.query agreed sent).1 := by
  obtain ⟨hsame,hevents⟩ := sendDnsQuery_same f stream x index q.query agreed sent
  rcases hevents with hnone | hasked
  · rw [hnone]
    exact h.silent hsame.aside
  · rw [hasked]
    refine (h.aside hsame.aside).concat trivial ?_
    obtain ⟨⟨s,hs⟩,_⟩ := h.known x q hq
    exact ⟨s,index,hs.submitted,by rw [hs.query]⟩

theorem Sound.ask (hq : f.queries.lookup x=some q) (r : ℕ) (agreed sent : Bool) :
    Sound (t++(f.ask r x q agreed sent).2) (f.ask r x q agreed sent).1 := by
  have hordered := modifyQuery_aside f x fun q => {q with order := f.dnsPreferred}
  refine Sound.aside ?_ (goOn_aside _ r rfl)
  refine (h.aside hordered).sendDnsQuery ?_ r f.dnsPreferred agreed sent
  rw [hordered.queries]
  exact view_of_lookup hq

theorem Sound.resend (hq : f.queries.lookup x=some q) (captured : ℕ)
    (agreed sent : Bool) :
    Sound (t++(f.resend x captured q agreed sent).2) (f.resend x captured q agreed sent).1 := by
  have hagain : Aside f ({f with resending := f.resending.erase (x,captured)}.modifyQuery x
      fun q => {q with tried := q.tried+1, sentAt := captured}) := by
    refine Aside.trans (Same.aside ?_) (modifyQuery_aside _ _ _)
    rfl
  refine (h.aside hagain).sendDnsQuery ?_ q.asked.stream _ agreed sent
  rw [hagain.queries]
  exact view_of_lookup hq

/-- A waiting query is claimed for the first time, by a reply with its token. -/
theorem Sound.law_claimed (hx : f.dnsPending.lookup (word reply 0)=some x) :
    Law t (.claimed x reply) := by
  obtain ⟨⟨q,hq,htoken⟩,hnot⟩ := h.waiting _ x hx
  obtain ⟨⟨s,hs⟩,_⟩ := h.known x q hq
  have hseq := hs.seq
  refine ⟨hnot,s,hs.submitted,?_,?_⟩
  · rw [←htoken,Asked.token,hseq,Submission.token]
  · intro y s' hmem hne hnear hnear' heq
    obtain ⟨q',hq',hseq'⟩ := h.found y s' hmem
    have hsame : q'.token=q.token := by
      rw [Asked.token,Asked.token,hseq,hseq']
      exact heq
    rcases Nat.lt_or_gt_of_ne hne with hlt | hgt
    · have hfar := h.far hq hq' hlt hsame
      omega
    · have hfar := h.far hq' hq hgt hsame.symm
      omega

/-- A reply takes its query from the table. -/
theorem Sound.claim (index : ℕ) (hx : f.dnsPending.lookup (word reply 0)=some x) :
    Sound (t++[.claimed x reply]) {f with
      dnsPending := f.dnsPending.erase (word reply 0)
      dnsPreferred := index
      claims := f.claims.insert p (x,reply)} := by
  obtain ⟨⟨q,hq,htoken⟩,hnot⟩ := h.waiting _ x hx
  have herased := h.aside (pending_aside (shrinks_erase f.dnsPending (word reply 0)))
  have hgone : ∀ k, (f.dnsPending.erase (word reply 0)).lookup k≠some x := by
    intro k hk
    -- a query waits under its own token only, and that place is empty now
    obtain ⟨⟨q',hq',htoken'⟩,_⟩ := h.waiting k x (lookup_of_erase hk)
    cases hq.symm.trans hq'
    rw [←htoken',htoken,AList.lookup_erase] at hk
    cases hk
  have hstored : ∀ r phase, f.streams.lookup r=some phase → unstored phase≠some x :=
    fun r phase hr hphase => (h.storing r phase x hr hphase).2.1 _ hx
  have hclaimed := herased.concat (e := .claimed x reply) ⟨hgone,hstored⟩ (h.law_claimed hx)
  have hunheld : ∀ p' reply', f.claims.lookup p'≠some (x,reply') :=
    fun p' reply' hp' => hnot reply' (h.claimed p' x reply' hp').1
  refine {hclaimed with
    claimed := fun p' y reply' hp' => ?_
    apart := fun p' p'' y reply' reply'' hp' hp'' => ?_}
  · have hinsert := (lookup_insert_eq f.claims p p' (x,reply)).symm.trans hp'
    split at hinsert
    · cases hinsert
      refine ⟨by simp,fun r stream w => notMem_concat ?_ nofun⟩
      intro hwritten
      obtain ⟨front,back,rfl⟩ := append_of_mem hwritten
      exact hnot r (mem_append_left _ (h.law front _ back rfl).2.1)
    · exact hclaimed.claimed p' y reply' hinsert
  · have hinsert' := (lookup_insert_eq f.claims p p' (x,reply)).symm.trans hp'
    have hinsert'' := (lookup_insert_eq f.claims p p'' (x,reply)).symm.trans hp''
    split at hinsert' <;> split at hinsert''
    · omega
    · cases hinsert'
      exact absurd hinsert'' (hunheld p'' reply'')
    · cases hinsert''
      exact absurd hinsert' (hunheld p' reply')
    · exact h.apart p' p'' y reply' reply'' hinsert' hinsert''

theorem Sound.takeReply (p index : ℕ) (packet : Bytes) :
    Sound (t++(f.takeReply p index packet).2) (f.takeReply p index packet).1 := by
  rw [Front.takeReply]
  split
  · exact h.silent (Same.refl f).aside
  · split
    · exact h.silent (Same.refl f).aside
    · split
      · exact h.silent (Same.refl f).aside
      · rename_i x hx
        exact h.claim index hx

/-- A reply that is in hand is written once, with the identifier of its query restored. -/
theorem Sound.writeReply (hp : f.claims.lookup p=some (x,reply))
    (hq : f.queries.lookup x=some q) :
    Sound (t++(f.writeReply p x reply q.asked).2) (f.writeReply p x reply q.asked).1 := by
  have hdone : Sound t {f with claims := f.claims.erase p} :=
    {h with
      claimed := fun p' y reply' hp' => h.claimed p' y reply' (lookup_of_erase hp')
      apart := fun p' p'' y reply' reply'' hp' hp'' =>
        h.apart p' p'' y reply' reply'' (lookup_of_erase hp') (lookup_of_erase hp'')}
  rw [Front.writeReply]
  split
  · refine hdone.concat ?_ ?_
    · intro p' reply' hp'
      have hsame := h.apart p' p x reply' reply (lookup_of_erase hp') hp
      have herased : (f.claims.erase p).lookup p'=some (x,reply') := hp'
      rw [hsame,AList.lookup_erase] at herased
      cases herased
    · obtain ⟨hclaimed,hnot⟩ := h.claimed p x reply hp
      obtain ⟨⟨s,hs⟩,_⟩ := h.known x q.asked (view_of_lookup hq)
      exact ⟨hnot,hclaimed,s,hs.submitted,by rw [hs.conid,hs.isIpv6,hs.address,hs.identifier]⟩
  · exact hdone.silent (Same.refl _).aside

/-- The thread of a stream keeps everything in order. -/
theorem Sound.readerStep (hinv : Inv n f) {input : ReaderInput}
    (hphase : f.streams.lookup r=some phase) (he : f.readerStep r phase input=some (g,new)) :
    Sound (t++new) g := by
  have hr : phase≠.ended → r+1=n := hinv.newest r phase hphase
  unfold Front.readerStep at he
  split at he
  · cases he
    exact h.silent (setUp_aside f r _)
  · cases he
    exact h.silent (takeFrame_aside f r _)
  · cases he
    exact h.silent (goOn_aside f r rfl)
  · have hsubmitted := h.submitDnsQuery hinv (hr (by simp)) hphase
    rw [some.inj he] at hsubmitted
    exact hsubmitted
  · cases he
    rw [append_nil]
    exact h.check hphase
  · cases he
    rw [append_nil]
    exact h.evict hphase
  · obtain ⟨q,hq,heq⟩ := map_eq_some_iff.mp he
    cases heq
    exact h.store hinv (hr (by simp)) hphase hq
  · obtain ⟨q,hq,heq⟩ := map_eq_some_iff.mp he
    cases heq
    exact h.ask hq r _ _
  · split at he
    · cases he
      exact h.silent (goOn_aside f r rfl)
    · cases he
      exact h.silent (goOn_aside f r rfl)
  · cases he
    exact h.silent ((makeRoom_same f).goOn r rfl)
  · split at he
    · cases he
      refine h.silent (Same.goOn ?_ r rfl)
      rfl
    · cases he
      exact h.silent (goOn_aside f r rfl)
  · cases he
    refine h.silent (Same.goOn ?_ r rfl)
    rfl
  · cases he
    exact h.silent ((sendOn_same f _ _ _ _).goOn r rfl)
  · cases he
    exact (h.aside (tearDown_aside f r _)).concat trivial trivial
  · cases he

/-- A step of the front keeps everything in order. -/
theorem Sound.exec (hinv : Inv n f) {action : Action}
    (he : f.exec action=some (g,new)) : Sound (t++new) g := by
  cases action with
  | advance milliseconds | start =>
    cases he
    refine h.silent (Same.aside ?_)
    rfl
  | stop =>
    cases he
    refine h.silent ?_
    split
    · have hclosed := (closeAll_same f f.dnsChannels).aside
      exact {hclosed with pending := shrinks_empty _}
    · exact (Same.refl f).aside
  | streamUp =>
    cases he
    refine h.silent {(Same.refl f).aside with streams := fun r phase hr => ?_}
    have hinsert := (lookup_insert_eq f.streams _ r (.starting .closeAssociations)).symm.trans hr
    split at hinsert
    · cases hinsert
      exact .inr rfl
    · exact .inl hinsert
  | reader r input =>
    obtain ⟨phase,hphase,hstep⟩ := bind_eq_some_iff.mp he
    exact h.readerStep hinv hphase hstep
  | warm r index agreed =>
    simp only [Front.exec] at he
    split_ifs at he
    cases he
    exact h.silent (dnsChannel_same f r index agreed).aside
  | probe index =>
    cases he
    refine h.silent ?_
    split
    · exact {(Same.refl f).aside with seq := Nat.le_succ _}
    · exact (Same.refl f).aside
  | reply p index packet =>
    simp only [Front.exec] at he
    split_ifs at he
    have htaken := h.takeReply p index packet
    rw [some.inj he] at htaken
    exact htaken
  | write p =>
    obtain ⟨⟨x,reply⟩,hp,hrest⟩ := bind_eq_some_iff.mp he
    obtain ⟨q,hq,heq⟩ := map_eq_some_iff.mp hrest
    have hwritten := h.writeReply hp hq
    rw [heq] at hwritten
    exact hwritten
  | look token captured =>
    simp only [Front.exec] at he
    split_ifs at he
    cases he
    exact h.silent (look_same f token captured).aside
  | expire token =>
    simp only [Front.exec] at he
    split_ifs at he
    cases he
    exact h.silent {(Same.refl f).aside with pending := shrinks_erase _ token}
  | resend x captured agreed sent =>
    simp only [Front.exec] at he
    split_ifs at he
    obtain ⟨q,hq,heq⟩ := map_eq_some_iff.mp he
    have hsent := h.resend hq captured agreed sent
    rw [heq] at hsent
    exact hsent
  | channelEnds index c =>
    cases he
    refine h.silent (Same.aside (Same.trans ?_ (close_same _ c)))
    rfl
  | associationEnds conid a =>
    cases he
    refine h.silent (Same.aside (Same.trans ?_ (close_same _ a)))
    rfl
  | receive a =>
    cases he
    exact h.silent (modifyLink_same f a _).aside
  | reap conid =>
    cases he
    exact h.silent (reap_same f conid).aside
  | remove conid =>
    simp only [Front.exec] at he
    split_ifs at he
    cases he
    refine h.silent (Same.aside ?_)
    rfl

end

/-- At the start there are no queries. -/
theorem sound_start (h : machine.start f) : Sound [] f := by
  obtain ⟨seq,preferred,rfl⟩ := h
  exact ⟨Nat.zero_le _,nofun,nofun,nofun,nofun,nofun,nofun,nofun,nofun,nofun,guarded_nil Law⟩

end Steps

/-- While there is one stream at a time, every reply that is written is for the query whose token
it has, under the flow, the address and the identifier of that query, and there is at most one
for a query. The queries that wait do so under their own tokens, and they are no more than
there may be associations. -/
theorem run_matched {t : List Event} {f : Front}
    (h : machine.Run (fun _ f a => alone f a=true) t f) :
    Guarded Law t ∧ (∀ k x, f.dnsPending.lookup k=some x → ∃ s, .submitted x s∈t ∧ s.token=k) ∧
      f.dnsPending.entries.length ≤ maxAssociations := by
  obtain ⟨_,hsound⟩ := h.invariant (fun t f => (∃ n, Inv n f) ∧ Sound t f)
    (fun _ hstart => ⟨⟨0,inv_start hstart⟩,sound_start hstart⟩)
    (fun _ _ _ _ _ hinv _ hcond he =>
      hinv.1.elim fun _ h => ⟨(h.exec hcond he).1,hinv.2.exec h he⟩)
  refine ⟨hsound.law,fun k x hk => ?_,hsound.size⟩
  obtain ⟨⟨q,hq,htoken⟩,_⟩ := hsound.waiting k x hk
  obtain ⟨⟨s,hs⟩,_⟩ := hsound.known x q hq
  refine ⟨s,hs.submitted,?_⟩
  rw [←htoken,Submission.token,Asked.token,hs.seq]

/-- A reply of a resolver to the query with the token 8. -/
def sampleReply : Bytes := [0,8,129,128,0,1,0,0,0,0,0,0]

/-- The reply as it is written, for the query with the identifier 1. -/
def sampleFrame : Bytes := replyFrame 7 false [10,0,0,2,0,53] ([0,1]++sampleReply.drop 2)

/-- A query goes to one resolver and then to the other, and both reply. The first reply is
written and the second one finds nothing. -/
theorem run_matched_sample :
    ∃ t f, machine.Run (fun _ f a => alone f a=true) t f ∧ (.written 0 sampleReply 0 sampleFrame∈t ∧
        t.countP (fun e => e matches .asked _ _)=2) ∧
      Guarded Law t ∧
      (∀ k x, f.dnsPending.lookup k=some x → ∃ s, .submitted x s∈t ∧ s.token=k) ∧
      f.dnsPending.entries.length ≤ maxAssociations :=
  Machine.exists_run_with alone (fun _ _ _ h => ⟨trivial,h⟩) ⟨7,0,rfl⟩
    (.start::sampleStart 0++sampleUse 0++[.advance 1500,.look 8 1400,.resend 0 1400 true true,
      .reply 0 1 (encapsulate (dnsUpstream 1) 53 sampleReply),
      .reply 1 0 (encapsulate (dnsUpstream 0) 53 sampleReply),.write 0]) (by decide +kernel)
    fun _ _ => run_matched

end MsnGuard.ShardMatching
