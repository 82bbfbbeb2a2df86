import Mathlib.Tactic

/-!
# Reading a stream while it arrives

A reader keeps what has arrived in a buffer and takes turns until it has to wait for more. If a
turn on a longer buffer does the same as on a shorter one, the cuts of the stream do not matter.
-/

namespace MsnGuard.IncrementalReading

open List

section Search

variable {β : Type} {pat buf buf' : List β} {start e : ℕ}

/-- The pattern stands at a place. -/
def Here (pat buf : List β) (j : ℕ) : Prop := (buf.drop j).take pat.length=pat

theorem here_length (hpat : pat≠[]) {j : ℕ} (h : Here pat buf j) : j+pat.length≤buf.length := by
  have hpos := length_pos_iff.mpr hpat
  have hlength := congrArg length h
  rw [length_take,length_drop] at hlength
  omega

theorem here_drop (pat buf : List β) (start j : ℕ) :
    Here pat (buf.drop start) j ↔ Here pat buf (start+j) := by
  rw [Here,Here,drop_drop]

/-- Whether the pattern stands in what has arrived does not depend on what comes. -/
theorem here_grow (hbuf : buf <+: buf') {j : ℕ} (hj : j+pat.length≤buf.length) :
    Here pat buf j ↔ Here pat buf' j := by
  obtain ⟨rest,rfl⟩ := hbuf
  have htake : ((buf++rest).drop j).take pat.length=(buf.drop j).take pat.length := by
    rw [drop_append_of_le_length (by omega),
      take_append_of_le_length (by rw [length_drop]; omega)]
  rw [Here,Here,htake]

variable [DecidableEq β]

instance (pat buf : List β) (j : ℕ) : Decidable (Here pat buf j) :=
  inferInstanceAs (Decidable (_=_))

/-- The first of the windows that is the pattern. -/
def position (pat buf : List β) : Option ℕ :=
  (List.range (buf.length+1-pat.length)).find? fun j => decide (Here pat buf j)

/-- The first place of the pattern, not before another one. -/
def findFrom (pat buf : List β) (start : ℕ) : Option ℕ :=
  (position pat (buf.drop start)).map (start+·)

section

variable (hpat : pat≠[])

include hpat

theorem position_eq_some : position pat buf=some e ↔ Here pat buf e ∧ ∀ j<e, ¬Here pat buf j := by
  rw [position,find?_range_eq_some]
  simp only [decide_eq_true_eq,Bool.not_eq_true',decide_eq_false_iff_not,mem_range]
  constructor
  · rintro ⟨hhere,-,hfirst⟩
    exact ⟨hhere,hfirst⟩
  · rintro ⟨hhere,hfirst⟩
    have := here_length hpat hhere
    exact ⟨hhere,by omega,hfirst⟩

theorem position_eq_none : position pat buf=none ↔ ∀ j, ¬Here pat buf j := by
  rw [position,find?_eq_none]
  simp only [mem_range,decide_eq_true_eq]
  constructor
  · intro h j hhere
    have := here_length hpat hhere
    exact h j (by omega) hhere
  · intro h j _
    exact h j

theorem findFrom_eq_some :
    findFrom pat buf start=some e ↔
      start≤e ∧ Here pat buf e ∧ ∀ j, start≤j → j<e → ¬Here pat buf j := by
  rw [findFrom,Option.map_eq_some_iff]
  constructor
  · rintro ⟨offset,hoffset,rfl⟩
    obtain ⟨hhere,hfirst⟩ := (position_eq_some hpat).mp hoffset
    refine ⟨Nat.le_add_right _ _,(here_drop ..).mp hhere,fun j hstart hj hbad => ?_⟩
    refine hfirst (j-start) (by omega) ((here_drop ..).mpr ?_)
    rwa [Nat.add_sub_cancel' hstart]
  · rintro ⟨hstart,hhere,hfirst⟩
    refine ⟨e-start,(position_eq_some hpat).mpr ⟨(here_drop ..).mpr ?_,fun j hj hbad => ?_⟩,
      Nat.add_sub_cancel' hstart⟩
    · rwa [Nat.add_sub_cancel' hstart]
    · exact hfirst (start+j) (by omega) (by omega) ((here_drop ..).mp hbad)

theorem findFrom_eq_none : findFrom pat buf start=none ↔ ∀ j, start≤j → ¬Here pat buf j := by
  rw [findFrom,Option.map_eq_none_iff,position_eq_none hpat]
  constructor
  · intro h j hstart hhere
    refine h (j-start) ((here_drop ..).mpr ?_)
    rwa [Nat.add_sub_cancel' hstart]
  · intro h j hhere
    exact h (start+j) (Nat.le_add_right _ _) ((here_drop ..).mp hhere)

/-- What has been found stays found. -/
theorem findFrom_grow (hbuf : buf <+: buf')
    (h : findFrom pat buf start=some e) : findFrom pat buf' start=some e := by
  obtain ⟨hstart,hhere,hfirst⟩ := (findFrom_eq_some hpat).mp h
  have hlength := here_length hpat hhere
  refine (findFrom_eq_some hpat).mpr ⟨hstart,(here_grow hbuf hlength).mp hhere,?_⟩
  intro j hj hlt hbad
  exact hfirst j hj hlt ((here_grow hbuf (by omega)).mpr hbad)

/-- Places at which the pattern does not stand may be left out of a search. -/
theorem findFrom_skip {base : ℕ} (hbase : base ≤ start)
    (h : ∀ j, base≤j → j<start → ¬Here pat buf j) :
    findFrom pat buf start=findFrom pat buf base := by
  cases hfound : findFrom pat buf base with
  | none =>
    rw [findFrom_eq_none hpat] at hfound ⊢
    intro j hj
    exact hfound j (hbase.trans hj)
  | some e =>
    obtain ⟨hstart,hhere,hfirst⟩ := (findFrom_eq_some hpat).mp hfound
    refine (findFrom_eq_some hpat).mpr ⟨?_,hhere,fun j hj hlt => hfirst j (hbase.trans hj) hlt⟩
    by_contra hlt
    exact h e hstart (by omega) hhere

/-- A search that goes on near the end of what was searched finds what a search
from the beginning finds. -/
theorem findFrom_resume {w : List β} (hbuf : buf <+: w) {base searched : ℕ}
    (h : ∀ j, base≤j → j+pat.length ≤ searched → ¬Here pat w j) :
    findFrom pat buf (max (searched-(pat.length-1)) base)=findFrom pat buf base := by
  refine findFrom_skip hpat (le_max_right _ _) fun j hj hlt hhere => ?_
  have hpos := length_pos_iff.mpr hpat
  exact h j hj (by omega) ((here_grow hbuf (here_length hpat hhere)).mp hhere)

/-- Where nothing has been found nothing stands. -/
theorem searched_through {w : List β} (hbuf : buf <+: w)
    (h : findFrom pat buf start=none) (j : ℕ) (hj : start≤j)
    (hlength : j+pat.length≤buf.length) : ¬Here pat w j := by
  intro hhere
  exact (findFrom_eq_none hpat).mp h j hj ((here_grow hbuf hlength).mpr hhere)

end

end Search

section Loops

variable {β σ ε : Type}

/-- What a turn of a reader leads to. -/
inductive Turn (σ ε : Type) where
  /-- The stream is not one that can be read. -/
  | fail (e : ε)
  /-- The reader waits for more. -/
  | wait (s : σ)
  /-- The reader takes another turn. -/
  | next (s : σ)
  /-- There is nothing left to read. -/
  | done

/-- Take turns until the reader waits, ends or fails. -/
def loop (turn : List β → σ → Turn σ ε) (buf : List β) : ℕ → σ → Except ε (σ × Bool)
  | 0,s => .ok (s,false)
  | fuel+1,s =>
    match turn buf s with
    | .fail e => .error e
    | .wait s' => .ok (s',false)
    | .next s' => loop turn buf fuel s'
    | .done => .ok (s,true)

/-- Read a buffer. -/
def run (turn : List β → σ → Turn σ ε) (buf : List β) (s : σ) : Except ε (σ × Bool) :=
  loop turn buf (buf.length+1) s

/-- The states in which a reader takes turns. -/
def trail (turn : List β → σ → Turn σ ε) (buf : List β) : ℕ → σ → List σ
  | 0,_ => []
  | fuel+1,s =>
    s::match turn buf s with
      | .next s' => trail turn buf fuel s'
      | _ => []

/-- What a turn on a beginning of a stream may be, for a reader that the cuts of
the stream do not matter to: it is the same on every longer beginning, unless the
reader waits; then going on from there is the same as not having waited. A reader
that takes another turn has moved forward. -/
inductive Steady (turn : List β → σ → Turn σ ε) (pos : σ → ℕ) (w : List β) (inv : σ → Prop)
    (buf : List β) (s : σ) : Prop
  | done : (∀ buf', buf <+: buf' → buf' <+: w → turn buf' s=.done) → Steady turn pos w inv buf s
  | fail (e : ε) : (∀ buf', buf <+: buf' → buf' <+: w → turn buf' s=.fail e) →
      Steady turn pos w inv buf s
  | wait (s' : σ) : turn buf s=.wait s' → (∀ buf', buf <+: buf' → buf' <+: w →
        turn buf' s'=turn buf' s ∧ turn buf' s≠.done) → Steady turn pos w inv buf s
  | next (s' : σ) : (∀ buf', buf <+: buf' → buf' <+: w → turn buf' s=.next s') →
      pos s<pos s' → pos s'≤buf.length → inv s' → Steady turn pos w inv buf s

/-- A reader all of whose turns are steady. -/
def Resumable (turn : List β → σ → Turn σ ε) (pos : σ → ℕ) (w : List β) (inv : σ → Prop) : Prop :=
  ∀ buf s, buf <+: w → inv s → Steady turn pos w inv buf s

variable {turn : List β → σ → Turn σ ε} {pos : σ → ℕ} {w buf buf' : List β} {inv : σ → Prop}
  {s s' : σ}

theorem run_congr (h : turn buf s'=turn buf s) (hdone : turn buf s≠.done) :
    run turn buf s'=run turn buf s := by
  rw [run,run,loop,loop,h]
  split
  · rfl
  · rfl
  · rfl
  · rename_i hd
    exact absurd hd hdone

namespace Resumable

section

variable (h : Resumable turn pos w inv)

include h

/-- More turns than there are places are of no use. -/
theorem enough (hbuf : buf <+: w) (n m : ℕ) (hs : inv s)
    (hpos : pos s≤buf.length) (hn : buf.length<pos s+n) (hm : buf.length<pos s+m) :
    loop turn buf n s=loop turn buf m s := by
  induction n generalizing m s with
  | zero => omega
  | succ n ih =>
    cases m with
    | zero => omega
    | succ m =>
      rw [loop,loop]
      cases h buf s hbuf hs with
      | done hdone => rw [hdone buf prefix_rfl hbuf]
      | fail e hfail => rw [hfail buf prefix_rfl hbuf]
      | wait s' hwait => rw [hwait]
      | next s' hnext hlt hle hinv =>
        rw [hnext buf prefix_rfl hbuf]
        exact ih m hinv hle (by omega) (by omega)

/-- A turn does not change what a reader finds. -/
theorem run_next (hbuf : buf <+: w) (hs : inv s')
    (hnext : turn buf s=.next s') (hlt : pos s<pos s') (hle : pos s'≤buf.length) :
    run turn buf s=run turn buf s' := by
  rw [run,loop,hnext]
  exact h.enough hbuf _ _ hs hle (by omega) (by omega)

/-- What a reader has found on a shorter buffer, it finds on a longer one: a
failure is the same, the end is the same, and one that waits goes on as if it had
not begun. -/
theorem grow_loop (hbuf : buf <+: buf') (hw : buf' <+: w) (n : ℕ)
    (hs : inv s) (hpos : pos s≤buf.length) (hn : buf.length<pos s+n) :
    (∀ e, loop turn buf n s=.error e → run turn buf' s=.error e) ∧
      (∀ s', loop turn buf n s=.ok (s',false) → run turn buf' s'=run turn buf' s) ∧
      ∀ s', loop turn buf n s=.ok (s',true) → run turn buf' s=.ok (s',true) := by
  induction n generalizing s with
  | zero => omega
  | succ n ih =>
    have hbufw := hbuf.trans hw
    rw [loop]
    cases h buf s hbufw hs with
    | done hdone =>
      rw [hdone buf prefix_rfl hbufw]
      refine ⟨nofun,nofun,fun s' he => ?_⟩
      cases he
      rw [run,loop,hdone buf' hbuf hw]
    | fail e hfail =>
      rw [hfail buf prefix_rfl hbufw]
      refine ⟨fun e' he => ?_,nofun,nofun⟩
      cases he
      rw [run,loop,hfail buf' hbuf hw]
    | wait s₁ hwait hsame =>
      rw [hwait]
      refine ⟨nofun,fun s' he => ?_,nofun⟩
      cases he
      obtain ⟨hturn,hdone⟩ := hsame buf' hbuf hw
      exact run_congr hturn hdone
    | next s₁ hnext hlt hle hinv =>
      have hle' := hle.trans hbuf.length_le
      rw [hnext buf prefix_rfl hbufw,h.run_next hw hinv (hnext buf' hbuf hw) hlt hle']
      exact ih hinv hle (by omega)

/-- A reader stops only in a turn that waits or ends. -/
theorem stops_loop (hbuf : buf <+: w) (n : ℕ) (hs : inv s)
    (hpos : pos s≤buf.length) (hn : buf.length<pos s+n) :
    (∀ s', loop turn buf n s=.ok (s',false) → ∃ s₁, inv s₁ ∧ turn buf s₁=.wait s') ∧
      ∀ s', loop turn buf n s=.ok (s',true) → inv s' ∧ turn buf s'=.done := by
  induction n generalizing s with
  | zero => omega
  | succ n ih =>
    rw [loop]
    cases h buf s hbuf hs with
    | done hdone =>
      have hturn := hdone buf prefix_rfl hbuf
      rw [hturn]
      refine ⟨nofun,fun s' he => ?_⟩
      cases he
      exact ⟨hs,hturn⟩
    | fail e hfail =>
      rw [hfail buf prefix_rfl hbuf]
      exact ⟨nofun,nofun⟩
    | wait s₁ hwait =>
      rw [hwait]
      refine ⟨fun s' he => ?_,nofun⟩
      cases he
      exact ⟨s,hs,hwait⟩
    | next s₁ hnext hlt hle hinv =>
      rw [hnext buf prefix_rfl hbuf]
      exact ih hinv hle (by omega)

end

section Runs

variable (h : Resumable turn pos w inv) (hs : inv s) (hpos : pos s≤buf.length)

include h hs hpos

theorem stops_wait (hbuf : buf <+: w) (he : run turn buf s=.ok (s',false)) :
    ∃ s₁, inv s₁ ∧ turn buf s₁=.wait s' :=
  (h.stops_loop hbuf _ hs hpos (by omega)).1 s' he

theorem stops_done (hbuf : buf <+: w) (he : run turn buf s=.ok (s',true)) :
    inv s' ∧ turn buf s'=.done :=
  (h.stops_loop hbuf _ hs hpos (by omega)).2 s' he

/-- A reader that has ended has ended on every longer buffer. -/
theorem stays_done (hbuf : buf <+: buf') (hw : buf' <+: w)
    (he : run turn buf s=.ok (s',true)) : run turn buf' s'=.ok (s',true) := by
  obtain ⟨hs',hturn⟩ := h.stops_done hs hpos (hbuf.trans hw) he
  have hended : turn buf' s'=.done := by
    cases h buf s' (hbuf.trans hw) hs' with
    | done hdone => exact hdone buf' hbuf hw
    | fail e hfail =>
      rw [hfail buf prefix_rfl (hbuf.trans hw)] at hturn
      cases hturn
    | wait s₁ hwait =>
      rw [hwait] at hturn
      cases hturn
    | next s₁ hnext =>
      rw [hnext buf prefix_rfl (hbuf.trans hw)] at hturn
      cases hturn
  rw [run,loop,hended]

theorem grow_error (hbuf : buf <+: buf') (hw : buf' <+: w) {e : ε}
    (he : run turn buf s=.error e) : run turn buf' s=.error e :=
  (h.grow_loop hbuf hw _ hs hpos (by omega)).1 e he

theorem grow_wait (hbuf : buf <+: buf') (hw : buf' <+: w)
    (he : run turn buf s=.ok (s',false)) : run turn buf' s'=run turn buf' s :=
  (h.grow_loop hbuf hw _ hs hpos (by omega)).2.1 s' he

theorem grow_done (hbuf : buf <+: buf') (hw : buf' <+: w)
    (he : run turn buf s=.ok (s',true)) : run turn buf' s=.ok (s',true) :=
  (h.grow_loop hbuf hw _ hs hpos (by omega)).2.2 s' he

end Runs

end Resumable

/-- A reader that has come to a state has come to the next one. -/
theorem mem_trail_next (pos : σ → ℕ)
    (hmoves : ∀ {s s'}, turn w s=.next s' → pos s<pos s' ∧ pos s'≤w.length) (n : ℕ)
    {first : σ} (hn : w.length<pos first+n) (hs : s∈trail turn w n first)
    (hnext : turn w s=.next s') : s'∈trail turn w n first := by
  induction n generalizing first with
  | zero => cases hs
  | succ n ih =>
    rw [trail] at hs ⊢
    rcases mem_cons.mp hs with rfl | hlater
    · obtain ⟨hlt,hle⟩ := hmoves hnext
      rw [hnext]
      cases n with
      | zero => omega
      | succ n => exact mem_cons_of_mem _ mem_cons_self
    · cases hturn : turn w first with
      | next s₁ =>
        rw [hturn] at hlater
        have := (hmoves hturn).1
        exact mem_cons_of_mem _ (ih (by omega) hlater)
      | fail e | wait s₁ | done =>
        rw [hturn] at hlater
        cases hlater

end Loops

end MsnGuard.IncrementalReading
