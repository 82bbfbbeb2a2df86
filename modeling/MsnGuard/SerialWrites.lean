import MsnGuard.FiniteTables

/-!
# Items written part by part

Several writers share an output, and nothing keeps the others out between two parts of an item.
If a writer begins only while no item is half written, the output is one whole item after the
other, with at most one half written item at its end.
-/

namespace MsnGuard.SerialWrites

open FiniteTables List

variable {β : Type}

/-- An item on its way into the output. -/
structure Write (β : Type) where
  /-- What is written of it. -/
  done : List β
  /-- The parts that are not. -/
  left : List (List β)

/-- The item. -/
def Write.whole (w : Write β) : List β := w.done++w.left.flatten

/-- An output and the items that are being written. -/
structure Output (β : Type) where
  sent : List β
  writers : Table (Write β)

namespace Output

/-- A writer gets an item. -/
def give (o : Output β) (x : ℕ) (parts : List (List β)) : Output β :=
  {o with writers := o.writers.insert x ⟨[],parts⟩}

/-- A writer writes the next part. With the last part the item is whole. -/
def write (o : Output β) (x : ℕ) : Option (Output β × Option (List β)) :=
  (o.writers.lookup x).bind fun w => match w.left with
    | [] => none
    | part::[] => some (⟨o.sent++part,o.writers.erase x⟩,some (w.done++part))
    | part::rest => some (⟨o.sent++part,o.writers.insert x ⟨w.done++part,rest⟩⟩,none)

/-- Does a writer find no item of another half written when it begins? -/
def free (o : Output β) (x : ℕ) : Bool :=
  (o.writers.lookup x).all fun w =>
    !w.done.isEmpty || o.writers.entries.all fun e => decide (e.1=x) || e.2.done.isEmpty

/-- Every item that is being written has a property, and its first part is not empty. -/
structure Holds (good : List β → Prop) (o : Output β) : Prop where
  whole : ∀ x w, o.writers.lookup x=some w → good w.whole
  first : ∀ x w, o.writers.lookup x=some w → w.done=[] → ∀ part∈w.left.head?, part≠[]

/-- The output is some items, and then what is written of one more. -/
inductive Serial (items : List (List β)) (o : Output β) : Prop
  | idle : o.sent=items.flatten → (∀ x w, o.writers.lookup x=some w → w.done=[]) → Serial items o
  | busy {x : ℕ} {w : Write β} : o.writers.lookup x=some w → w.done≠[] →
      o.sent=items.flatten++w.done →
      (∀ y w', o.writers.lookup y=some w' → w'.done≠[] → y=x) → Serial items o

section Steps

variable {good : List β → Prop} {items : List (List β)} {o o' : Output β} {x : ℕ}
variable {finished : Option (List β)}

/-- What a part that is written changes. -/
inductive Written (o : Output β) (x : ℕ) : Output β → Option (List β) → Prop
  | last {done part : List β} : o.writers.lookup x=some ⟨done,[part]⟩ →
      Written o x ⟨o.sent++part,o.writers.erase x⟩ (some (done++part))
  | part {done part : List β} {rest : List (List β)} :
      o.writers.lookup x=some ⟨done,part::rest⟩ →
      Written o x ⟨o.sent++part,o.writers.insert x ⟨done++part,rest⟩⟩ none

theorem write_written (h : o.write x=some (o',finished)) : Written o x o' finished := by
  obtain ⟨⟨done,left⟩,hlookup,hwrite⟩ := Option.bind_eq_some_iff.mp h
  cases left with
  | nil => cases hwrite
  | cons part rest =>
    cases rest with
    | nil =>
      cases hwrite
      exact .last hlookup
    | cons next rest =>
      cases hwrite
      exact .part hlookup

theorem Holds.mono {good' : List β → Prop} (h : Holds good o)
    (hgood : ∀ item, good item → good' item) : Holds good' o :=
  ⟨fun y w hy => hgood _ (h.whole y w hy),h.first⟩

/-- A writer that gives up takes its item with it. -/
theorem Holds.erase (h : Holds good o) (x : ℕ) : Holds good {o with writers := o.writers.erase x} :=
  ⟨fun y w hy => h.whole y w (lookup_of_erase hy),fun y w hy => h.first y w (lookup_of_erase hy)⟩

/-- A new item has the property, and begins with something. -/
theorem Holds.give (h : Holds good o) {parts : List (List β)} (hgood : good parts.flatten)
    (hfirst : ∀ part∈parts.head?, part≠[]) : Holds good (o.give x parts) := by
  refine ⟨fun y w hy => ?_,fun y w hy hdone => ?_⟩
  · rw [Output.give,lookup_insert_eq] at hy
    split at hy
    · cases hy
      exact hgood
    · exact h.whole y w hy
  · rw [Output.give,lookup_insert_eq] at hy
    split at hy
    · cases hy
      exact hfirst
    · exact h.first y w hy hdone

/-- A part that is written leaves every item as it is, and what gets whole was an item. -/
theorem Holds.write (h : Holds good o) (hwrite : o.write x=some (o',finished)) :
    Holds good o' ∧ ∀ item∈finished, good item := by
  cases write_written hwrite with
  | @last done part hlookup =>
    refine ⟨⟨(h.erase x).whole,(h.erase x).first⟩,?_⟩
    rintro item ⟨⟩
    have hwhole := h.whole x _ hlookup
    rwa [Write.whole,flatten_singleton] at hwhole
  | @part done part rest hlookup =>
    have hwhole := h.whole x _ hlookup
    have hfirst := h.first x _ hlookup
    refine ⟨⟨fun y w hy => ?_,fun y w hy hdone => ?_⟩,nofun⟩
    · rw [lookup_insert_eq] at hy
      split at hy
      · cases hy
        rwa [Write.whole,flatten_cons,←append_assoc] at hwhole
      · exact h.whole y w hy
    · rw [lookup_insert_eq] at hy
      split at hy
      · cases hy
        obtain ⟨hnone,hnil⟩ := append_eq_nil_iff.mp hdone
        exact absurd hnil (hfirst hnone part rfl)
      · exact h.first y w hy hdone

/-- A new item is not half written. -/
theorem Serial.give (h : Serial items o) (hx : o.writers.lookup x=none)
    (parts : List (List β)) : Serial items (o.give x parts) := by
  cases h with
  | idle hsent hdone =>
    refine .idle hsent fun y w hy => ?_
    rw [Output.give,lookup_insert_eq] at hy
    split at hy
    · cases hy
      rfl
    · exact hdone y w hy
  | @busy z w hlookup hdone hsent hothers =>
    have hne : z≠x := by
      rintro rfl
      rw [hx] at hlookup
      cases hlookup
    refine .busy (x := z) (w := w) ?_ hdone hsent fun y w' hy hbegun => ?_
    · rw [Output.give,lookup_insert_eq,if_neg hne]
      exact hlookup
    · rw [Output.give,lookup_insert_eq] at hy
      split at hy
      · cases hy
        exact absurd rfl hbegun
      · exact hothers y w' hy hbegun

/-- The other writers have not begun when a writer that is free to do so writes. -/
theorem Serial.others (h : Serial items o) (hfree : o.free x=true) {w : Write β}
    (hlookup : o.writers.lookup x=some w) :
    o.sent=items.flatten++w.done ∧ ∀ y w', o.writers.lookup y=some w' → w'.done≠[] → y=x := by
  cases h with
  | idle hsent hdone =>
    refine ⟨?_,fun y w' hy hbegun => absurd (hdone y w' hy) hbegun⟩
    rw [hdone x w hlookup,append_nil,hsent]
  | @busy z w' hbusy hbegun hsent hothers =>
    by_cases hzx : z=x
    · subst hzx
      rw [hbusy] at hlookup
      cases hlookup
      exact ⟨hsent,hothers⟩
    · -- a writer that is not the busy one has nothing written, so that it is not free
      have hnone : w.done=[] := by
        by_contra hne
        exact hzx (hothers x w hlookup hne).symm
      rw [free,hlookup,Option.all_some,hnone] at hfree
      simp only [List.isEmpty_nil,Bool.not_true,Bool.false_or,List.all_eq_true] at hfree
      have hz := hfree ⟨z,w'⟩ (AList.mem_lookup_iff.mp hbusy)
      simp only [hzx,decide_false,Bool.false_or,List.isEmpty_iff] at hz
      exact absurd hz hbegun

/-- A part that is written by a writer that is free to do so goes to the end of its item. -/
theorem Serial.write (h : Serial items o) (hfree : o.free x=true)
    (hwrite : o.write x=some (o',finished)) : Serial (items++finished.toList) o' := by
  cases write_written hwrite with
  | @last done part hlookup =>
    obtain ⟨hsent,hothers⟩ := h.others hfree hlookup
    refine .idle ?_ fun y w hy => ?_
    · simp only [hsent,flatten_append,Option.toList_some,flatten_singleton,
        append_assoc]
    · by_contra hbegun
      have hyx := hothers y w (lookup_of_erase hy) hbegun
      rw [lookup_erase_eq,if_pos hyx] at hy
      cases hy
  | @part done part rest hlookup =>
    obtain ⟨hsent,hothers⟩ := h.others hfree hlookup
    have hstill : ∀ y w', (o.writers.insert x ⟨done++part,rest⟩).lookup y=some w' →
        w'.done≠[] → y=x := by
      intro y w' hy hbegun
      rw [lookup_insert_eq] at hy
      split at hy
      · assumption
      · exact hothers y w' hy hbegun
    rw [Option.toList_none,append_nil]
    rcases eq_or_ne (done++part) [] with hnil | hne
    · refine .idle ?_ fun y w hy => ?_
      · rw [hsent,append_assoc,hnil,append_nil]
      · by_contra hbegun
        have hyx := hstill y w hy hbegun
        rw [hyx,lookup_insert_eq,if_pos rfl] at hy
        cases hy
        exact hbegun hnil
    · refine .busy (x := x) (w := ⟨done++part,rest⟩) ?_ hne ?_ hstill
      · rw [lookup_insert_eq,if_pos rfl]
      · rw [hsent,append_assoc]

end Steps

end Output

end MsnGuard.SerialWrites
