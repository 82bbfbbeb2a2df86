import Mathlib.Tactic

/-!
# Incremental decoding of framed streams

A receiver appends every chunk that arrives to its buffer and takes frames from it until there
is no complete one. Whatever the cuts between chunks, it has then taken exactly the frames that
lie completely in what has arrived.
-/

namespace MsnGuard.FramedStreams

open List

variable {α β : Type}

/-- A code for the items that satisfy `valid`. The decoder takes a complete
frame from the front of any buffer and nothing from the beginning of one. -/
structure FrameCode (α β : Type) where
  /-- Items that can be sent. -/
  valid : α → Prop
  /-- The cells of one item. -/
  encode : α → List β
  /-- Take one item from the front of a buffer and return what is left of it. -/
  next : List β → Option α × List β
  /-- Nothing is taken from an empty buffer. -/
  next_nil : next []=(none,[])
  /-- No frame is empty. -/
  encode_ne_nil : ∀ a, valid a → encode a≠[]
  /-- A complete frame is taken, and what follows it stays. -/
  next_encode : ∀ a rest, valid a → next (encode a++rest)=(some a,rest)
  /-- The beginning of a frame is not mistaken for one. -/
  next_short : ∀ a p, valid a → p <+: encode a → p≠encode a → next p=(none,p)

/-- Take items until the decoder has none; every item uses up some fuel. -/
def drain (next : List β → Option α × List β) : ℕ → List β → List α × List β
  | 0,buf => ([],buf)
  | fuel+1,buf =>
    match next buf with
    | (none,rest) => ([],rest)
    | (some a,rest) =>
      let (items,tail) := drain next fuel rest
      (a::items,tail)

/-- Append each chunk to the buffer and take what is complete. -/
def receive (next : List β → Option α × List β) : List β → List (List β) → List α × List β
  | buf,[] => ([],buf)
  | buf,chunk::chunks =>
    let (items,tail) := drain next (buf++chunk).length (buf++chunk)
    let (more,last) := receive next tail chunks
    (items++more,last)

namespace FrameCode

variable (code : FrameCode α β)
variable {items : List α} {buf : List β} {chunks : List (List β)}

/-- The cells of a list of items, one after the other. -/
def encodeAll (items : List α) : List β := items.flatMap code.encode

/-- A proper beginning of the next frame, or nothing at the end. -/
def Incomplete : List α → List β → Prop
  | [],tail => tail=[]
  | a::_,tail => tail <+: code.encode a ∧ tail≠code.encode a

@[simp] theorem encodeAll_nil : code.encodeAll []=[] := rfl

@[simp] theorem encodeAll_cons (a : α) (items : List α) :
    code.encodeAll (a::items)=code.encode a++code.encodeAll items := by
  simp [encodeAll]

theorem encodeAll_append (items more : List α) :
    code.encodeAll (items++more)=code.encodeAll items++code.encodeAll more := by
  simp [encodeAll]

/-- An incomplete remainder yields nothing. -/
theorem drain_incomplete {items : List α} {tail : List β} (hv : ∀ a∈items, code.valid a)
    (ht : code.Incomplete items tail) (fuel : ℕ) : drain code.next fuel tail=([],tail) := by
  have hnone : code.next tail=(none,tail) := by
    cases items with
    | nil =>
      rw [show tail=[] from ht]
      exact code.next_nil
    | cons a items => exact code.next_short a tail (hv a mem_cons_self) ht.1 ht.2
  cases fuel with
  | zero => rfl
  | succ fuel => simp only [drain,hnone]

/-- Draining a buffer that holds the beginning of a stream takes the complete
frames and leaves the incomplete one. -/
theorem drain_stream (hv : ∀ a∈items, code.valid a) (hb : buf <+: code.encodeAll items)
    {fuel : ℕ} (hf : buf.length≤fuel) :
    ∃ taken rest tail, items=taken++rest ∧ drain code.next fuel buf=(taken,tail) ∧
      buf=code.encodeAll taken++tail ∧ code.Incomplete rest tail := by
  induction items generalizing buf fuel with
  | nil =>
    have hnil : buf=[] := by simpa using hb
    subst hnil
    exact ⟨[],[],[],rfl,@drain_incomplete _ _ code [] [] (by simp) rfl fuel,rfl,rfl⟩
  | cons a items ih =>
    have ha := hv a mem_cons_self
    rw [encodeAll_cons] at hb
    by_cases hwhole : code.encode a <+: buf
    · obtain ⟨more,rfl⟩ := hwhole
      have hmore : more <+: code.encodeAll items := (prefix_append_right_inj _).mp hb
      have hpos := length_pos_of_ne_nil (code.encode_ne_nil a ha)
      rw [length_append] at hf
      obtain ⟨left,rfl⟩ : ∃ left, fuel=left+1 := ⟨fuel-1,by omega⟩
      obtain ⟨taken,rest,tail,rfl,hdrain,rfl,htail⟩ :=
        ih (fun b hb => hv b (mem_cons_of_mem _ hb)) hmore (by omega : more.length≤left)
      refine ⟨a::taken,rest,tail,rfl,?_,by simp,htail⟩
      rw [drain,code.next_encode a _ ha]
      simp only [hdrain]
    · have hpre : buf <+: code.encode a := by
        rcases prefix_or_prefix_of_prefix hb (prefix_append _ _) with h | h
        · exact h
        · exact absurd h hwhole
      have hinc : code.Incomplete (a::items) buf :=
        ⟨hpre,fun h => hwhole (h ▸ prefix_refl _)⟩
      exact ⟨[],a::items,buf,rfl,code.drain_incomplete hv hinc fuel,rfl,hinc⟩

/-- Receiving the beginning of a stream in any chunks takes the frames that
have arrived completely and keeps the beginning of the next. -/
theorem receive_stream (hv : ∀ a∈items, code.valid a) (hi : code.Incomplete items buf)
    (hs : buf++chunks.flatten <+: code.encodeAll items) :
    ∃ taken rest tail, items=taken++rest ∧ receive code.next buf chunks=(taken,tail) ∧
      buf++chunks.flatten=code.encodeAll taken++tail ∧ code.Incomplete rest tail := by
  induction chunks generalizing items buf with
  | nil => exact ⟨[],items,buf,rfl,rfl,by simp,hi⟩
  | cons chunk chunks ih =>
    rw [flatten_cons,←append_assoc] at hs
    obtain ⟨taken,rest,tail,rfl,hdrain,hbuf,htail⟩ :=
      code.drain_stream hv ((prefix_append _ _).trans hs) le_rfl
    have hrest : tail++chunks.flatten <+: code.encodeAll rest := by
      rw [hbuf,encodeAll_append,append_assoc] at hs
      exact (prefix_append_right_inj _).mp hs
    obtain ⟨more,rest,last,rfl,hrun,hcells,hlast⟩ :=
      ih (fun a ha => hv a (mem_append_right _ ha)) htail hrest
    refine ⟨taken++more,rest,last,by simp,?_,?_,hlast⟩
    · simp only [receive,hdrain,hrun]
    · rw [flatten_cons,←append_assoc,hbuf,append_assoc,hcells,encodeAll_append,
        append_assoc]

/-- A stream that has arrived completely has been taken completely. -/
theorem receive_all (hv : ∀ a∈items, code.valid a) (hs : chunks.flatten=code.encodeAll items) :
    receive code.next [] chunks=(items,[]) := by
  have hi : code.Incomplete items [] := by
    cases items with
    | nil => rfl
    | cons a items =>
      have hne := code.encode_ne_nil a (hv a mem_cons_self)
      exact ⟨List.nil_prefix,fun h => hne h.symm⟩
  obtain ⟨taken,rest,tail,rfl,hrun,hcells,htail⟩ :=
    code.receive_stream hv hi (by rw [hs]; exact prefix_refl _)
  rw [nil_append,hs,encodeAll_append] at hcells
  have htail' : code.encodeAll rest=tail := append_cancel_left hcells
  cases rest with
  | nil =>
    rw [hrun,←htail']
    simp
  | cons a rest =>
    exfalso
    have hlen := htail.1.length_le
    rw [←htail',encodeAll_cons,length_append] at hlen
    have hnil : code.encodeAll rest=[] := eq_nil_of_length_eq_zero (by omega)
    exact htail.2 (by rw [←htail',encodeAll_cons,hnil,append_nil])

end FrameCode

end MsnGuard.FramedStreams
