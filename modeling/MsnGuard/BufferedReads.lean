import Mathlib.Tactic

/-!
# Reading through a buffer

A buffered reader takes from the pieces of a stream as much as its buffer has room for and hands
out one item after the other. Whoever goes on with the stream itself misses what was kept,
unless the reader stops where a piece ends.
-/

namespace MsnGuard.BufferedReads

open List

variable {α : Type}

/-- Take from the first piece what there is room for, or nothing at the end of the stream. -/
def receive (room : ℕ) : List (List α) → Option (List α × List (List α))
  | [] => none
  | []::rest => receive room rest
  | (x::piece)::rest =>
    some ((x::piece).take room,if (x::piece).length≤room then rest else (x::piece).drop room::rest)

/-- Take what comes, at most so many times. -/
def drain (room : ℕ) : ℕ → List (List α) → List α
  | 0,_ => []
  | rounds+1,pieces =>
    match receive room pieces with
    | none => []
    | some (taken,rest) => taken++drain room rounds rest

/-- Take everything to the end of the stream. -/
def pipe (room : ℕ) (pieces : List (List α)) : List α := drain room pieces.flatten.length pieces

theorem receive_none {room : ℕ} {pieces : List (List α)} (h : receive room pieces=none) :
    pieces.flatten=[] := by
  induction pieces with
  | nil => rfl
  | cons piece rest ih =>
    cases piece with
    | nil => exact ih h
    | cons x piece => cases h

/-- What is taken is the front of what is left on the stream. -/
theorem receive_some {room : ℕ} (hroom : 0<room) {pieces rest : List (List α)} {taken : List α}
    (h : receive room pieces=some (taken,rest)) :
    taken≠[] ∧ pieces.flatten=taken++rest.flatten := by
  induction pieces with
  | nil => cases h
  | cons piece more ih =>
    cases piece with
    | nil => exact ih h
    | cons x piece =>
      cases h
      refine ⟨?_,?_⟩
      · simp only [ne_eq,take_eq_nil_iff,reduceCtorEq,or_false]
        omega
      · split
        · rename_i hle
          rw [take_of_length_le hle,flatten_cons]
        · rw [flatten_cons,flatten_cons,←append_assoc,take_append_drop]

/-- Enough rounds take everything. -/
theorem drain_eq {room : ℕ} (hroom : 0<room) (rounds : ℕ) (pieces : List (List α))
    (h : pieces.flatten.length≤rounds) : drain room rounds pieces=pieces.flatten := by
  induction rounds generalizing pieces with
  | zero => exact (length_eq_zero_iff.mp (by omega)).symm
  | succ rounds ih =>
    rw [drain]
    cases hreceive : receive room pieces with
    | none => exact (receive_none hreceive).symm
    | some r =>
      obtain ⟨hne,heq⟩ := receive_some hroom hreceive
      have hpos := length_pos_iff.mpr hne
      rw [heq,length_append] at h
      rw [heq,←ih r.2 (by omega)]

theorem pipe_eq {room : ℕ} (hroom : 0<room) (pieces : List (List α)) :
    pipe room pieces=pieces.flatten := drain_eq hroom _ pieces le_rfl

/-- A reader with a buffer. -/
structure Buffered (α : Type) where
  /-- What has been taken from the stream and not been handed out. -/
  buffer : List α
  /-- What is left on the stream. -/
  pieces : List (List α)

namespace Buffered

variable {room : ℕ} {s : Buffered α}

/-- What the reader can still hand out. -/
def pending (s : Buffered α) : List α := s.buffer++s.pieces.flatten

/-- Fill an empty buffer. -/
def fill (room : ℕ) (s : Buffered α) : Buffered α :=
  match s.buffer,receive room s.pieces with
  | [],some (taken,rest) => ⟨taken,rest⟩
  | [],none => ⟨[],[]⟩
  | _::_,_ => s

/-- Hand out one item, or nothing at the end of the stream. -/
def read (room : ℕ) (s : Buffered α) : Option α × Buffered α :=
  ((s.fill room).buffer.head?,⟨(s.fill room).buffer.tail,(s.fill room).pieces⟩)

/-- Hand out so many items, unless the stream ends before. -/
def readFully (room : ℕ) : ℕ → Buffered α → Option (List α × Buffered α)
  | 0,s => some ([],s)
  | n+1,s =>
    match s.read room with
    | (none,_) => none
    | (some x,s') => (readFully room n s').map fun r => (x::r.1,r.2)

/-- The reader after so many items. -/
def advance (room : ℕ) : ℕ → Buffered α → Buffered α
  | 0,s => s
  | n+1,s => advance room n (s.read room).2

theorem fill_pending (hroom : 0<room) (s : Buffered α) : (s.fill room).pending=s.pending := by
  rw [fill]
  split
  · rename_i taken rest hbuffer hreceive
    rw [pending,pending,hbuffer,nil_append]
    exact (receive_some hroom hreceive).2.symm
  · rename_i hbuffer hreceive
    rw [pending,pending,hbuffer,receive_none hreceive]
    rfl
  · rfl

/-- A buffer that is empty after filling is at the end of the stream. -/
theorem fill_empty (hroom : 0<room) (h : (s.fill room).buffer=[]) : s.fill room=⟨[],[]⟩ := by
  rw [fill] at h ⊢
  split at h
  · rename_i taken rest _ hreceive
    exact absurd h (receive_some hroom hreceive).1
  · rfl
  · rename_i hbuffer
    rw [hbuffer] at h
    cases h

/-- What is handed out is the first of what can be handed out. -/
theorem read_fst (hroom : 0<room) (s : Buffered α) : (s.read room).1=s.pending.head? := by
  rw [←fill_pending hroom s,read]
  cases hbuffer : (s.fill room).buffer with
  | nil => rw [fill_empty hroom hbuffer]; rfl
  | cons x rest => rw [pending,hbuffer]; rfl

theorem read_snd_pending (hroom : 0<room) (s : Buffered α) :
    (s.read room).2.pending=s.pending.tail := by
  rw [←fill_pending hroom s,read]
  cases hbuffer : (s.fill room).buffer with
  | nil => rw [fill_empty hroom hbuffer]; rfl
  | cons x rest => rw [pending,pending,hbuffer]; rfl

theorem advance_pending (hroom : 0<room) (n : ℕ) (s : Buffered α) :
    (s.advance room n).pending=s.pending.drop n := by
  induction n generalizing s with
  | zero => rfl
  | succ n ih => rw [advance,ih,read_snd_pending hroom,drop_tail]

theorem advance_add (m n : ℕ) (s : Buffered α) :
    s.advance room (m+n)=(s.advance room m).advance room n := by
  induction m generalizing s with
  | zero => rw [Nat.zero_add]; rfl
  | succ m ih => rw [Nat.succ_add,advance,advance,ih]

/-- The next item after so many. -/
theorem read_advance (hroom : 0<room) (n : ℕ) (s : Buffered α) :
    (s.advance room n).read room=(s.pending[n]?,s.advance room (n+1)) := by
  refine Prod.ext ?_ ?_
  · rw [read_fst hroom,advance_pending hroom,head?_drop]
  · exact (advance_add n 1 s).symm

/-- So many items are handed out if there are so many. -/
theorem readFully_eq (hroom : 0<room) (n : ℕ) (s : Buffered α) :
    readFully room n s=
      if n ≤ s.pending.length then some (s.pending.take n,s.advance room n) else none := by
  induction n generalizing s with
  | zero => rfl
  | succ n ih =>
    have hread : s.read room=(s.pending[0]?,s.advance room 1) := read_advance hroom 0 s
    have hrest := advance_pending hroom 1 s
    rw [readFully,hread]
    cases hpending : s.pending with
    | nil => rfl
    | cons x rest =>
      rw [hpending,drop_one,tail_cons] at hrest
      simp only [getElem?_cons_zero,ih,hrest,length_cons,Nat.add_le_add_iff_right,
        take_succ_cons]
      split <;> rfl

/-- What is in the buffer is handed out first. -/
theorem advance_buffer (n : ℕ) {buffer : List α} {pieces : List (List α)} (h : n≤buffer.length) :
    (⟨buffer,pieces⟩ : Buffered α).advance room n=⟨buffer.drop n,pieces⟩ := by
  induction n generalizing buffer with
  | zero => rfl
  | succ n ih =>
    cases buffer with
    | nil => cases h
    | cons x rest => exact ih (Nat.le_of_succ_le_succ h)

/-- An empty buffer is filled before the next item. -/
theorem advance_succ_fill (hroom : 0<room) (n : ℕ) (s : Buffered α) :
    s.advance room (n+1)=(s.fill room).advance room (n+1) := by
  have hfill : (s.fill room).fill room=s.fill room := by
    cases hbuffer : (s.fill room).buffer with
    | nil => rw [fill_empty hroom hbuffer]; rfl
    | cons x rest =>
      generalize hfilled : s.fill room=filled at hbuffer
      rw [fill,hbuffer]
  rw [advance,advance,read,read,hfill]

end Buffered

/-- Does a piece end after so many items, or the stream? -/
def boundary : ℕ → List (List α) → Bool
  | 0,_ => true
  | _+1,[] => true
  | n+1,piece::rest =>
    if piece.length≤n+1 then boundary (n+1-piece.length) rest else false

/-- The pieces before such a place hold just the items before it. -/
theorem boundary_iff (n : ℕ) (pieces : List (List α)) :
    boundary n pieces=true ↔
      ∃ front back, pieces=front++back ∧ front.flatten=pieces.flatten.take n := by
  induction pieces generalizing n with
  | nil =>
    refine ⟨fun _ => ⟨[],[],rfl,by simp⟩,fun _ => ?_⟩
    cases n <;> rfl
  | cons piece rest ih =>
    cases n with
    | zero => exact ⟨fun _ => ⟨[],piece::rest,rfl,by simp⟩,fun _ => rfl⟩
    | succ n =>
      rw [boundary]
      split
      · rename_i hle
        rw [ih,flatten_cons,take_append,take_of_length_le hle]
        constructor
        · rintro ⟨front,back,rfl,hfront⟩
          exact ⟨piece::front,back,rfl,by rw [flatten_cons,hfront]⟩
        · rintro ⟨front,back,hsplit,hfront⟩
          cases front with
          | nil =>
            obtain ⟨_,hnil⟩ := append_eq_nil_iff.mp hfront.symm
            exact ⟨[],rest,rfl,hnil.symm⟩
          | cons first front =>
            cases hsplit
            exact ⟨front,back,rfl,append_cancel_left hfront⟩
      · rename_i hlong
        -- the place is inside this piece, so that no number of whole pieces reaches it
        refine iff_of_false Bool.false_ne_true ?_
        rintro ⟨front,back,hsplit,hfront⟩
        have hlength := congrArg length hfront
        rw [length_take,flatten_cons,length_append] at hlength
        cases front with
        | nil =>
          simp only [flatten_nil,length_nil] at hlength
          omega
        | cons first front =>
          cases hsplit
          rw [flatten_cons,length_append] at hlength
          omega

/-- A reader that stops early enough has kept nothing exactly when it stops where a piece
ends. -/
theorem Buffered.advance_buffer_eq_nil_iff {room n : ℕ} (hn : n<room)
    (pieces : List (List α)) :
    ((⟨[],pieces⟩ : Buffered α).advance room n).buffer=[] ↔ boundary n pieces=true := by
  have hroom : 0<room := by omega
  induction pieces generalizing n with
  | nil =>
    have hempty : ((⟨[],[]⟩ : Buffered α).advance room n).pending=[] := by
      rw [advance_pending hroom]
      exact drop_nil
    refine iff_of_true (append_eq_nil_iff.mp hempty).1 ?_
    cases n <;> rfl
  | cons piece rest ih =>
    cases n with
    | zero => exact iff_of_true rfl rfl
    | succ n =>
      cases piece with
      | nil =>
        have hsame : (⟨[],[]::rest⟩ : Buffered α).fill room=(⟨[],rest⟩ : Buffered α).fill room := by
          simp only [fill,receive]
          cases receive room rest <;> rfl
        rw [boundary,length_nil,if_pos (Nat.zero_le _),Nat.sub_zero,
          advance_succ_fill hroom,hsame,←advance_succ_fill hroom]
        exact ih hn
      | cons x piece =>
        rw [advance_succ_fill hroom,boundary]
        by_cases hle : (x::piece).length≤n+1
        · have hfill : (⟨[],(x::piece)::rest⟩ : Buffered α).fill room=⟨x::piece,rest⟩ := by
            simp only [fill,receive]
            rw [if_pos (by omega),take_of_length_le (by omega)]
          obtain ⟨more,hmore⟩ := Nat.exists_eq_add_of_le hle
          rw [hfill,if_pos hle,hmore,advance_add,advance_buffer _ le_rfl,
            drop_length,Nat.add_sub_cancel_left]
          exact ih (by omega)
        · have hfill : ∃ left, (⟨[],(x::piece)::rest⟩ : Buffered α).fill room=
              ⟨(x::piece).take room,left⟩ := ⟨_,rfl⟩
          obtain ⟨left,hleft⟩ := hfill
          have hlength : n+1<((x::piece).take room).length := by
            rw [length_take]
            omega
          rw [hleft,if_neg hle,advance_buffer _ hlength.le]
          simp only [drop_eq_nil_iff,Bool.false_eq_true,iff_false]
          omega

end MsnGuard.BufferedReads
