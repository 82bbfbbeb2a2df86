import Mathlib.Data.List.DropRight
import Mathlib.Tactic

/-!
# Text operations over character lists

Texts are lists of Unicode scalar values. The operations follow the documented behaviour of the
string library. Lowercasing outside ASCII goes through a case table that may look at the
characters around the one it maps; the facts about it that the development relies on are its
fields.
-/

namespace MsnGuard.RustText

open List

variable {c : Char} {cut : Char → Bool}

/-- The bytes of a message. -/
abbrev Bytes := List UInt8

/-- A text is the list of its characters. -/
abbrev Text := List Char

/-- Whether a text is one of several is found by comparing texts. -/
instance decidableMemTexts (s : Text) (texts : List Text) : Decidable (s∈texts) :=
  List.instDecidableMemOfLawfulBEq s texts

/-- The Unicode property White_Space. -/
def isWhitespace (c : Char) : Bool :=
  let n := c.toNat
  (9≤n && n≤13) || n == 0x20 || n == 0x85 || n == 0xA0 || n == 0x1680 ||
    (0x2000≤n && n≤0x200A) || n == 0x2028 || n == 0x2029 || n == 0x202F ||
    n == 0x205F || n == 0x3000

/-- Remove the leading and the trailing whitespace. -/
def trim (s : Text) : Text := (s.dropWhile isWhitespace).rdropWhile isWhitespace

/-- Remove every leading occurrence of one character. -/
def trimStartMatches (c : Char) (s : Text) : Text := s.dropWhile (· == c)

/-- Remove every trailing occurrence of one character. -/
def trimEndMatches (c : Char) (s : Text) : Text := s.rdropWhile (· == c)

/-- Split at the first occurrence of a character, which belongs to neither part. -/
def splitOnce (c : Char) : Text → Option (Text × Text)
  | [] => none
  | x::rest =>
    if x=c then some ([],rest)
    else (splitOnce c rest).map fun (before,after) => (x::before,after)

/-- Cut at every character of a set; the empty text has one empty piece. -/
def splitAny (cut : Char → Bool) : Text → List Text
  | [] => [[]]
  | x::rest =>
    if cut x then []::splitAny cut rest
    else match splitAny cut rest with
      | [] => [[x]]
      | piece::pieces => (x::piece)::pieces

/-- Does the text contain the needle as one contiguous piece? -/
def containsText (needle hay : Text) : Bool := decide (needle <:+: hay)

/-- Does the text end with the given tail? -/
def endsWith (tail s : Text) : Bool := decide (tail <:+ s)

/-- ASCII case folding; characters outside A to Z are kept. -/
def asciiLower (s : Text) : Text := s.map Char.toLower

/-- ASCII letters in upper case; characters outside a to z are kept. -/
def asciiUpper (s : Text) : Text := s.map Char.toUpper

/-- The number of bytes of a text in UTF-8. -/
def utf8Len (s : Text) : ℕ := (s.map Char.utf8Size).sum

/-- What stands after the given beginning, if the text begins so. -/
def stripPrefix (head s : Text) : Option Text :=
  if head <+: s then some (s.drop head.length) else none

/-- Remove one character from the end of a line, if it ends so. -/
def stripSuffixChar (c : Char) (s : Text) : Text :=
  if s.getLast?=some c then s.dropLast else s

/-- The lines of a text. Only a line that ends in a line feed loses a carriage
return before it, and nothing after the last line feed is no line. -/
def lines (s : Text) : List Text :=
  let pieces := splitAny (· == '\n') s
  let whole := pieces.dropLast.map (stripSuffixChar '\r')
  match pieces.getLast? with
  | some (c::rest) => whole++[c::rest]
  | _ => whole

/-- A continuation byte of UTF-8, within the bounds its lead byte allows. -/
def isContinuation (lo hi : ℕ) (b : UInt8) : Bool := decide (lo≤b.toNat ∧ b.toNat≤hi)

/-- The replacement character. -/
def replacementChar : Char := Char.ofNat 0xFFFD

/-- The first character of a byte string and the bytes it takes; a malformed
beginning is replaced as far as it could have been a character. -/
def decodeFirst : Bytes → Char × ℕ
  | [] => (replacementChar,1)
  | b::rest =>
    let n := b.toNat
    let cont (k : ℕ) : Option ℕ :=
      (rest[k]?).bind fun c => if isContinuation 0x80 0xBF c then some (c.toNat-0x80) else none
    let second (lo hi : ℕ) : Option ℕ :=
      (rest[0]?).bind fun c => if isContinuation lo hi c then some (c.toNat-0x80) else none
    if n<0x80 then (Char.ofNat n,1)
    else if 0xC2≤n ∧ n≤0xDF then
      match cont 0 with
      | some x => (Char.ofNat ((n-0xC0)*64+x),2)
      | none => (replacementChar,1)
    else if 0xE0≤n ∧ n≤0xEF then
      let lo := if n=0xE0 then 0xA0 else 0x80
      let hi := if n=0xED then 0x9F else 0xBF
      match second lo hi,cont 1 with
      | some x,some y => (Char.ofNat ((n-0xE0)*4096+x*64+y),3)
      | some _,none => (replacementChar,2)
      | none,_ => (replacementChar,1)
    else if 0xF0≤n ∧ n≤0xF4 then
      let lo := if n=0xF0 then 0x90 else 0x80
      let hi := if n=0xF4 then 0x8F else 0xBF
      match second lo hi,cont 1,cont 2 with
      | some x,some y,some z => (Char.ofNat ((n-0xF0)*262144+x*4096+y*64+z),4)
      | some _,some _,none => (replacementChar,3)
      | some _,none,_ => (replacementChar,2)
      | none,_,_ => (replacementChar,1)
    else (replacementChar,1)

/-- Decode a byte string of bounded length. -/
def lossyFrom : ℕ → Bytes → Text
  | 0,_ => []
  | _+1,[] => []
  | fuel+1,b::rest =>
    let (c,taken) := decodeFirst (b::rest)
    c::lossyFrom fuel ((b::rest).drop taken)

/-- Read bytes as UTF-8, with malformed parts replaced. -/
def fromUtf8Lossy (bytes : Bytes) : Text := lossyFrom bytes.length bytes

/-- The bytes of a text in UTF-8. -/
def encodeUtf8 (s : Text) : Bytes := s.flatMap String.utf8EncodeChar

/-- Read bytes as UTF-8, if they are the bytes of a text. -/
def fromUtf8 (bytes : Bytes) : Option Text :=
  let s := fromUtf8Lossy bytes
  if encodeUtf8 s=bytes then some s else none

/-- Equality up to the case of ASCII letters. -/
def eqIgnoreAsciiCase (a b : Text) : Bool := decide (asciiLower a=asciiLower b)

variable {s : Text}

/-- Nothing is dropped at the end of a text that does not end with whitespace. -/
theorem rdropWhile_eq_self (hlast : ∀ c∈s.getLast?, isWhitespace c=false) :
    s.rdropWhile isWhitespace=s := by
  rw [rdropWhile_eq_self_iff]
  intro hne
  rw [hlast _ (getLast?_eq_some_getLast hne)]
  exact Bool.false_ne_true

/-- A text that neither begins nor ends with whitespace is not changed by trimming. -/
theorem trim_eq_self (hfirst : ∀ c∈s.head?, isWhitespace c=false)
    (hlast : ∀ c∈s.getLast?, isWhitespace c=false) : trim s=s := by
  have hd : s.dropWhile isWhitespace=s := by
    cases s with
    | nil => rfl
    | cons c s => simp [hfirst c rfl]
  rw [trim,hd,rdropWhile_eq_self hlast]

theorem trim_cons (hc : isWhitespace c=true) (s : Text) : trim (c::s)=trim s := by
  simp [trim,hc]

theorem mem_dropWhile (hc : isWhitespace c=false) (s : Text) :
    c∈s.dropWhile isWhitespace ↔ c∈s := by
  refine ⟨fun h => (dropWhile_suffix isWhitespace).subset h,fun h => ?_⟩
  rw [←s.takeWhile_append_dropWhile (p := isWhitespace),mem_append] at h
  refine h.resolve_left fun hfront => ?_
  rw [mem_takeWhile_imp hfront] at hc
  cases hc

/-- Trimming keeps every character that is no whitespace. -/
theorem mem_trim (hc : isWhitespace c=false) (s : Text) : c∈trim s ↔ c∈s := by
  rw [trim,rdropWhile,mem_reverse,mem_dropWhile hc,mem_reverse,mem_dropWhile hc]

theorem trim_length_le (s : Text) : (trim s).length ≤ s.length := by
  have hr := (List.rdropWhile_prefix isWhitespace (s.dropWhile isWhitespace)).length_le
  have hd := (dropWhile_suffix isWhitespace (l := s)).length_le
  exact hr.trans hd

/-- Whitespace at the end may be removed before trimming. -/
theorem trim_rdropWhile (s : Text) : trim (s.rdropWhile isWhitespace)=trim s := by
  induction s using reverseRecOn with
  | nil => rfl
  | append_singleton s c ih =>
    rw [rdropWhile_concat]
    split
    · rename_i hc
      rw [ih]
      simp only [trim,dropWhile_append]
      split
      · rename_i hempty
        simp [isEmpty_iff.mp hempty,hc]
      · rw [rdropWhile_concat,if_pos hc]
    · rfl

/-- Only the end of a text is trimmed when it begins with a visible part. -/
theorem trim_append (hne : s≠[]) (hfirst : ∀ c∈s.head?, isWhitespace c=false)
    (hlast : ∀ c∈s.getLast?, isWhitespace c=false) (t : Text) :
    trim (s++t)=s++t.rdropWhile isWhitespace := by
  have hd : ∀ t, (s++t).dropWhile isWhitespace=s++t := by
    intro t
    cases s with
    | nil => exact absurd rfl hne
    | cons c s => simp [hfirst c rfl]
  rw [trim,hd]
  induction t using reverseRecOn with
  | nil => simpa using rdropWhile_eq_self hlast
  | append_singleton t c ih =>
    rw [←append_assoc,rdropWhile_concat,rdropWhile_concat]
    split
    · exact ih
    · rw [append_assoc]

variable {a : Text}

/-- The first cut of a text whose first part is free of the character. -/
theorem splitOnce_append (h : c ∉ a) (rest : Text) : splitOnce c (a++c::rest)=some (a,rest) := by
  induction a with
  | nil => simp [splitOnce]
  | cons x a ih =>
    have hx : x≠c := fun he => h (he ▸ mem_cons_self)
    have ha : c ∉ a := fun hm => h (mem_cons_of_mem _ hm)
    simp [splitOnce,hx,ih ha]

theorem splitOnce_eq_none (h : c ∉ s) : splitOnce c s=none := by
  induction s with
  | nil => rfl
  | cons x s ih =>
    have hx : x≠c := fun he => h (he ▸ mem_cons_self)
    have hs : c ∉ s := fun hm => h (mem_cons_of_mem _ hm)
    simp [splitOnce,hx,ih hs]

theorem splitOnce_length {before after : Text} (h : splitOnce c s=some (before,after)) :
    after.length<s.length := by
  induction s generalizing before with
  | nil => simp [splitOnce] at h
  | cons x s ih =>
    rw [splitOnce] at h
    split at h
    · cases h
      simp
    · obtain ⟨⟨b,a⟩,hs,he⟩ := Option.map_eq_some_iff.mp h
      cases he
      have hlt := ih hs
      simp only [length_cons]
      omega

/-- A text without cuts is one piece. -/
theorem splitAny_eq_single (h : ∀ c∈s, cut c=false) : splitAny cut s=[s] := by
  induction s with
  | nil => rfl
  | cons x s ih =>
    have hs := ih fun c hc => h c (mem_cons_of_mem _ hc)
    simp [splitAny,h x mem_cons_self,hs]

/-- The first piece ends at the first cut. -/
theorem splitAny_append_cons (h : ∀ c∈a, cut c=false) {x : Char} (hx : cut x=true)
    (rest : Text) : splitAny cut (a++x::rest)=a::splitAny cut rest := by
  induction a with
  | nil => simp [splitAny,hx]
  | cons y a ih =>
    have ha := ih fun c hc => h c (mem_cons_of_mem _ hc)
    simp [splitAny,h y mem_cons_self,ha]

theorem splitAny_ne_nil (cut : Char → Bool) (s : Text) : splitAny cut s≠[] := by
  cases s with
  | nil => simp [splitAny]
  | cons x s =>
    rw [splitAny]
    split
    · simp
    · split <;> simp

/-- A part without cuts belongs to the first piece of what it stands before. -/
theorem splitAny_append (h : ∀ c∈a, cut c=false) (t : Text) :
    ∃ p ps, splitAny cut t=p::ps ∧ splitAny cut (a++t)=(a++p)::ps := by
  obtain ⟨p,ps,hps⟩ := exists_cons_of_ne_nil (splitAny_ne_nil cut t)
  refine ⟨p,ps,hps,?_⟩
  induction a with
  | nil => exact hps
  | cons x a ih =>
    have ha := ih fun c hc => h c (mem_cons_of_mem _ hc)
    simp [splitAny,h x mem_cons_self,ha]

@[simp] theorem asciiLower_append (a b : Text) :
    asciiLower (a++b)=asciiLower a++asciiLower b := by
  simp [asciiLower]

/-- Lowercasing of the characters outside ASCII. The mapping of one character
sees the text before and after it, as the rule for a final sigma requires. -/
structure CaseTable where
  /-- Lowercase form of one character, given what stands before and after it. -/
  lower : Text → Char → Text → Text
  /-- The surroundings count only up to the case of their ASCII letters. -/
  lower_context : ∀ before c after before' after',
    asciiLower before=asciiLower before' → asciiLower after=asciiLower after' →
      lower before c after=lower before' c after'
  /-- A full stop at the end of the text is transparent to the context rule. -/
  lower_stop : ∀ before c after, lower before c (after++['.'])=lower before c after
  /-- No character is mapped to nothing. -/
  lower_ne_nil : ∀ before c after, lower before c after≠[]
  /-- No character outside ASCII has the full stop in its lowercase form. -/
  lower_stop_free : ∀ before c after, ¬c.toNat<128 → '.' ∉ lower before c after

/-- The table of a text without letters outside ASCII: all of them are kept. -/
def CaseTable.plain : CaseTable where
  lower _ c _ := [c]
  lower_context _ _ _ _ _ _ _ := rfl
  lower_stop _ _ _ := rfl
  lower_ne_nil _ _ _ := List.cons_ne_nil _ _
  lower_stop_free _ c _ hc := by
    rintro h
    rw [←List.mem_singleton.mp h] at hc
    exact hc (by decide)

/-- Lowercase the rest of a text whose first part has been passed. -/
def lowercaseFrom (table : CaseTable) (before : Text) : Text → Text
  | [] => []
  | c::after =>
    (if c.toNat<128 then [c.toLower] else table.lower before c after) ++
      lowercaseFrom table (before++[c]) after

/-- Full lowercasing: ASCII letters directly, all others through the table. -/
def toLowercase (table : CaseTable) (s : Text) : Text := lowercaseFrom table [] s

theorem lowercaseFrom_ascii (table : CaseTable) (h : ∀ c∈s, c.toNat<128) (before : Text) :
    lowercaseFrom table before s=asciiLower s := by
  induction s generalizing before with
  | nil => rfl
  | cons c s ih =>
    have hs := ih (fun d hd => h d (mem_cons_of_mem _ hd)) (before++[c])
    rw [lowercaseFrom,if_pos (h c mem_cons_self),hs]
    rfl

/-- Only the case of ASCII letters changes in an ASCII text. -/
theorem toLowercase_ascii (table : CaseTable) (h : ∀ c∈s, c.toNat<128) :
    toLowercase table s=asciiLower s := lowercaseFrom_ascii table h []

/-- Characters outside ASCII have no ASCII case. -/
theorem toLower_of_not_ascii (h : ¬c.toNat<128) : c.toLower=c := by
  unfold Char.toLower
  rw [dif_neg]
  rintro ⟨-,hz⟩
  have hle : c.toNat≤90 := by simpa [UInt32.le_iff_toNat_le] using hz
  omega

/-- Folding the case of an ASCII character stays inside ASCII. -/
theorem toLower_ascii (h : c.toNat<128) : c.toLower.toNat<128 := by
  unfold Char.toLower
  split
  · rename_i hc
    have hle : c.toNat≤90 := by simpa [UInt32.le_iff_toNat_le] using hc.2
    simp only [Char.toNat,UInt32.toNat_add]
    simp
    omega
  · exact h

/-- Two characters with one folded form are both ASCII or both the same
character outside ASCII. -/
theorem ascii_or_eq_of_toLower_eq {d : Char} (h : c.toLower=d.toLower) :
    (c.toNat<128 ∧ d.toNat<128) ∨ (¬c.toNat<128 ∧ c=d) := by
  by_cases hc : c.toNat<128
  · refine .inl ⟨hc,?_⟩
    by_contra hd
    have hl := toLower_ascii hc
    rw [h,toLower_of_not_ascii hd] at hl
    exact hd hl
  · refine .inr ⟨hc,?_⟩
    rw [toLower_of_not_ascii hc] at h
    by_cases hd : d.toNat<128
    · have hl := toLower_ascii hd
      rw [←h] at hl
      exact absurd hl hc
    · rwa [toLower_of_not_ascii hd] at h

variable {b : Text}

/-- Lowercasing a text does not see the case of its ASCII letters. -/
theorem lowercaseFrom_congr (table : CaseTable) :
    ∀ {before before' : Text}, asciiLower before=asciiLower before' → asciiLower a=asciiLower b →
      lowercaseFrom table before a=lowercaseFrom table before' b := by
  induction a generalizing b with
  | nil =>
    intro before before' _ h
    cases b with
    | nil => rfl
    | cons d b => simp [asciiLower] at h
  | cons c a ih =>
    intro before before' hb h
    cases b with
    | nil => simp [asciiLower] at h
    | cons d b =>
      simp only [asciiLower,map_cons,cons.injEq] at h
      obtain ⟨hcd,hab⟩ := h
      have hctx : asciiLower (before++[c])=asciiLower (before'++[d]) := by
        rw [asciiLower_append,asciiLower_append,hb]
        simp [asciiLower,hcd]
      have hrest := ih hctx hab
      simp only [lowercaseFrom,hrest]
      congr 1
      rcases ascii_or_eq_of_toLower_eq hcd with ⟨hc,hd⟩ | ⟨hc,rfl⟩
      · rw [if_pos hc,if_pos hd,hcd]
      · rw [if_neg hc,if_neg hc]
        exact table.lower_context _ _ _ _ _ hb hab

theorem toLowercase_congr (table : CaseTable) (h : asciiLower a=asciiLower b) :
    toLowercase table a=toLowercase table b :=
  lowercaseFrom_congr table rfl h

theorem lowercaseFrom_stop (table : CaseTable) (s before : Text) :
    lowercaseFrom table before (s++['.'])=lowercaseFrom table before s++['.'] := by
  induction s generalizing before with
  | nil => simp [lowercaseFrom]
  | cons c s ih =>
    simp only [cons_append,lowercaseFrom,table.lower_stop,ih,append_assoc]

/-- A full stop appended before lowercasing is appended to the result. -/
theorem toLowercase_stop (table : CaseTable) (s : Text) :
    toLowercase table (s++['.'])=toLowercase table s++['.'] :=
  lowercaseFrom_stop table s []

/-- Folding a character to the full stop requires the full stop. -/
theorem toLower_eq_stop (h : c.toLower = '.') : c = '.' := by
  unfold Char.toLower at h
  split at h
  · rename_i hc
    have hge : 65≤c.toNat := by simpa [UInt32.le_iff_toNat_le] using hc.1
    have hle : c.toNat≤90 := by simpa [UInt32.le_iff_toNat_le] using hc.2
    have hv := congrArg Char.toNat h
    simp only [Char.toNat,UInt32.toNat_add] at hv
    simp at hv
    omega
  · exact h

/-- The lowercase form of a character other than the full stop is not empty
and does not end in one. -/
theorem lowercaseFrom_last (table : CaseTable) (hc : c ≠ '.') (s before : Text) :
    ∃ t d, lowercaseFrom table before (s++[c])=t++[d] ∧ d ≠ '.' := by
  induction s generalizing before with
  | nil =>
    by_cases ha : c.toNat<128
    · refine ⟨[],c.toLower,by simp [lowercaseFrom,ha],fun h => hc (toLower_eq_stop h)⟩
    · have hne := table.lower_ne_nil before c []
      refine ⟨(table.lower before c []).dropLast,(table.lower before c []).getLast hne,?_,?_⟩
      swap
      · intro h
        exact table.lower_stop_free before c [] ha (h ▸ getLast_mem hne)
      simp only [nil_append,lowercaseFrom,if_neg ha,append_nil]
      exact (dropLast_concat_getLast hne).symm
  | cons x s ih =>
    obtain ⟨t,d,ht,hd⟩ := ih (before++[x])
    exact ⟨_,d,by rw [cons_append,lowercaseFrom,ht,←append_assoc],hd⟩

end MsnGuard.RustText
