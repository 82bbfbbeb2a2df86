import MsnGuard.RustText

/-!
# The inline routing grammar

The host hands both route lists over in one text, `[direct]a,b [block]c,d`. The text is cut at
commas and line ends, and headers at the start of a piece select the section. The blank between
the two sections cuts nothing.
-/

namespace MsnGuard.InlineRoutes

open RustText List

variable {n : ℕ} {t e a entry : Text} {es trail front : List Text}

/-- The two lists an entry can go to. -/
inductive Section where
  | block
  | direct
  deriving DecidableEq

/-- The section a header selects; headers without a meaning select `direct`. -/
def Section.ofHeader (header : Text) : Section :=
  if asciiLower header = "[block]".toList then .block else .direct

/-- Peel the headers off the start of a piece. An opening bracket that is never
closed ends the loop. The fuel bounds the number of headers. -/
def peelHeaders : ℕ → Section → Text → Section × Text
  | 0,active,t => (active,t)
  | fuel+1,active,t =>
    if t.head?=some '[' then
      match splitOnce ']' t with
      | none => (active,t)
      | some (before,after) =>
        peelHeaders fuel (Section.ofHeader (before++[']'])) (trim after)
    else (active,t)

/-- What the loop over the pieces keeps. -/
structure Reading where
  /-- Entries of the block section, in order. -/
  block : List Text
  /-- Entries of the direct section, in order. -/
  direct : List Text
  /-- The section the next entry goes to. -/
  active : Section
  deriving DecidableEq

/-- Put an entry at the end of the active list. -/
def Reading.push (r : Reading) (entry : Text) : Reading :=
  match r.active with
  | .block => {r with block := r.block++[entry]}
  | .direct => {r with direct := r.direct++[entry]}

/-- One round of the loop: headers first, then the entry unless it is empty or
a comment. -/
def readToken (r : Reading) (token : Text) : Reading :=
  let (active,t) := peelHeaders token.length r.active (trim token)
  if t=[] ∨ t.head?=some '#' then {r with active := active}
  else Reading.push {r with active := active} t

/-- The characters that end a piece. -/
def isSeparator (c : Char) : Bool := c == ',' || c == '\n' || c == '\r'

/-- The loop over all pieces of a text. -/
def readText (r : Reading) (text : Text) : Reading :=
  (splitAny isSeparator text).foldl readToken r

/-- Read both lists: the block entries and the direct entries. Entries before
the first header are direct. -/
def parseInlineRoutes (input : Option Text) : List Text × List Text :=
  match input with
  | none => ([],[])
  | some input =>
    let r := readText ⟨[],[],.direct⟩ input
    (r.block,r.direct)

/-- The header that selects a section. -/
def Section.header : Section → Text
  | .block => "[block]".toList
  | .direct => "[direct]".toList

variable {active : Section}

/-- More fuel than characters changes nothing: every round drops a header. -/
theorem peelHeaders_fuel {m : ℕ} (hn : t.length≤n)
    (hm : t.length ≤ m) : peelHeaders n active t=peelHeaders m active t := by
  induction n generalizing m active t with
  | zero =>
    have ht : t=[] := length_eq_zero_iff.mp (by omega)
    subst ht
    cases m <;> rfl
  | succ n ih =>
    cases m with
    | zero =>
      have ht : t=[] := length_eq_zero_iff.mp (by omega)
      subst ht
      rfl
    | succ m =>
      simp only [peelHeaders]
      split
      · cases hs : splitOnce ']' t with
        | none => rfl
        | some parts =>
          have hlt := splitOnce_length hs
          have hle := trim_length_le parts.2
          exact ih (by omega) (by omega)
      · rfl

theorem peelHeaders_stop (h : t.head?≠some '[') : peelHeaders n active t=(active,t) := by
  cases n with
  | zero => rfl
  | succ n => rw [peelHeaders,if_neg h]

theorem peelHeaders_header (n : ℕ) (active s : Section) (t : Text) :
    peelHeaders (n+1) active (s.header++t)=peelHeaders n s (trim t) := by
  have hopen : (s.header++t).head?=some '[' := by cases s <;> rfl
  have hsplit : splitOnce ']' (s.header++t)=some (s.header.dropLast,t) := by
    have hshape : s.header++t=s.header.dropLast ++ ']'::t := by cases s <;> rfl
    have hfree : ']' ∉ s.header.dropLast := by cases s <;> decide
    rw [hshape,splitOnce_append hfree]
  have hsection : Section.ofHeader (s.header.dropLast++[']'])=s := by cases s <;> decide
  simp only [peelHeaders,if_pos hopen,hsplit,hsection]

/-- A header glued to the rest of a piece only selects the section. -/
theorem readToken_header (r : Reading) (s : Section) (t : Text) :
    readToken r (s.header++t)=readToken {r with active := s} t := by
  have htrim : trim (s.header++t)=s.header++t.rdropWhile isWhitespace := by
    cases s <;> exact trim_append (by decide) (by rintro c ⟨⟩; rfl) (by rintro c ⟨⟩; rfl) t
  have hlen : (trim t).length≤t.length := trim_length_le t
  have hheader : 0<s.header.length := by cases s <;> decide
  obtain ⟨n,hn⟩ : ∃ n, (s.header++t).length=n+1 :=
    ⟨(s.header++t).length-1,by rw [length_append]; omega⟩
  have hle : (trim t).length≤n := by
    rw [length_append] at hn
    omega
  simp only [readToken,htrim,hn,peelHeaders_header,trim_rdropWhile,peelHeaders_fuel hle hlen]

theorem readToken_blank (r : Reading) (t : Text) : readToken r (' '::t)=readToken r t := by
  have hlen : (trim t).length≤t.length := trim_length_le t
  have htrim : trim (' '::t)=trim t := trim_cons (by decide) t
  simp only [readToken,htrim,
    peelHeaders_fuel (n := (' '::t).length) (m := t.length) (by simp; omega) hlen]

/-- A piece that is stored as it stands. -/
structure Plain (t : Text) : Prop where
  /-- There is something to store. -/
  ne_nil : t≠[]
  /-- It does not begin with a header, a comment sign or whitespace. -/
  first : ∀ c∈t.head?, c ≠ '[' ∧ c ≠ '#' ∧ isWhitespace c=false
  /-- It does not end with whitespace. -/
  last : ∀ c∈t.getLast?, isWhitespace c=false

theorem readToken_plain (r : Reading) (h : Plain t) : readToken r t=r.push t := by
  have htrim : trim t=t := trim_eq_self (fun c hc => (h.first c hc).2.2) h.last
  have hopen : t.head?≠some '[' := fun hc => (h.first _ hc).1 rfl
  have hnote : t.head?≠some '#' := fun hc => (h.first _ hc).2.1 rfl
  simp only [readToken,htrim,peelHeaders_stop hopen,h.ne_nil,hnote,or_self,if_false]

/-- Put entries at the end of the active list. -/
def Reading.extend (r : Reading) (entries : List Text) : Reading :=
  match r.active with
  | .block => {r with block := r.block++entries}
  | .direct => {r with direct := r.direct++entries}

/-- A route entry the grammar is meant for: not empty, without separators,
whitespace or brackets, and not a comment. -/
structure IsEntry (e : Text) : Prop where
  /-- An entry has at least one character. -/
  ne_nil : e≠[]
  /-- None of its characters has a meaning of its own in the grammar. -/
  visible : ∀ c∈e, c ≠ ',' ∧ c ≠ '\n' ∧ isWhitespace c=false ∧ c ≠ '[' ∧ c ≠ ']'
  /-- It is not a comment. -/
  first : e.head?≠some '#'

theorem IsEntry.plain (h : IsEntry e) : Plain e where
  ne_nil := h.ne_nil
  first c hc := by
    have hv := h.visible c (mem_of_mem_head? hc)
    exact ⟨hv.2.2.2.1,fun he => h.first (he ▸ hc),hv.2.2.1⟩
  last c hc := (h.visible c (mem_of_mem_getLast? hc)).2.2.1

/-- The characters of an entry do not end a piece. -/
theorem IsEntry.uncut (h : IsEntry e) : ∀ c∈e, isSeparator c=false := by
  intro c hc
  obtain ⟨hcomma,hline,hspace,-,-⟩ := h.visible c hc
  have hreturn : c ≠ '\r' := fun he => by
    rw [he] at hspace
    exact absurd hspace (by decide)
  simp [isSeparator,hcomma,hline,hreturn]

theorem Section.header_uncut (s : Section) : ∀ c∈s.header, isSeparator c=false := by
  have hall : s.header.all (fun c => !isSeparator c)=true := by cases s <;> decide
  simpa using hall

theorem Section.header_visible (s : Section) : ∀ c∈s.header, isWhitespace c=false := by
  have hall : s.header.all (fun c => !isWhitespace c)=true := by cases s <;> decide
  simpa using hall

theorem Section.header_open (s : Section) : '[' ∈ s.header := by
  cases s <;> decide

/-- Entries separated by commas. -/
def joined (entries : List Text) : Text := [','].intercalate entries

theorem joined_cons_cons (p q : Text) (ps : List Text) :
    joined (p::q::ps)=p ++ ','::joined (q::ps) := by
  simp [joined,intercalate_cons_cons]

theorem joined_append_singleton (front : List Text) (e rest : Text) :
    joined (front++[e])++rest=if front=[] then e++rest else joined front ++ ','::(e++rest) := by
  induction front with
  | nil => simp [joined]
  | cons p front ih =>
    cases front with
    | nil => simp [joined,intercalate_cons_cons]
    | cons q front =>
      simp only [cons_append,joined_cons_cons,append_assoc,reduceCtorEq,if_false] at ih ⊢
      rw [ih]

theorem readText_comma (r : Reading) (h : ∀ c∈a, isSeparator c=false) (t : Text) :
    readText r (a ++ ','::t)=readText (readToken r a) t := by
  rw [readText,splitAny_append_cons h (by decide),foldl_cons,readText]

theorem readText_uncut (r : Reading) (h : ∀ c∈a, isSeparator c=false) :
    readText r a=readToken r a := by
  rw [readText,splitAny_eq_single h,foldl_cons,foldl_nil]

/-- A header in front of a text selects the section for its first piece. -/
theorem readText_header (r : Reading) (s : Section) (t : Text) :
    readText r (s.header++t)=readText {r with active := s} t := by
  obtain ⟨p,ps,ht,hst⟩ := splitAny_append s.header_uncut t
  rw [readText,readText,hst,ht,foldl_cons,foldl_cons,readToken_header]

theorem readText_blank (r : Reading) (t : Text) : readText r (' '::t)=readText r t := by
  have hblank : ∀ c∈[' '], isSeparator c=false :=
    forall_mem_singleton.mpr (by decide)
  obtain ⟨p,ps,ht,hst⟩ := splitAny_append hblank t
  rw [singleton_append] at hst
  rw [readText,readText,hst,ht,foldl_cons,foldl_cons,singleton_append,
    readToken_blank]

theorem extend_nil (r : Reading) : r.extend []=r := by
  obtain ⟨block,direct,active⟩ := r
  cases active <;> simp [Reading.extend]

theorem push_extend (r : Reading) (e : Text) (es : List Text) :
    (r.push e).extend es=r.extend (e::es) := by
  obtain ⟨block,direct,active⟩ := r
  cases active <;> simp [Reading.extend,Reading.push]

/-- Entries that another comma follows are stored one by one. -/
theorem readText_joined_comma (r : Reading)
    (h : ∀ e∈es, Plain e ∧ ∀ c∈e, isSeparator c=false) (t : Text) :
    readText r (joined es ++ ','::t)=readText (r.extend es) t := by
  induction es generalizing r with
  | nil =>
    have hnil := readText_comma r (a := []) (by simp) t
    rw [extend_nil]
    exact hnil
  | cons e es ih =>
    obtain ⟨hplain,hcut⟩ := h e mem_cons_self
    have hes := ih (r.push e) fun q hq => h q (mem_cons_of_mem _ hq)
    cases es with
    | nil => simp [joined,readText_comma r hcut,readToken_plain r hplain,extend_nil,←push_extend]
    | cons q es =>
      rw [joined_cons_cons,append_assoc,cons_append,readText_comma r hcut,
        readToken_plain r hplain,hes,push_extend]

/-- Entries at the end of a text are stored one by one. -/
theorem readText_joined (r : Reading)
    (h : ∀ e∈es, Plain e ∧ ∀ c∈e, isSeparator c=false) : readText r (joined es)=r.extend es := by
  induction es generalizing r with
  | nil =>
    rw [extend_nil]
    rfl
  | cons e es ih =>
    obtain ⟨hplain,hcut⟩ := h e mem_cons_self
    have hes := ih (r.push e) fun q hq => h q (mem_cons_of_mem _ hq)
    cases es with
    | nil =>
      rw [←push_extend,extend_nil,←readToken_plain r hplain,←readText_uncut r hcut]
      simp [joined]
    | cons q es =>
      rw [joined_cons_cons,readText_comma r hcut,readToken_plain r hplain,hes,push_extend]

/-- The section written after the given one. -/
def Section.other : Section → Section
  | .block => .direct
  | .direct => .block

/-- Block entries and direct entries, given those of one section and of the other. -/
def Section.lists (s : Section) (own others : List Text) : List Text × List Text :=
  match s with
  | .block => (own,others)
  | .direct => (others,own)

/-- Two sections with something in between. -/
def sectionsText (s : Section) (lead : List Text) (between : Text) (trail : List Text) : Text :=
  s.header++(joined lead++(between++(s.other.header++joined trail)))

theorem IsEntry.stored (h : ∀ e∈es, IsEntry e) : ∀ e∈es, Plain e ∧ ∀ c∈e, isSeparator c=false :=
  fun e he => ⟨(h e he).plain,(h e he).uncut⟩

/-- With a blank between them, an empty first section is read as it was written. -/
theorem parseInlineRoutes_blank_nil (s : Section)
    (htrail : ∀ e∈trail, IsEntry e) :
    parseInlineRoutes (some (sectionsText s [] [' '] trail))=s.lists [] trail := by
  have hread : readText ⟨[],[],.direct⟩ (sectionsText s [] [' '] trail)=
      Reading.extend ⟨[],[],s.other⟩ trail := by
    rw [sectionsText,readText_header]
    change readText _ (' '::(s.other.header++joined trail))=_
    rw [readText_blank,readText_header,readText_joined _ (IsEntry.stored htrail)]
  simp only [parseInlineRoutes,hread]
  cases s <;> simp [Reading.extend,Section.lists,Section.other]

/-- The last entry of the first section, the blank, the header and the first
entry after it make one piece. -/
def gluedEntry (s : Section) (entry : Text) (trail : List Text) : Text :=
  entry ++ ' '::(s.other.header++trail.headD [])

theorem gluedEntry_stored (s : Section) (he : IsEntry entry)
    (htrail : ∀ e∈trail, IsEntry e) :
    Plain (gluedEntry s entry trail) ∧ ∀ c∈gluedEntry s entry trail, isSeparator c=false := by
  obtain ⟨x,xs,hentry⟩ := exists_cons_of_ne_nil he.ne_nil
  have hhead : ∀ c∈trail.headD [], isWhitespace c=false ∧ isSeparator c=false := by
    intro c hc
    cases trail with
    | nil => simp at hc
    | cons e es =>
      have hentry := htrail e mem_cons_self
      exact ⟨(hentry.visible c hc).2.2.1,hentry.uncut c hc⟩
  have htail : ∀ c∈s.other.header++trail.headD [], isWhitespace c=false ∧ isSeparator c=false := by
    intro c hc
    rcases mem_append.mp hc with hc | hc
    · exact ⟨s.other.header_visible c hc,s.other.header_uncut c hc⟩
    · exact hhead c hc
  refine ⟨⟨by simp [gluedEntry],?_,?_⟩,?_⟩
  · intro c hc
    refine he.plain.first c ?_
    simpa [gluedEntry,hentry] using hc
  · intro c hc
    have hne : s.other.header++trail.headD []≠[] :=
      append_ne_nil_of_left_ne_nil (ne_nil_of_mem s.other.header_open) _
    have hlast : (gluedEntry s entry trail).getLast?=(s.other.header++trail.headD []).getLast? := by
      rw [gluedEntry,getLast?_append_of_ne_nil _ (cons_ne_nil _ _),
        ← singleton_append,getLast?_append_of_ne_nil _ hne]
    rw [hlast] at hc
    exact (htail c (mem_of_mem_getLast? hc)).1
  · intro c hc
    rcases mem_append.mp hc with hc | hc
    · exact he.uncut c hc
    · rcases mem_cons.mp hc with rfl | hc
      · decide
      · exact (htail c hc).2

theorem glued_joined (s : Section) (entry : Text) (trail : List Text) :
    entry++([' ']++(s.other.header++joined trail))=
      joined (gluedEntry s entry trail::trail.tail) := by
  cases trail with
  | nil => simp [joined,gluedEntry]
  | cons e es => cases es <;> simp [joined,gluedEntry,intercalate_cons_cons]

theorem extend_extend (r : Reading) (a b : List Text) : (r.extend a).extend b=r.extend (a++b) := by
  obtain ⟨block,direct,active⟩ := r
  cases active <;> simp [Reading.extend]

/-- With a blank between them, the second header is lost in the last entry of
the first section, and all entries go to that section. -/
theorem parseInlineRoutes_blank_concat (s : Section)
    (hfront : ∀ e∈front, IsEntry e) (he : IsEntry entry) (htrail : ∀ e∈trail, IsEntry e) :
    parseInlineRoutes (some (sectionsText s (front++[entry]) [' '] trail))=
      s.lists (front++gluedEntry s entry trail::trail.tail) [] := by
  have hstored : ∀ e∈gluedEntry s entry trail::trail.tail,
      Plain e ∧ ∀ c∈e, isSeparator c=false := by
    intro e hmem
    rcases mem_cons.mp hmem with rfl | hmem
    · exact gluedEntry_stored s he htrail
    · exact IsEntry.stored htrail e (mem_of_mem_tail hmem)
  have hread : readText ⟨[],[],.direct⟩ (sectionsText s (front++[entry]) [' '] trail)=
      Reading.extend ⟨[],[],s⟩ (front++gluedEntry s entry trail::trail.tail) := by
    rw [sectionsText,readText_header,joined_append_singleton,glued_joined]
    split
    · rename_i hnil
      rw [readText_joined _ hstored,hnil,nil_append]
    · rw [readText_joined_comma _ (IsEntry.stored hfront),readText_joined _ hstored,extend_extend]
  simp only [parseInlineRoutes,hread]
  cases s <;> simp [Reading.extend,Section.lists]

/-- The documented form, with either section first. -/
def documentedForm (first : Section) (direct block : List Text) : Text :=
  match first with
  | .direct => "[direct]".toList++(joined direct++(" ".toList++("[block]".toList++joined block)))
  | .block => "[block]".toList++(joined block++(" ".toList++("[direct]".toList++joined direct)))

/-- The entries of the section that is written first. -/
def writtenFirst (first : Section) (direct block : List Text) : List Text :=
  match first with
  | .direct => direct
  | .block => block

theorem lists_glued_ne (s : Section)
    (hfront : ∀ e∈front++[entry], IsEntry e) :
    s.lists (front++gluedEntry s entry trail::trail.tail) [] ≠s.lists (front++[entry]) trail := by
  intro h
  have hlead : front++gluedEntry s entry trail::trail.tail=front++[entry] := by
    cases s with
    | block => exact congrArg Prod.fst h
    | direct => exact congrArg Prod.snd h
  have hmem : gluedEntry s entry trail∈front++[entry] := by
    rw [←hlead]
    simp
  have hopen : '[' ∈ gluedEntry s entry trail := by
    simp [gluedEntry,s.other.header_open]
  exact ((hfront _ hmem).visible _ hopen).2.2.2.1 rfl

/-- The documented form is read as it was written exactly when the section that
is written first has no entries. -/
theorem parseInlineRoutes_documented_iff (first : Section) (direct block : List Text)
    (hdirect : ∀ e∈direct, IsEntry e) (hblock : ∀ e∈block, IsEntry e) :
    parseInlineRoutes (some (documentedForm first direct block))=(block,direct) ↔
      writtenFirst first direct block=[] := by
  have hform : ∃ lead trail, documentedForm first direct block=sectionsText first lead [' '] trail ∧
      writtenFirst first direct block=lead ∧ (block,direct)=first.lists lead trail ∧
      (∀ e∈lead, IsEntry e) ∧ ∀ e∈trail, IsEntry e := by
    cases first with
    | block => exact ⟨block,direct,rfl,rfl,rfl,hblock,hdirect⟩
    | direct => exact ⟨direct,block,rfl,rfl,rfl,hdirect,hblock⟩
  obtain ⟨lead,trail,htext,hfirst,hlists,hlead,htrail⟩ := hform
  rw [htext,hfirst,hlists]
  rcases List.eq_nil_or_concat' lead with rfl | ⟨front,entry,rfl⟩
  · exact iff_of_true (parseInlineRoutes_blank_nil first htrail) rfl
  · have hentry := hlead entry (by simp)
    have hfront : ∀ e∈front, IsEntry e := fun e he => hlead e (by simp [he])
    rw [parseInlineRoutes_blank_concat first hfront hentry htrail]
    exact iff_of_false (lists_glued_ne first hlead) (by simp)

/-- A form with an empty direct section in front of the block section. -/
theorem documented_empty_direct :
    parseInlineRoutes (some (documentedForm .direct [] ["ads.example".toList]))=
      (["ads.example".toList],[]) :=
  (parseInlineRoutes_documented_iff .direct [] ["ads.example".toList] (by simp)
    (List.forall_mem_singleton.mpr ⟨by decide,by simp [isWhitespace],by decide⟩)).mpr rfl

/-- One direct entry in front of two block entries: nothing is blocked, and the
second block entry becomes a direct one. -/
theorem documented_block_lost :
    parseInlineRoutes (some "[direct]a.com [block]ads.example,tracker.net".toList)=
      ([],["a.com [block]ads.example".toList,"tracker.net".toList]) ∧
    documentedForm .direct ["a.com".toList] ["ads.example".toList,"tracker.net".toList]=
      "[direct]a.com [block]ads.example,tracker.net".toList := by
  constructor <;> decide

end MsnGuard.InlineRoutes
