import MsnGuard.SmartDnsMessages

/-!
# The encoders of name queries and the matcher of their answers

The engine writes a query for a name in two places, the app in a third. Each cuts the name at
its full stops; they differ in empty pieces, and the app's writer gives the flags one byte
instead of two. Every encoder is compared with one layout of a query.
-/

namespace MsnGuard.DnsQueries

open RustText SmartDnsMessages List
open OctetsVarint (beBytes beBytes_length beValue_beBytes)

variable {name label : Text}

/-- The pieces of a name between its full stops. -/
def pieces (name : Text) : List Text := splitAny (· == '.') name

/-- The bytes of a text in UTF-8. -/
def utf8Bytes (s : Text) : Bytes := s.flatMap String.utf8EncodeChar

/-- The bytes of a text in ASCII; what is not in ASCII becomes a question mark. -/
def asciiBytes (s : Text) : Bytes :=
  s.map fun c => if c.toNat<128 then UInt8.ofNat c.toNat else 63

/-- A label on the wire: its length in one byte, then its bytes. -/
def labelBytes (label : Bytes) : Bytes := UInt8.ofNat label.length::label

/-- What stands behind the name: the root, the type and the class. -/
def questionEnd (qtype : UInt16) : Bytes := 0::(beBytes 2 qtype.toNat++[0,1])

/-- The layout of a query: its head, the labels of the name, the end of the question. -/
def layout (head : Bytes) (labels : List Bytes) (qtype : UInt16) :
    Bytes :=
  head++(labels.flatMap labelBytes++questionEnd qtype)

/-- The head of a query with recursion asked for and one question. -/
def head (id : UInt16) : Bytes := beBytes 2 id.toNat++[1,0,0,1,0,0,0,0,0,0]

namespace Dns

/-- `build_query`: the query and the id it carries; the id is the one drawn. -/
def buildQuery (name : Text) (qtype id : UInt16) : Bytes × UInt16 :=
  let q := beBytes 2 id.toNat
  let q := q++[0x01,0x00]
  let q := q++[0x00,0x01]
  let q := q++[0x00,0x00,0x00,0x00,0x00,0x00]
  let q := (pieces name).foldl (fun q label =>
    if label.isEmpty then q
    else q++[UInt8.ofNat (utf8Bytes label).length]++utf8Bytes label) q
  let q := q++[0x00]
  let q := q++beBytes 2 qtype.toNat
  let q := q++[0x00,0x01]
  (q,id)

end Dns

namespace Socks

/-- `build_dns_query` of the local proxy: no piece is left out. -/
def buildDnsQuery (name : Text) (qtype id : UInt16) : Bytes × UInt16 :=
  let q := beBytes 2 id.toNat
  let q := q++[0x01,0x00]
  let q := q++[0x00,0x01]
  let q := q++[0x00,0x00,0x00,0x00,0x00,0x00]
  let q := (pieces name).foldl (fun q label =>
    q++[UInt8.ofNat (utf8Bytes label).length]++utf8Bytes label) q
  let q := q++[0x00]
  let q := q++beBytes 2 qtype.toNat
  let q := q++[0x00,0x01]
  (q,id)

/-- One expected label against the response from a place on; the place behind it. -/
def matchLabel (resp : Bytes) (label : Text) (pos : ℕ) : Option ℕ :=
  match resp[pos]? with
  | none => none
  | some len =>
    if len.toNat≠(utf8Bytes label).length then none
    else if resp.length<pos+1+len.toNat then none
    else if lowercase ((resp.drop (pos+1)).take len.toNat)=lowercase (utf8Bytes label) then
      some (pos+1+len.toNat)
    else none

/-- The expected name, label for label; empty pieces of it are passed over. -/
def matchLabels (resp : Bytes) : List Text → ℕ → Option ℕ
  | [],pos => some pos
  | label::rest,pos =>
    if label.isEmpty then matchLabels resp rest pos
    else (matchLabel resp label pos).bind (matchLabels resp rest)

/-- `dns_response_matches`: is this a response to the query with this id, name and type? -/
def dnsResponseMatches (resp : Bytes) (expectedId : UInt16) (expectedName : Text)
    (expectedQtype : UInt16) : Bool :=
  if resp.length<12 then false
  else if word resp 0≠expectedId.toNat then false
  else if resp.getD 2 0 &&& 0x80=0 then false
  else if word resp 4≠1 then false
  else match matchLabels resp (pieces expectedName) 12 with
    | none => false
    | some pos =>
      if resp[pos]?≠some 0 then false
      else if resp.length<pos+1+4 then false
      else word resp (pos+1) == expectedQtype.toNat

end Socks

namespace Roster

/-- `EchEndpointRoster.buildDnsQuery`: the question of type 65 with a fixed id. -/
def buildDnsQuery (domain : Text) : Bytes :=
  let out := [0x1F,0x2F]
  let out := out++[1]
  let out := out++[0,1]
  let out := out++[0,0,0,0,0,0]
  let out := (pieces domain).foldl (fun out label =>
    out++[UInt8.ofNat (asciiBytes label).length]++asciiBytes label) out
  let out := out++[0]
  let out := out++[0,65]
  out++[0,1]

end Roster

/-- Appending in a loop is appending what the loop writes. -/
theorem foldl_append_flatMap {α : Type} (write : α → Bytes)
    (step : Bytes → α → Bytes) (hstep : ∀ q a, step q a=q++write a)
    (items : List α) (q : Bytes) : items.foldl step q=q++items.flatMap write := by
  induction items generalizing q with
  | nil => simp
  | cons a items ih =>
    rw [foldl_cons,hstep,ih,flatMap_cons,append_assoc]

/-- Leaving the empty pieces out is writing those that are not empty. -/
theorem flatMap_nonempty (write : Text → Bytes) (items : List Text) :
    (items.flatMap fun label => if label.isEmpty then [] else write label)=
      (items.filter fun label => !label.isEmpty).flatMap write := by
  induction items with
  | nil => rfl
  | cons label items ih =>
    rw [flatMap_cons,ih]
    cases h : label.isEmpty with
    | true | false => simp [h]

/-- The labels a text is written with: its pieces that are not empty. -/
def labels (name : Text) : List Text := (pieces name).filter fun label => !label.isEmpty

/-- The resolver's query has the layout of a query of the nonempty pieces. -/
theorem Dns.buildQuery_eq (name : Text) (qtype id : UInt16) :
    Dns.buildQuery name qtype id=(layout (head id) ((labels name).map utf8Bytes) qtype,id) := by
  unfold Dns.buildQuery
  dsimp only
  rw [foldl_append_flatMap (fun label : Text =>
      if label.isEmpty then [] else labelBytes (utf8Bytes label)),flatMap_nonempty]
  · simp [layout,head,labels,questionEnd,flatMap_map]
  · intro q label
    cases h : label.isEmpty with
    | true => simp
    | false => simp [labelBytes]

/-- The proxy's query has the layout of a query of all pieces. -/
theorem Socks.buildDnsQuery_eq (name : Text) (qtype id : UInt16) :
    Socks.buildDnsQuery name qtype id=
      (layout (head id) ((pieces name).map utf8Bytes) qtype,id) := by
  unfold Socks.buildDnsQuery
  dsimp only
  rw [foldl_append_flatMap (fun label : Text => labelBytes (utf8Bytes label))]
  · simp [layout,head,questionEnd,flatMap_map]
  · intro q label
    simp [labelBytes]

/-- The app's question has the layout of a query of all pieces, behind a head of eleven bytes. -/
theorem Roster.buildDnsQuery_eq (domain : Text) :
    Roster.buildDnsQuery domain=
      layout [0x1F,0x2F,1,0,1,0,0,0,0,0,0] ((pieces domain).map asciiBytes) 65 := by
  unfold Roster.buildDnsQuery
  dsimp only
  rw [foldl_append_flatMap (fun label : Text => labelBytes (asciiBytes label))]
  · simp [layout,questionEnd,flatMap_map,beBytes]
  · intro q label
    simp [labelBytes]

/-- An ASCII text has the same bytes in UTF-8 and in ASCII. -/
theorem utf8Bytes_of_ascii {s : Text} (h : ∀ c∈s, c.toNat<128) : utf8Bytes s=asciiBytes s := by
  induction s with
  | nil => rfl
  | cons c s ih =>
    have hc : c.toNat<128 := h c mem_cons_self
    have hs := ih fun d hd => h d (mem_cons_of_mem _ hd)
    have hbyte : String.utf8EncodeChar c=[UInt8.ofNat c.toNat] := by
      simp [String.utf8EncodeChar,Nat.le_of_lt_succ hc]
    unfold utf8Bytes asciiBytes at *
    rw [flatMap_cons,hs,hbyte,map_cons,if_pos hc,singleton_append]

/-- A label of the domain: one to 63 characters of ASCII. -/
def AsciiLabel (label : Text) : Prop :=
  1≤label.length ∧ label.length≤63 ∧ ∀ c∈label, c.toNat<128

/-- Where no piece is empty every piece is a label. -/
theorem labels_eq_pieces (h : ∀ piece∈pieces name, piece≠[]) : labels name=pieces name := by
  unfold labels
  rw [filter_eq_self]
  intro piece hp
  simpa using h piece hp

/-- The app's question is the engine's query for the same domain with the second byte of the
flags missing, so that every later field stands one byte early. -/
theorem roster_query_lacks_flag_byte (domain : Text)
    (hlabels : ∀ label∈pieces domain, AsciiLabel label) :
    Roster.buildDnsQuery domain=(Dns.buildQuery domain 65 0x1F2F).1.eraseIdx 3 ∧
      Roster.buildDnsQuery domain≠(Dns.buildQuery domain 65 0x1F2F).1 := by
  have hne : ∀ label∈pieces domain, label≠[] := by
    intro label hl he
    have hlen := (hlabels label hl).1
    rw [he] at hlen
    simp at hlen
  have hbytes : (pieces domain).map utf8Bytes=(pieces domain).map asciiBytes := by
    apply List.map_congr_left
    intro label hl
    exact utf8Bytes_of_ascii (hlabels label hl).2.2
  have herase : Roster.buildDnsQuery domain=(Dns.buildQuery domain 65 0x1F2F).1.eraseIdx 3 := by
    rw [Roster.buildDnsQuery_eq,Dns.buildQuery_eq,labels_eq_pieces hne,hbytes]
    rfl
  refine ⟨herase,?_⟩
  intro heq
  have hlen := congrArg List.length heq
  rw [herase,List.length_eraseIdx_of_lt] at hlen
  · rw [Dns.buildQuery_eq] at hlen
    simp [layout,head] at hlen
  · rw [Dns.buildQuery_eq]
    simp [layout,head,beBytes_length]
    omega

/-- The counterpart on one domain of one label: the question has one byte less. -/
theorem roster_query_of_one_label :
    (∀ label∈pieces "a".toList, AsciiLabel label) ∧ Roster.buildDnsQuery "a".toList=
        [0x1F,0x2F,1,0,1,0,0,0,0,0,0,1,97,0,0,65,0,1] ∧
      (Dns.buildQuery "a".toList 65 0x1F2F).1=[0x1F,0x2F,1,0,0,1,0,0,0,0,0,0,1,97,0,0,65,0,1] ∧
      Roster.buildDnsQuery "a".toList≠(Dns.buildQuery "a".toList 65 0x1F2F).1 := by
  refine ⟨?_,by decide,by decide,by decide⟩
  intro label hl
  have heq : label=['a'] := by simpa [pieces,splitAny] using hl
  subst heq
  exact ⟨by decide,by decide,by simp⟩

/-- The theorem at a domain of two labels. -/
theorem roster_query_of_two_labels :
    Roster.buildDnsQuery "a.b".toList=(Dns.buildQuery "a.b".toList 65 0x1F2F).1.eraseIdx 3 ∧
      Roster.buildDnsQuery "a.b".toList≠(Dns.buildQuery "a.b".toList 65 0x1F2F).1 := by
  refine roster_query_lacks_flag_byte "a.b".toList ?_
  intro label hl
  have heq : label=['a'] ∨ label=['b'] := by simpa [pieces,splitAny] using hl
  rcases heq with rfl | rfl
  · exact ⟨by decide,by decide,by simp⟩
  · exact ⟨by decide,by decide,by simp⟩

/-- A name written from its labels, with or without a full stop at its end. -/
def written (names : List Text) (trailing : Bool) : Text :=
  List.intercalate ['.'] names++if trailing then ['.'] else []

/-- A label of a name: one to 63 bytes and no full stop. -/
def NameLabel (label : Text) : Prop :=
  1≤(utf8Bytes label).length ∧ (utf8Bytes label).length≤63 ∧ '.' ∉ label

theorem NameLabel.ne_nil (h : NameLabel label) : label≠[] := by
  rintro rfl
  exact absurd h.1 (by decide)

theorem NameLabel.uncut (h : NameLabel label) : ∀ c∈label, (c == '.')=false := by
  intro c hc
  have hne : c ≠ '.' := fun he => h.2.2 (he ▸ hc)
  simpa using hne

/-- The pieces of a name of at least one label are its labels, and one empty piece behind a
full stop at the end. -/
theorem pieces_written {names : List Text} (hne : names≠[])
    (h : ∀ label∈names, NameLabel label) (trailing : Bool) :
    pieces (written names trailing)=names++if trailing then [[]] else [] := by
  induction names with
  | nil => exact absurd rfl hne
  | cons label names ih =>
    have hlabel := (h label mem_cons_self).uncut
    cases names with
    | nil =>
      cases trailing with
      | false =>
        have hone := splitAny_eq_single hlabel
        simpa [pieces,written] using hone
      | true =>
        have hcut := splitAny_append_cons (x := '.') hlabel (by decide) []
        simpa [pieces,written,splitAny] using hcut
    | cons next names =>
      have hrest := ih (by simp) fun l hl => h l (mem_cons_of_mem _ hl)
      have hcut := splitAny_append_cons (x := '.') hlabel (by decide)
        (written (next::names) trailing)
      have hjoin : written (label::next::names) trailing=
          label ++ '.'::written (next::names) trailing := by
        simp [written,intercalate,intersperse]
      unfold pieces at hrest ⊢
      rw [hjoin,hcut,hrest]
      rfl

/-- The empty pieces are what a query of all pieces has more bytes for. -/
theorem flatMap_labelBytes_length (items : List Text) :
    (items.flatMap fun label => labelBytes (utf8Bytes label)).length=
      ((items.filter fun label => !label.isEmpty).flatMap fun label =>
        labelBytes (utf8Bytes label)).length+items.countP fun label => label.isEmpty := by
  induction items with
  | nil => rfl
  | cons label items ih =>
    cases label with
    | nil | cons c label =>
      simp [labelBytes,utf8Bytes] at ih ⊢
      omega

/-- The two encoders agree on exactly the names without an empty piece. -/
theorem queries_agree_iff (name : Text) (qtype id : UInt16) :
    Socks.buildDnsQuery name qtype id=Dns.buildQuery name qtype id ↔
      ∀ piece∈pieces name, piece≠[] := by
  rw [Socks.buildDnsQuery_eq,Dns.buildQuery_eq]
  constructor
  · intro heq
    have hlen := congrArg (fun q : Bytes × UInt16 => q.1.length) heq
    have hcount := flatMap_labelBytes_length (pieces name)
    simp only [layout,length_append,flatMap_map] at hlen
    change _=((labels name).flatMap fun label =>
      labelBytes (utf8Bytes label)).length+_ at hcount
    have hzero : (pieces name).countP (fun label => label.isEmpty)=0 := by omega
    intro piece hp
    have hnot := countP_eq_zero.mp hzero piece hp
    simpa using hnot
  · intro hne
    rw [labels_eq_pieces hne]

/-- A response with only the question: the query with the response bit set. -/
def echoed (query : Bytes) : Bytes := query.set 2 (query.getD 2 0 ||| 0x80)

/-- One label of a name is found where it was written. -/
theorem matchLabel_written (hlen : (utf8Bytes label).length<256) (before tail : Bytes) :
    Socks.matchLabel (before++(labelBytes (utf8Bytes label)++tail)) label before.length=
      some (before.length+(labelBytes (utf8Bytes label)).length) := by
  have hbyte : (UInt8.ofNat (utf8Bytes label).length).toNat=(utf8Bytes label).length := by
    simp [Nat.mod_eq_of_lt hlen]
  have hget : (before++(labelBytes (utf8Bytes label)++tail))[before.length]?=
      some (UInt8.ofNat (utf8Bytes label).length) := by
    simp [labelBytes]
  have hslice : ((before++(labelBytes (utf8Bytes label)++tail)).drop
      (before.length+1)).take (utf8Bytes label).length=utf8Bytes label := by
    have hover : before.drop (before.length+1)=[] := drop_eq_nil_of_le (by omega)
    simp [labelBytes,drop_append,hover]
  unfold Socks.matchLabel
  rw [hget]
  dsimp only
  rw [hbyte,if_neg (by simp),if_neg (by simp [labelBytes]; omega),hslice,if_pos rfl]
  simp [labelBytes]
  omega

/-- The labels of a name are found where they were written, whatever empty pieces the name has. -/
theorem matchLabels_written {items : List Text}
    (hlen : ∀ label∈items, (utf8Bytes label).length<256) (before tail : Bytes) :
    Socks.matchLabels (before++((((items.filter fun label => !label.isEmpty).map
        utf8Bytes).flatMap labelBytes)++tail)) items before.length=
      some (before.length+(((items.filter fun label => !label.isEmpty).map
        utf8Bytes).flatMap labelBytes).length) := by
  induction items generalizing before with
  | nil => simp [Socks.matchLabels]
  | cons label items ih =>
    have hrest := fun b => ih (fun l hl => hlen l (mem_cons_of_mem _ hl)) b
    cases hempty : label.isEmpty with
    | true =>
      simpa [Socks.matchLabels,hempty] using hrest before
    | false =>
      have hone := matchLabel_written (hlen label mem_cons_self) before
        ((((items.filter fun label => !label.isEmpty).map utf8Bytes).flatMap labelBytes)++tail)
      have htail := hrest (before++labelBytes (utf8Bytes label))
      simp only [Socks.matchLabels,hempty,filter_cons,Bool.not_false,if_true,map_cons,
        flatMap_cons,append_assoc,length_append,Bool.false_eq_true,if_false]
        at hone htail ⊢
      rw [hone,Option.bind_some,htail]
      simp [Nat.add_assoc]

/-- The echo of a query is its layout behind a head with the response bit. -/
theorem echoed_layout (id : UInt16) (wire : List Bytes) (qtype : UInt16) :
    echoed (layout (head id) wire qtype)=
      layout (beBytes 2 id.toNat++[0x81,0,0,1,0,0,0,0,0,0]) wire qtype := by
  have hbit : (1 : UInt8) ||| 128=129 := by decide
  simp [echoed,layout,head,beBytes,hbit]

/-- A word is read where it was written. -/
theorem word_written (before rest : Bytes) (v : UInt16) :
    word (before++(beBytes 2 v.toNat++rest)) before.length=v.toNat := by
  have hslice : ((before++(beBytes 2 v.toNat++rest)).drop before.length).take 2=
      beBytes 2 v.toNat := by
    rw [drop_left,take_left' (beBytes_length 2 v.toNat)]
  unfold word
  rw [hslice,beValue_beBytes]
  exact Nat.mod_eq_of_lt v.toNat_lt

/-- What the matcher asks of a response, in the order in which it asks. -/
theorem dnsResponseMatches_of {resp : Bytes} {id qtype : UInt16} {pos : ℕ}
    (hlen : 12≤resp.length) (hid : word resp 0=id.toNat) (hbit : resp.getD 2 0 &&& 0x80≠0)
    (hcount : word resp 4=1) (hname : Socks.matchLabels resp (pieces name) 12=some pos)
    (hroot : resp[pos]?=some 0) (hend : pos+5≤resp.length)
    (htype : word resp (pos+1)=qtype.toNat) : Socks.dnsResponseMatches resp id name qtype=true := by
  unfold Socks.dnsResponseMatches
  rw [if_neg (by omega),if_neg (by simpa using hid),if_neg hbit,if_neg (by simpa using hcount),
    hname]
  dsimp only
  rw [if_neg (by simpa using hroot),if_neg (by omega),htype,beq_self_eq_true]

/-- The matcher accepts the echo of the resolver's query for a name whose pieces have lengths
of one byte. -/
theorem echo_matches (hlen : ∀ label∈pieces name, (utf8Bytes label).length<256)
    (qtype id : UInt16) :
    Socks.dnsResponseMatches (echoed (Dns.buildQuery name qtype id).1) id name qtype=true := by
  rw [Dns.buildQuery_eq,echoed_layout]
  have hname := matchLabels_written hlen (beBytes 2 id.toNat++[0x81,0,0,1,0,0,0,0,0,0])
    (questionEnd qtype)
  have htwelve : (beBytes 2 id.toNat++[0x81,0,0,1,0,0,0,0,0,0]).length=12 := by
    simp [beBytes_length]
  unfold layout labels
  generalize (((pieces name).filter fun label => !label.isEmpty).map utf8Bytes).flatMap
    labelBytes=wire at hname ⊢
  rw [htwelve] at hname
  have hid := word_written [] ([0x81,0,0,1,0,0,0,0,0,0]++(wire++questionEnd qtype)) id
  have hcount := word_written (beBytes 2 id.toNat++[0x81,0])
    ([0,0,0,0,0,0]++(wire++questionEnd qtype)) 1
  have htype := word_written (beBytes 2 id.toNat++[0x81,0,0,1,0,0,0,0,0,0]++(wire++[0]))
    [0,1] qtype
  refine dnsResponseMatches_of ?_ ?_ ?_ ?_ hname ?_ ?_ ?_
  · simp [beBytes_length]
    omega
  · simpa using hid
  · have hbit : (129 : UInt8) &&& 128≠0 := by decide
    simpa [beBytes] using hbit
  · simpa [beBytes] using hcount
  · have hplace : (beBytes 2 id.toNat++[0x81,0,0,1,0,0,0,0,0,0]++wire).length=12+wire.length := by
      rw [length_append,htwelve]
    rw [←append_assoc,←hplace,getElem?_append_right le_rfl,Nat.sub_self]
    rfl
  · simp [questionEnd,beBytes_length]
    omega
  · have hplace : (beBytes 2 id.toNat++[0x81,0,0,1,0,0,0,0,0,0]++(wire++[0])).length=
        12+wire.length+1 := by
      simp [beBytes_length]
      omega
    rw [hplace] at htype
    simpa [questionEnd] using htype

end MsnGuard.DnsQueries
