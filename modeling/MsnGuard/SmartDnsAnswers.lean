import MsnGuard.SmartDnsPackets

/-!
# The addresses the DNS front answers with

A message is a header with four counts, as many questions and records as they say, and nothing
behind them. An answer of the front is a header, everything behind the header of the query, and
one record.
-/

namespace MsnGuard.SmartDnsAnswers

open RustText SmartDnsMessages List Option
open SmartDnsPackets (isResponse exists_two_bytes)
open OctetsVarint (beBytes beBytes_length beValue_beBytes)

variable {place rounds more size : ℕ} {bytes rest address query reply : Bytes} {ttl : BitVec 32}

/-- What is behind a name that begins at a place. A pointer goes back, but not into the
header, and ends the name. -/
def behindLabels (place : ℕ) : ℕ → Bytes → Option Bytes
  | 0,_ => none
  | _+1,[] => none
  | rounds+1,label::rest =>
    if label=0 then some rest
    else if label &&& 0xC0=0xC0 then
      let target := (label &&& 0x3F).toNat*256+(rest.headD 0).toNat
      if rest=[] ∨ target<12 ∨ place≤target then none else some rest.tail
    else if label &&& 0xC0≠0 then none
    else if rest.length<label.toNat then none
    else behindLabels place rounds (rest.drop label.toNat)

/-- What is behind a name of at most 255 bytes, in a message of some size. -/
def behindName (size : ℕ) (bytes : Bytes) : Option Bytes :=
  (behindLabels (size-bytes.length) bytes.length bytes).bind fun rest =>
    if bytes.length≤rest.length+255 then some rest else none

/-- What is behind some questions. -/
def behindQuestions (size : ℕ) : ℕ → Bytes → Option Bytes
  | 0,bytes => some bytes
  | count+1,bytes => (behindName size bytes).bind fun rest =>
    if rest.length<4 then none else behindQuestions size count (rest.drop 4)

/-- What is behind some records. -/
def behindRecords (size : ℕ) : ℕ → Bytes → Option Bytes
  | 0,bytes => some bytes
  | count+1,bytes => (behindName size bytes).bind fun rest =>
    if rest.length<10+word rest 8 then none
    else behindRecords size count (rest.drop (10+word rest 8))

/-- How many records a message says it has. -/
def recordCount (message : Bytes) : ℕ := word message 6+word message 8+word message 10

/-- A message has the questions and the records that it says, and nothing else. -/
def WellFormed (message : Bytes) : Prop :=
  12 ≤ message.length ∧ (behindQuestions message.length (word message 4) (message.drop 12)).bind
      (behindRecords message.length (recordCount message))=some []

instance (message : Bytes) : Decidable (WellFormed message) := by
  unfold WellFormed
  infer_instance

/-- A query with one question. -/
structure OneQuestion (query : Bytes) : Prop where
  wellFormed : WellFormed query
  request : isResponse query=false
  one : word query 4=1

instance (query : Bytes) : Decidable (OneQuestion query) :=
  decidable_of_iff (WellFormed query ∧ isResponse query=false ∧ word query 4=1)
    ⟨fun ⟨h,h',h''⟩ => ⟨h,h',h''⟩,fun ⟨h,h',h''⟩ => ⟨h,h',h''⟩⟩

/-- A response that says what is in it, and from which an address can be read. -/
structure Answers (answer address : Bytes) (ttl : BitVec 32) : Prop where
  wellFormed : WellFormed answer
  response : isResponse answer=true
  parsed : parseFirstA answer=some (address,ttl)

instance (answer address : Bytes) (ttl : BitVec 32) : Decidable (Answers answer address ttl) :=
  decidable_of_iff
    (WellFormed answer ∧ isResponse answer=true ∧ parseFirstA answer=some (address,ttl))
    ⟨fun ⟨h,h',h''⟩ => ⟨h,h',h''⟩,fun ⟨h,h',h''⟩ => ⟨h,h',h''⟩⟩

/-- A name ends where it ended, whatever is behind the message. -/
theorem behindLabels_append (h : behindLabels place rounds bytes=some rest) (tail : Bytes)
    (hmore : rounds ≤ more) : behindLabels place more (bytes++tail)=some (rest++tail) := by
  fun_induction behindLabels place rounds bytes generalizing more with
  | case1 | case2 | case4 | case6 | case7 => cases h
  | case3 rounds bytes =>
    obtain ⟨more,rfl⟩ := Nat.exists_eq_add_of_le' hmore
    cases h
    rfl
  | case5 =>
    rename_i bytes hzero hpointer target htarget
    obtain ⟨more,rfl⟩ := Nat.exists_eq_add_of_le' hmore
    cases h
    cases bytes with
    | nil => exact absurd (.inl rfl) htarget
    | cons low bytes =>
      refine (if_neg hzero).trans ((if_pos hpointer).trans (if_neg ?_))
      simpa [target] using htarget
  | case8 rounds label bytes hzero hpointer hlabel hlength ih =>
    obtain ⟨more,rfl⟩ := Nat.exists_eq_add_of_le' hmore
    have hlonger : ¬(bytes++tail).length<label.toNat := by
      rw [length_append]
      omega
    have hrest := ih h (show rounds ≤ more+rounds by omega)
    rw [←drop_append_of_le_length (by omega)] at hrest
    exact (if_neg hzero).trans ((if_neg hpointer).trans ((if_neg hlabel).trans
      ((if_neg hlonger).trans hrest)))

/-- The same for a name with a bound on its length. -/
theorem behindName_append (h : behindName size bytes=some rest) (tail : Bytes) :
    behindName (size+tail.length) (bytes++tail)=some (rest++tail) := by
  obtain ⟨rest',hlabels,hbound⟩ := bind_eq_some_iff.mp h
  split_ifs at hbound with hlength
  cases hbound
  have hplace : size+tail.length-(bytes++tail).length=size-bytes.length := by
    rw [length_append]
    omega
  have hrounds : bytes.length≤(bytes++tail).length := by
    rw [length_append]
    omega
  rw [behindName,hplace,behindLabels_append hlabels tail hrounds]
  have hlonger : (bytes++tail).length≤(rest++tail).length+255 := by
    rw [length_append,length_append]
    omega
  exact if_pos hlonger

/-- The last sixteen bytes of an answer. -/
def addressRecord (address : Bytes) (ttl : BitVec 32) : Bytes :=
  [0xC0,12,0,1,0,1]++beBytes 4 ttl.toNat++[0,4]++address.take 4

theorem addressRecord_length (h : address.length=4) (ttl : BitVec 32) :
    (addressRecord address ttl).length=16 := by
  simp only [addressRecord,length_append,length_take,beBytes_length,length_cons,
    length_nil,h]
  omega

/-- The header of an answer. -/
def answerHeader (query : Bytes) : Bytes := query.take 2++[0x81,0x80,0,1,0,1,0,0,0,0]

theorem answerHeader_length (h : 12≤query.length) : (answerHeader query).length=12 := by
  simp only [answerHeader,length_append,length_take,length_cons,length_nil]
  omega

/-- An answer has a header, what is behind the header of the query, and a record. -/
theorem aAnswer_eq (query address : Bytes) (ttl : BitVec 32) :
    aAnswer query address ttl=answerHeader query++(query.drop 12++addressRecord address ttl) := by
  simp only [aAnswer,answerHeader,addressRecord,append_assoc]

section Answer

variable {query address : Bytes} {ttl : BitVec 32}

theorem aAnswer_length (hquery : 12≤query.length) (haddress : address.length=4) :
    (aAnswer query address ttl).length=query.length+16 := by
  rw [aAnswer_eq,length_append,length_append,answerHeader_length hquery,
    addressRecord_length haddress,length_drop]
  omega

/-- What is behind the header of an answer. -/
theorem aAnswer_drop (hquery : 12≤query.length) :
    (aAnswer query address ttl).drop 12=query.drop 12++addressRecord address ttl := by
  rw [aAnswer_eq,drop_left' (answerHeader_length hquery)]

/-- The record is behind all the bytes of the query. -/
theorem aAnswer_drop_query (hquery : 12≤query.length) :
    (aAnswer query address ttl).drop query.length=addressRecord address ttl := by
  have hsplit : query.length=12+(query.drop 12).length := by
    rw [length_drop]
    omega
  rw [hsplit,←drop_drop,aAnswer_drop hquery,drop_left]

/-- The header of an answer says one question and one record. -/
theorem aAnswer_counts (hquery : 12≤query.length) (address : Bytes) (ttl : BitVec 32) :
    word (aAnswer query address ttl) 4=1 ∧ word (aAnswer query address ttl) 6=1 ∧
      word (aAnswer query address ttl) 8=0 ∧ word (aAnswer query address ttl) 10=0 ∧
      isResponse (aAnswer query address ttl)=true := by
  obtain ⟨first,second,rest,rfl⟩ := exists_two_bytes (Nat.le_trans (by decide) hquery)
  have hflags : ((0x81 : UInt8) &&& 0x80 != 0)=true := by decide
  refine ⟨rfl,rfl,rfl,rfl,?_⟩
  rw [isResponse,if_neg (by simp [aAnswer])]
  exact hflags

/-- The record of an answer is a record, and it is the last. -/
theorem behindRecords_addressRecord (haddress : address.length=4) {size : ℕ} (hsize : 12<size) :
    behindRecords (size+16) 1 (addressRecord address ttl)=some [] := by
  have hlength := addressRecord_length haddress ttl
  have hplace : size+16-(addressRecord address ttl).length=size := by omega
  have hback : ¬size≤12 := by omega
  have hname : behindName (size+16) (addressRecord address ttl)=
      some ([0,1,0,1]++beBytes 4 ttl.toNat++[0,4]++address.take 4) := by
    rw [behindName,hplace,hlength]
    simp [addressRecord,behindLabels,hback]
  have hhead : ([0,1,0,1]++beBytes 4 ttl.toNat : Bytes).length=8 := by
    rw [length_append,beBytes_length]
    rfl
  have hword : word ([0,1,0,1]++beBytes 4 ttl.toNat++[0,4]++address.take 4) 8=4 := by
    rw [word,append_assoc _ [0,4],drop_left' hhead]
    rfl
  have hsize :
      ([0,1,0,1]++beBytes 4 ttl.toNat++[0,4]++address.take 4 : Bytes).length=14 := by
    rw [length_append,length_append,hhead,length_take,haddress]
    rfl
  rw [behindRecords,hname,bind_some,hword,hsize,if_neg (by decide),behindRecords,
    drop_eq_nil_of_le (by omega)]

end Answer

/-- The front walks over a name that is written out as far as the name goes. -/
theorem skipLabels_eq (h : behindLabels 12 rounds bytes=some rest)
    (hplace : reply.drop place=bytes) (hmore : rounds ≤ more) (stop : Option ℕ) (jumps : ℕ) :
    skipLabels reply more place stop jumps=some (stop.getD (reply.length-rest.length)) := by
  have hhead : ∀ {place label bytes}, reply.drop place=label::bytes →
      reply.length=place+1+bytes.length ∧ reply.getD place 0=label := by
    intro place label bytes hplace
    have hlength := congrArg length hplace
    rw [length_drop,length_cons] at hlength
    refine ⟨by omega,?_⟩
    rw [getD_eq_getElem?_getD,←Nat.add_zero place,←getElem?_drop,hplace]
    rfl
  fun_induction behindLabels 12 rounds bytes generalizing place more with
  | case1 | case2 | case4 | case6 | case7 => cases h
  | case3 rounds bytes =>
    obtain ⟨more,rfl⟩ := Nat.exists_eq_add_of_le' hmore
    obtain ⟨hlength,hlabel⟩ := hhead hplace
    cases h
    have hend : reply.length-rest.length=place+1 := by omega
    refine (if_neg (by omega)).trans ?_
    rw [hlabel,if_pos rfl,hend]
  | case5 => omega
  | case8 rounds label bytes hzero hpointer hlabel hlength ih =>
    obtain ⟨more,rfl⟩ := Nat.exists_eq_add_of_le' hmore
    obtain ⟨hall,hfirst⟩ := hhead hplace
    have hnext : reply.drop (place+1+label.toNat)=bytes.drop label.toNat := by
      rw [←drop_drop,←drop_drop,hplace]
      rfl
    refine (if_neg (by omega)).trans ?_
    rw [hfirst,if_neg hzero,if_neg hlabel,if_neg (by omega)]
    exact ih h hnext (Nat.le_add_left ..)

/-- What stands in the record of an answer. -/
theorem addressRecord_fields (h : address.length=4) (ttl : BitVec 32) :
    word (addressRecord address ttl) 2=qtypeA ∧ word (addressRecord address ttl) 10=4 ∧
      ((addressRecord address ttl).drop 6).take 4=beBytes 4 ttl.toNat ∧
      ((addressRecord address ttl).drop 12).take 4=address := by
  have hhead : ([0xC0,12,0,1,0,1]++beBytes 4 ttl.toNat : Bytes).length=10 := by
    rw [length_append,beBytes_length]
    rfl
  have hdata : ([0xC0,12,0,1,0,1]++beBytes 4 ttl.toNat++[0,4] : Bytes).length=12 := by
    rw [length_append,hhead]
    rfl
  refine ⟨rfl,?_,?_,?_⟩
  · rw [addressRecord,word,append_assoc _ [0,4],drop_left' hhead]
    rfl
  · rw [addressRecord,append_assoc _ [0,4],append_assoc _ (beBytes 4 ttl.toNat)]
    exact take_left' (beBytes_length 4 _)
  · rw [addressRecord,drop_left' hdata,take_take,Nat.min_self,←h,take_length]

/-- A byte of the record of an answer. -/
theorem aAnswer_getD (hquery : 12≤query.length) (i : ℕ) :
    (aAnswer query address ttl).getD (query.length+i) 0=(addressRecord address ttl).getD i 0 := by
  rw [getD_eq_getElem?_getD,←getElem?_drop,aAnswer_drop_query hquery,
    ← getD_eq_getElem?_getD]

/-- The name of the record is a pointer to the name of the question. -/
theorem skipName_addressRecord (hquery : 12≤query.length) (haddress : address.length=4)
    (h : behindLabels 12 rounds ((aAnswer query address ttl).drop 12)=some rest)
    (hrounds : rounds≤(aAnswer query address ttl).length) :
    skipName (aAnswer query address ttl) query.length=some (query.length+2) := by
  have hlength : (aAnswer query address ttl).length=query.length+16 :=
    aAnswer_length hquery haddress
  have hfirst : (aAnswer query address ttl).getD query.length 0=0xC0 := aAnswer_getD hquery 0
  have hsecond : (aAnswer query address ttl).getD (query.length+1) 0=12 := aAnswer_getD hquery 1
  obtain ⟨more,hmore⟩ : ∃ more, skipRounds (aAnswer query address ttl)=more+1 :=
    ⟨_,rfl⟩
  have hle : rounds ≤ more := by
    unfold skipRounds at hmore
    nlinarith
  have hpointer : ((0xC0 : UInt8) &&& 0x3F).toNat*256+(12 : UInt8).toNat=12 := by decide
  rw [skipName,hmore,skipLabels,if_neg (by omega)]
  dsimp only
  rw [hfirst,hsecond,hpointer,if_neg (by decide),if_pos (by decide),if_neg (by omega),
    if_neg (by omega),if_neg (by omega),skipLabels_eq h rfl hle]
  rfl

/-- The address and the lifetime of an answer are read back. -/
theorem parseFirstA_aAnswer (ttl : BitVec 32) (hquery : 12≤query.length)
    (haddress : address.length=4) (hname : behindName query.length (query.drop 12)=some rest)
    (hrest : rest.length=4) : parseFirstA (aAnswer query address ttl)=some (address,ttl) := by
  obtain ⟨rest',hlabels,hbound⟩ := bind_eq_some_iff.mp hname
  split_ifs at hbound
  cases hbound
  have hplace : query.length-(query.drop 12).length=12 := by
    rw [length_drop]
    omega
  rw [hplace] at hlabels
  have hlength : (aAnswer query address ttl).length=query.length+16 :=
    aAnswer_length hquery haddress
  have hrounds : (query.drop 12).length≤(aAnswer query address ttl).length := by
    rw [length_drop]
    omega
  have hlonger := behindLabels_append hlabels (addressRecord address ttl) le_rfl
  rw [←aAnswer_drop hquery] at hlonger
  obtain ⟨hquestions,hanswers,-⟩ := aAnswer_counts hquery address ttl
  have hskip : skipName (aAnswer query address ttl) 12=some (query.length-4) := by
    have hmore : (query.drop 12).length ≤ skipRounds (aAnswer query address ttl) := by
      unfold skipRounds
      nlinarith
    rw [skipName,skipLabels_eq hlonger rfl hmore,length_append,addressRecord_length haddress,
      hlength,hrest]
    congr 1
  have hpointer := skipName_addressRecord hquery haddress hlonger hrounds
  have hend : query.length-4+4=query.length := by omega
  rw [parseFirstA,hquestions,hanswers,if_neg (by omega),if_neg (by decide),skipQuestions,hskip,
    bind_some,skipQuestions,hend,bind_some,firstAddress,hpointer,bind_some,
    if_neg (by omega)]
  have hdrop : ∀ i, (aAnswer query address ttl).drop (query.length+2+i)=
      (addressRecord address ttl).drop (2+i) := by
    intro i
    rw [Nat.add_assoc,←drop_drop,aAnswer_drop_query hquery]
  obtain ⟨htype,hdata,httl,haddr⟩ := addressRecord_fields haddress ttl
  have hvalue := beValue_beBytes 4 ttl.toNat
  rw [Nat.mod_eq_of_lt (by exact ttl.isLt)] at hvalue
  have hA : word (aAnswer query address ttl) (query.length+2)=qtypeA := by
    rw [←htype,word,word,←Nat.add_zero (query.length+2),hdrop]
  have hfour : word (aAnswer query address ttl) (query.length+2+8)=4 := by
    rw [←hdata,word,word,hdrop]
  rw [hA,hfour,if_pos ⟨rfl,rfl,by omega⟩,hdrop,hdrop,httl,haddr,hvalue,BitVec.ofNat_toNat,
    BitVec.setWidth_eq]

/-- A query with one question is a header, a name with a type and a class, and its records. -/
theorem OneQuestion.split (h : OneQuestion query) :
    ∃ rest, behindName query.length (query.drop 12)=some rest ∧ 4≤rest.length ∧
      behindRecords query.length (recordCount query) (rest.drop 4)=some [] := by
  obtain ⟨after,hquestions,hrecords⟩ := bind_eq_some_iff.mp h.wellFormed.2
  rw [h.one,behindQuestions] at hquestions
  obtain ⟨rest,hname,hshort⟩ := bind_eq_some_iff.mp hquestions
  split_ifs at hshort with hlength
  cases hshort
  exact ⟨rest,hname,by omega,hrecords⟩

/-- Behind a record of the query there is always the record of the answer. -/
theorem behindRecords_append_ne {count : ℕ} {tail : Bytes}
    (h : behindRecords size (count+1) bytes=some rest) (htail : tail≠[]) :
    behindRecords (size+tail.length) 1 (bytes++tail)≠some [] := by
  obtain ⟨after,hname,hrecord⟩ := bind_eq_some_iff.mp h
  split_ifs at hrecord
  have hword : word (after++tail) 8=word after 8 := by
    rw [word,word,drop_append_of_le_length (by omega),
      take_append_of_le_length (by rw [length_drop]; omega)]
  have hfits : ¬(after++tail).length<10+word after 8 := by
    rw [length_append]
    omega
  rw [behindRecords,behindName_append hname tail,bind_some,hword,if_neg hfits,behindRecords,
    drop_append_of_le_length (by omega)]
  intro hnil
  exact htail (append_eq_nil_iff.mp (some.inj hnil)).2

/-- An answer is a message, and its address can be read back, if and only if the query has
no records behind its question. -/
theorem aAnswer_answers_iff {query address : Bytes} (ttl : BitVec 32) (hquery : OneQuestion query)
    (haddress : address.length=4) :
    Answers (aAnswer query address ttl) address ttl ↔ recordCount query=0 := by
  have hsize : 12≤query.length := hquery.wellFormed.1
  have hlength : (aAnswer query address ttl).length=
      query.length+(addressRecord address ttl).length := by
    rw [aAnswer_length hsize haddress,addressRecord_length haddress]
  have hrecord : addressRecord address ttl≠[] := by simp [addressRecord]
  obtain ⟨hquestions,hanswers,hauthority,hadditional,hresponse⟩ := aAnswer_counts hsize address ttl
  have hcount : recordCount (aAnswer query address ttl)=1 := by
    rw [recordCount,hanswers,hauthority,hadditional]
  obtain ⟨rest,hname,hrest,hrecords⟩ := hquery.split
  have hfits : ¬(rest++addressRecord address ttl).length<4 := by
    rw [List.length_append]
    omega
  -- what is left behind the question: the records of the query, and then the new one
  have hbehind : (behindQuestions (aAnswer query address ttl).length 1
      ((aAnswer query address ttl).drop 12)).bind
        (behindRecords (aAnswer query address ttl).length 1)=
      behindRecords (query.length+(addressRecord address ttl).length) 1
        (rest.drop 4++addressRecord address ttl) := by
    rw [aAnswer_drop hsize,hlength,behindQuestions,behindName_append hname,Option.bind_some,
      if_neg hfits,behindQuestions,List.drop_append_of_le_length hrest,Option.bind_some]
  constructor
  · intro h
    have hwell := h.wellFormed.2
    rw [hquestions,hcount,hbehind] at hwell
    cases hn : recordCount query with
    | zero => rfl
    | succ count =>
      rw [hn] at hrecords
      exact absurd hwell (behindRecords_append_ne hrecords hrecord)
  · intro hnone
    rw [hnone,behindRecords] at hrecords
    have hfour : rest.length=4 := by
      have hnil := List.drop_eq_nil_iff.mp (Option.some.inj hrecords)
      omega
    have hplace : 12<query.length := by
      by_contra hle
      rw [List.drop_eq_nil_of_le (by omega)] at hname
      cases hname
    refine ⟨⟨by rw [hlength]; omega,?_⟩,hresponse,
      parseFirstA_aAnswer ttl hsize haddress hname hfour⟩
    rw [hquestions,hcount,hbehind,Option.some.inj hrecords,List.nil_append,
      addressRecord_length haddress]
    exact behindRecords_addressRecord haddress hplace

/-- A query for the address of a name of one letter that offers extensions. -/
def extendedQuery (id letter : UInt8) : Bytes :=
  [0,id,1,0,0,1,0,0,0,0,0,1,1,letter,0,0,1,0,1]++[0,0,41,16,0,0,0,0,0,0,0]

/-- A query without records is answered with a message and an address. -/
theorem aAnswer_answers_sampleQuery :
    OneQuestion (sampleQuery 7 97) ∧ recordCount (sampleQuery 7 97)=0 ∧
      Answers (aAnswer (sampleQuery 7 97) [10,0,0,9] 300) [10,0,0,9] 300 := by
  have hone : OneQuestion (sampleQuery 7 97) := by decide +kernel
  have hnone : recordCount (sampleQuery 7 97)=0 := by decide
  exact ⟨hone,hnone,(aAnswer_answers_iff 300 hone rfl).mpr hnone⟩

/-- The answer to a query that offers extensions says one record and has two, of which
the first is no address. -/
theorem aAnswer_extendedQuery :
    OneQuestion (extendedQuery 7 97) ∧ ¬WellFormed (aAnswer (extendedQuery 7 97) [10,0,0,9] 300) ∧
      parseFirstA (aAnswer (extendedQuery 7 97) [10,0,0,9] 300)=none := by decide +kernel

end MsnGuard.SmartDnsAnswers
