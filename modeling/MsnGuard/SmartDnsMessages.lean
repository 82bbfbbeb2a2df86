import MsnGuard.SocksDatagrams

/-!
# The messages of the DNS front

The front reads the question of a query, builds answers of its own and reads the first address
of a reply, all on the bytes of the messages.
-/

namespace MsnGuard.SmartDnsMessages

open RustText IpAddresses SocksDatagrams List
open OctetsVarint (beBytes beValue beBytes_length beValue_beBytes)

variable {rounds : ℕ} {rest head query : Bytes}

/-- The type of a question for an IPv4 address. -/
def qtypeA : ℕ := 1

/-- The type of a question for an IPv6 address. -/
def qtypeAaaa : ℕ := 28

/-- The type of a question for the parameters of HTTPS. -/
def qtypeHttps : ℕ := 65

/-- Two bytes of a message as a number. -/
def word (message : Bytes) (i : ℕ) : ℕ := beValue ((message.drop i).take 2)

/-- The labels of a name, with dots between them. Every round takes a byte, so that as
many rounds as there are bytes are enough. -/
def labels : ℕ → Bytes → Bytes → Option Bytes
  | _,[],out => some out
  | 0,_::_,_ => none
  | rounds+1,label::rest,out =>
    if label=0 then some out
    else if label &&& 0xC0≠0 then none
    else if rest.length<label.toNat then none
    else labels rounds (rest.drop label.toNat)
      ((if out.isEmpty then out else out++[46])++rest.take label.toNat)

/-- The name of the question, of which every character is a byte. -/
def queryName (query : Bytes) : Option Bytes :=
  if query.length<12 then none else labels query.length (query.drop 12) []

/-- The type behind a name, or zero. -/
def typeBehind : ℕ → Bytes → ℕ
  | 0,_ => 0
  | _,[] => 0
  | rounds+1,label::rest =>
    if rest.length<4 then 0
    else if label=0 then beValue (rest.take 2)
    else if label &&& 0xC0≠0 then 0
    else if rest.length<label.toNat then 0
    else typeBehind rounds (rest.drop label.toNat)

/-- The type of the question, or zero. -/
def queryType (query : Bytes) : ℕ :=
  if query.length<14 then 0 else typeBehind query.length (query.drop 12)

/-- The name and the type of the question. -/
def question (message : Bytes) : Option Bytes × ℕ := (queryName message,queryType message)

/-- An upper case letter as the lower case one. -/
def lowerByte (b : UInt8) : UInt8 :=
  if (65≤b ∧ b≤90) ∨ (192≤b ∧ b≤222 ∧ b≠215) then b+32 else b

/-- A name in lower case. -/
def lowercase (name : Bytes) : Bytes := name.map lowerByte

/-- An answer without a record: the query with other flags. -/
def nodataAnswer (query : Bytes) : Bytes :=
  query.take 2++[0x81,0x80]++(query.drop 4).take 2++[0,0]++query.drop 8

/-- An answer with one address: a header, the question as it is and the record. -/
def aAnswer (query address : Bytes) (ttl : BitVec 32) : Bytes :=
  query.take 2++[0x81,0x80,0,1,0,1,0,0,0,0]++query.drop 12 ++
    [0xC0,12,0,1,0,1]++beBytes 4 ttl.toNat++[0,4]++address.take 4

/-- The query under another number. -/
def rewriteId (query : Bytes) (id : ℕ) : Bytes := beBytes 2 id++query.drop 2

/-- The reply under the number of the query. -/
def restoreId (query response : Bytes) : Bytes := query.take 2++response.drop 2

/-- The place behind a name. Pointers are followed, and the name ends behind the first. -/
def skipLabels (reply : Bytes) : ℕ → ℕ → Option ℕ → ℕ → Option ℕ
  | 0,_,_,_ => none
  | rounds+1,place,stop,jumps =>
    if reply.length≤place then none
    else
      let label := reply.getD place 0
      if label=0 then some (stop.getD (place+1))
      else if label &&& 0xC0≠0 then
        let pointer := (label &&& 0x3F).toNat*256+(reply.getD (place+1) 0).toNat
        if reply.length≤place+1 then none
        else if reply.length≤pointer ∨ pointer<12 then none
        else if reply.length<jumps+1 then none
        else skipLabels reply rounds pointer (some (stop.getD (place+2))) (jumps+1)
      else if reply.length<place+1+label.toNat then none
      else skipLabels reply rounds (place+1+label.toNat) stop jumps

/-- As many rounds as a name can take: one for each byte after each pointer. -/
def skipRounds (reply : Bytes) : ℕ := (reply.length+1)*(reply.length+1)

/-- The place behind a name. -/
def skipName (reply : Bytes) (start : ℕ) : Option ℕ :=
  skipLabels reply (skipRounds reply) start none 0

/-- The place behind some questions. -/
def skipQuestions (reply : Bytes) : ℕ → ℕ → Option ℕ
  | 0,place => some place
  | count+1,place => (skipName reply place).bind fun next => skipQuestions reply count (next+4)

/-- The first address among some records, with its lifetime. -/
def firstAddress (reply : Bytes) : ℕ → ℕ → Option (Bytes × BitVec 32)
  | 0,_ => none
  | count+1,place =>
    (skipName reply place).bind fun at_ =>
      if reply.length<at_+10 then none
      else
        let ttl := BitVec.ofNat 32 (beValue ((reply.drop (at_+4)).take 4))
        let rdlength := word reply (at_+8)
        if word reply at_=qtypeA ∧ rdlength=4 ∧ at_+10+4≤reply.length then
          some ((reply.drop (at_+10)).take 4,ttl)
        else if reply.length<at_+10+rdlength then none
        else firstAddress reply count (at_+10+rdlength)

/-- The first address of a reply, with its lifetime. -/
def parseFirstA (reply : Bytes) : Option (Bytes × BitVec 32) :=
  if reply.length<12 then none
  else if word reply 6=0 then none
  else (skipQuestions reply (word reply 4) 12).bind fun place =>
    firstAddress reply (word reply 6) place

/-- A datagram for the relay: where it is to go, and the message. -/
def encapsulate (destination : IpAddr) (port : ℕ) (payload : Bytes) : Bytes :=
  buildUdpReply ⟨destination,port⟩ payload

/-- The message of a datagram of the relay. -/
def decapsulate (datagram : Bytes) : Option Bytes :=
  if datagram.length<10 then none
  else if datagram.getD 2 0≠0 then none
  else
    let header := match (datagram.getD 3 0).toNat with
      | 1 => some 10
      | 4 => some 22
      | 3 => some (5+(datagram.getD 4 0).toNat+2)
      | _ => none
    header.bind fun n => if datagram.length≤n then none else some (datagram.drop n)

/-- The rounds for a name and its type are enough: one more changes nothing. -/
theorem rounds_succ (h : rest.length≤rounds) :
    (∀ out, labels (rounds+1) rest out=labels rounds rest out) ∧
      typeBehind (rounds+1) rest=typeBehind rounds rest := by
  induction rounds generalizing rest with
  | zero =>
    rw [length_eq_zero_iff.mp (Nat.le_zero.mp h)]
    exact ⟨fun _ => rfl,rfl⟩
  | succ rounds ih =>
    cases rest with
    | nil => exact ⟨fun _ => rfl,rfl⟩
    | cons label rest =>
      have hrest : (rest.drop label.toNat).length≤rounds := by
        rw [length_drop]
        rw [length_cons] at h
        omega
      obtain ⟨hlabels,htype⟩ := ih hrest
      refine ⟨fun out => ?_,?_⟩
      · rw [labels,hlabels]
        rfl
      · rw [typeBehind,htype]
        rfl

/-- A name takes a round for each byte it passes, and passes every byte once at most
after each pointer. -/
theorem skipLabels_succ (reply : Bytes) {place jumps : ℕ} (stop : Option ℕ)
    (h : (reply.length-jumps)*(reply.length+1)+(reply.length-place)<rounds) :
    skipLabels reply (rounds+1) place stop jumps=skipLabels reply rounds place stop jumps := by
  induction rounds generalizing place stop jumps with
  | zero => omega
  | succ rounds ih =>
    rw [skipLabels,skipLabels]
    split
    · rfl
    rename_i hplace
    dsimp only
    split
    · rfl
    split
    · split
      · rfl
      split
      · rfl
      rename_i hpointer
      split
      · rfl
      rename_i hjumps
      refine ih _ ?_
      have hsplit : (reply.length-jumps)*(reply.length+1)=
          (reply.length-(jumps+1))*(reply.length+1)+(reply.length+1) := by
        rw [←Nat.succ_mul]
        congr 1
        omega
      omega
    · split
      · rfl
      · refine ih _ ?_
        omega

/-- The first two bytes are the number of a message. -/
theorem question_append {head' : Bytes} (h : head.length=2) (h' : head'.length=2) :
    question (head++rest)=question (head'++rest) := by
  have hskip : ∀ {front : Bytes}, front.length=2 → (front++rest).drop 12=rest.drop 10 := by
    intro front hfront
    have hnil : front.drop 12=[] := drop_eq_nil_of_le (by omega)
    rw [drop_append,hnil,hfront,nil_append]
  have hdrop : (head++rest).drop 12=(head'++rest).drop 12 := by rw [hskip h,hskip h']
  have hlength : (head++rest).length=(head'++rest).length := by
    rw [length_append,length_append,h,h']
  unfold question queryName queryType
  rw [hdrop,hlength]

/-- Another number of a message leaves its question. -/
theorem question_renumber {message : Bytes} (h : head.length=2) (hm : 2 ≤ message.length) :
    question (head++message.drop 2)=question message := by
  have htake : (message.take 2).length=2 := by
    rw [length_take]
    omega
  rw [question_append h htake,take_append_drop]

theorem question_rewriteId (h : 2≤query.length) (id : ℕ) :
    question (rewriteId query id)=question query :=
  question_renumber (beBytes_length 2 id) h

theorem question_restoreId {response : Bytes} (h : 2≤query.length) (h' : 2≤response.length) :
    question (restoreId query response)=question response :=
  question_renumber (by rw [length_take]; omega) h'

theorem restoreId_take (h : 2≤query.length) (response : Bytes) :
    (restoreId query response).take 2=query.take 2 := by
  have hlength : (query.take 2).length=2 := by
    rw [length_take]
    omega
  exact take_left' hlength

/-- The lifetime in an answer of the front. -/
def answerTtl (query answer : Bytes) : ℕ := beValue ((answer.drop (query.length+6)).take 4)

/-- The lifetime in an answer is the one it was built with. -/
theorem answerTtl_aAnswer (h : 12≤query.length) (address : Bytes) (ttl : BitVec 32) :
    answerTtl query (aAnswer query address ttl)=ttl.toNat := by
  have hhead : (query.take 2++[0x81,0x80,0,1,0,1,0,0,0,0]++query.drop 12 ++
      [0xC0,12,0,1,0,1]).length=query.length+6 := by
    simp only [length_append,length_take,length_drop,length_cons,
      length_nil]
    omega
  have hvalue := beValue_beBytes 4 ttl.toNat
  rw [Nat.mod_eq_of_lt (by exact ttl.isLt)] at hvalue
  rw [answerTtl,aAnswer,append_assoc _ [0,4],append_assoc _ (beBytes 4 ttl.toNat),
    drop_left' hhead,take_left' (beBytes_length 4 _),hvalue]

/-- A query for the address of a name of one letter. -/
def sampleQuery (id letter : UInt8) : Bytes := [0,id,1,0,0,1,0,0,0,0,0,0,1,letter,0,0,1,0,1]

/-- Its response, with a lifetime of five minutes. -/
def sampleResponse (id letter last : UInt8) : Bytes :=
  [0,id,0x81,0x80,0,1,0,1,0,0,0,0,1,letter,0,0,1,0,1]++[0xC0,12,0,1,0,1,0,0,1,44,0,4,10,0,0,last]

example : parseFirstA (sampleResponse 7 97 9)=some ([10,0,0,9],300) := by decide +kernel

end MsnGuard.SmartDnsMessages
