import MsnGuard.DnsQueries
import MsnGuard.SmartDnsPackets

/-!
# The messages that the resolver builds

A response without records repeats the question it could read. If it could read none, it still
says that there is one. A query for a name cuts the length of a long label, but not the label.
-/

namespace MsnGuard.SmartDnsReplies

open RustText SmartDnsPackets List
open SmartDnsMessages (word)
open DnsQueries (pieces labels)
open OctetsVarint (beBytes beBytes_length)

variable {packet : Bytes} {left place stop : ℕ}

/-- There is no record. -/
def nodataResponse (query : Bytes) : Bytes := buildResponse query 0

/-- A label of a query: a length of at most 63, then all the characters. -/
def queryLabel (label : Text) : Bytes :=
  UInt8.ofNat (min label.length 63)::label.map fun c => UInt8.ofNat c.toNat

/-- A query for a name. -/
def buildQuery (name : Text) (qtype id : ℕ) : Bytes :=
  beBytes 2 id++[1,0,0,1,0,0,0,0,0,0]++((labels name).flatMap queryLabel++0::(beBytes 2 qtype++[0,1]))

/-- The place behind some questions. -/
def skipQuestions (packet : Bytes) : ℕ → ℕ → Option ℕ
  | 0,place => some place
  | count+1,place => (skipName packet 128 place).bind fun nameEnd =>
    if packet.length<nameEnd+4 then none else skipQuestions packet count (nameEnd+4)

/-- A response that is a message of its own: it has the number of the query and its question, if
there are any, and ends behind the questions that it counts. -/
structure Consistent (query response : Bytes) : Prop where
  isResponse : isResponse response=true
  id : 2≤query.length → response.take 2=query.take 2
  questions : skipQuestions response (word response 4) 12=some response.length
  records : word response 6=0 ∧ word response 8=0 ∧ word response 10=0
  question : ∀ stop, questionEnd query=some stop →
    word response 4=1 ∧ response.drop 12=(query.take stop).drop 12

/-- A name is read from its own bytes. -/
theorem skipName_local (h : skipName packet left place=some stop) :
    place<stop ∧ stop≤packet.length ∧ ∀ packet' : Bytes, stop≤packet'.length →
      (∀ i, place ≤ i → i<stop → packet'.getD i 0=packet.getD i 0) →
      skipName packet' left place=some stop := by
  fun_induction skipName packet left place with
  | case1 | case2 | case5 | case6 | case7 => cases h
  | case3 left place hplace len hpointer hshort =>
    cases h
    refine ⟨by omega,by omega,fun packet' hlength hsame => ?_⟩
    rw [skipName,if_neg (by omega),hsame place le_rfl (by omega)]
    exact (if_pos hpointer).trans (if_neg (by omega))
  | case4 left place hplace len hpointer hzero =>
    cases h
    refine ⟨by omega,by omega,fun packet' hlength hsame => ?_⟩
    rw [skipName,if_neg (by omega),hsame place le_rfl (by omega)]
    exact (if_neg hpointer).trans (if_pos hzero)
  | case8 place hplace len hpointer hzero hlabel hlength left ih =>
    obtain ⟨hlt,hle,hlocal⟩ := ih h
    refine ⟨by omega,hle,fun packet' hlong hsame => ?_⟩
    rw [skipName,if_neg (by omega),hsame place le_rfl (by omega)]
    refine (if_neg hpointer).trans ((if_neg hzero).trans ((if_neg hlabel).trans
      ((if_neg ?_).trans (hlocal packet' hlong fun i hi => hsame i (by omega)))))
    change ¬packet'.length<place+1+len.toNat
    omega

/-- The question of a query, behind a header of its own. -/
theorem skipQuestions_one {query : Bytes} (header : Bytes) (hheader : header.length=12)
    (h : questionEnd query=some stop) :
    (header++(query.take stop).drop 12).length=stop ∧
      skipQuestions (header++(query.take stop).drop 12) 1 12=some stop := by
  unfold questionEnd at h
  split_ifs at h
  obtain ⟨nameEnd,hname,hstop⟩ := Option.bind_eq_some_iff.mp h
  split_ifs at hstop with hlong
  cases hstop
  obtain ⟨hlt,-,hlocal⟩ := skipName_local hname
  have hlength : (header++(query.take (nameEnd+4)).drop 12).length=nameEnd+4 := by
    rw [length_append,length_drop,length_take]
    omega
  have hsame : skipName (header++(query.take (nameEnd+4)).drop 12) 128 12=some nameEnd := by
    refine hlocal _ (by omega) fun i hi hlast => ?_
    rw [getD_eq_getElem?_getD,getD_eq_getElem?_getD,getElem?_append_right (by omega),
      getElem?_drop,getElem?_take_of_lt (by omega)]
    congr 2
    omega
  refine ⟨hlength,?_⟩
  rw [skipQuestions,hsame,Option.bind_some,hlength,if_neg (lt_irrefl _),skipQuestions]

/-- The bit of a response. -/
theorem or_and_ne_zero (b : UInt8) : (0x80 ||| b) &&& 0x80≠(0 : UInt8) := by
  intro h
  have hbit := congrArg (fun x : UInt8 => x.toBitVec.getLsbD 7) h
  simp at hbit

/-- A response without records is a message of its own exactly if the query is too short for a
question or its question can be read. -/
theorem consistent_iff (query : Bytes) (code : UInt8) :
    Consistent query (buildResponse query code) ↔
      query.length<12 ∨ (questionEnd query).isSome=true := by
  have hbit : ((0x81 : UInt8) &&& 0x80 != 0)=true := by decide
  rw [buildResponse]
  by_cases hshort : query.length<12
  · rw [if_pos hshort]
    refine iff_of_true ?_ (.inl hshort)
    have hnone : questionEnd query=none := if_pos hshort
    by_cases htwo : query.length<2
    · rw [if_pos htwo]
      exact ⟨hbit,fun h => by omega,rfl,⟨rfl,rfl,rfl⟩,by simp [hnone]⟩
    · rw [if_neg htwo]
      obtain ⟨a,b,rest,rfl⟩ := exists_two_bytes (not_lt.mp htwo)
      exact ⟨hbit,fun _ => rfl,rfl,⟨rfl,rfl,rfl⟩,by simp [hnone]⟩
  · obtain ⟨a,b,rest,rfl⟩ := exists_two_bytes (show 2≤query.length by omega)
    rw [if_neg hshort]
    cases hend : questionEnd (a::b::rest) with
    | none =>
      -- one question is counted, and there is nothing behind the header
      refine iff_of_false (fun h => ?_) fun h => h.elim hshort nofun
      cases h.questions
    | some stop =>
      obtain ⟨hlength,hquestion⟩ := skipQuestions_one
        [a,b,0x80 ||| ((a::b::rest).getD 2 0 &&& 0x01),0x80 ||| (code &&& 0x0F),0,1,0,0,0,0,0,0]
        rfl hend
      refine iff_of_true ⟨bne_iff_ne.mpr (or_and_ne_zero _),fun _ => rfl,
        hquestion.trans (congrArg some hlength.symm),⟨rfl,rfl,rfl⟩,fun stop' h => ?_⟩ (.inr rfl)
      cases hend.symm.trans h
      exact ⟨rfl,rfl⟩

/-- A label is passed over by the length before it. -/
theorem skipName_label {n : ℕ} (hpos : 0<n) (hn : n≤63) (before rest : Bytes)
    (hrest : n≤rest.length) (left : ℕ) :
    skipName (before++UInt8.ofNat n::rest) (left+1) before.length=
      skipName (before++UInt8.ofNat n::rest) left (before.length+1+n) := by
  have hbyte : ∀ m : Fin 64, UInt8.ofNat m &&& 0xC0=0 ∧ (UInt8.ofNat m).toNat=m ∧
      (m≠0 → UInt8.ofNat m≠0) := by decide
  obtain ⟨hmask,hvalue,hne⟩ := hbyte ⟨n,by omega⟩
  have hget : (before++UInt8.ofNat n::rest).getD before.length 0=UInt8.ofNat n := by simp
  have hlength : (before++UInt8.ofNat n::rest).length=before.length+1+rest.length := by
    simp
    omega
  rw [skipName,hlength,if_neg (by omega),hget]
  dsimp only at hmask hvalue ⊢
  rw [hmask,hvalue,if_neg (by decide),if_neg (hne (by simp [Fin.ext_iff]; omega)),
    if_neg (by simp),if_neg (by omega)]

/-- The labels of a name are passed over if none is too long and they are not too many. -/
theorem skipName_labels (names : List Text) (h : ∀ label∈names, label≠[] ∧ label.length≤63)
    (hleft : names.length≤left) (before tail : Bytes) :
    skipName (before++(names.flatMap queryLabel++0::tail)) left before.length=
      some (before.length+(names.flatMap queryLabel).length+1) := by
  induction names generalizing left before with
  | nil =>
    rw [skipName]
    simp
  | cons label names ih =>
    obtain ⟨hne,hshort⟩ := h label mem_cons_self
    have hlabel : queryLabel label=UInt8.ofNat label.length::label.map fun c => UInt8.ofNat c.toNat := by
      rw [queryLabel,min_eq_left hshort]
    cases left with
    | zero => cases hleft
    | succ left =>
      have hnext := ih (fun l hl => h l (mem_cons_of_mem _ hl)) (Nat.le_of_succ_le_succ hleft)
        (before++queryLabel label)
      have hstep := skipName_label (length_pos_iff.mpr hne) hshort before
        ((label.map fun c => UInt8.ofNat c.toNat)++(names.flatMap queryLabel++0::tail)) (by simp) left
      simp only [flatMap_cons,hlabel,append_assoc,cons_append,length_append,
        length_cons,length_map] at hnext hstep ⊢
      rw [hstep,Nat.add_right_comm,Nat.add_assoc before.length,hnext]
      congr 1
      omega

/-- A name has at most half as many labels as characters. -/
theorem labels_length (name : Text) : 2*(labels name).length≤name.length+1 := by
  have hpieces : ∃ piece rest, pieces name=piece::rest ∧
      2*((piece::rest).filter fun l => !l.isEmpty).length+piece.isEmpty.toNat≤name.length+1 := by
    unfold pieces
    induction name with
    | nil => exact ⟨[],[],rfl,by decide⟩
    | cons c name ih =>
      obtain ⟨piece,rest,hsplit,hle⟩ := ih
      rw [splitAny,hsplit]
      split
      · refine ⟨[],piece::rest,rfl,?_⟩
        simp at hle ⊢
        omega
      · refine ⟨c::piece,rest,rfl,?_⟩
        cases piece <;> simp at hle ⊢ <;> omega
  obtain ⟨piece,rest,hsplit,hle⟩ := hpieces
  rw [labels,hsplit]
  omega

/-- The messages are what they are to be exactly if the query is too short for a question or has
one that can be read, and the labels of names have at most 63 characters. -/
theorem messages_consistent_iff (query : Bytes) (n : ℕ) :
    (Consistent query (nodataResponse query) ∧ Consistent query (servfailResponse query)) ∧
      (∀ name qtype id, (∀ c∈name, c.toNat<128) → name.length≤253 →
        (∀ label∈labels name, label.length ≤ n) → skipName (buildQuery name qtype id) 128 12=
          some ((buildQuery name qtype id).length-4)) ↔
    (query.length<12 ∨ (questionEnd query).isSome=true) ∧ n≤63 := by
  rw [nodataResponse,servfailResponse,consistent_iff,consistent_iff,and_self]
  refine and_congr_right fun _ => ⟨fun h => ?_,fun hn name qtype id _ hlength hlabels => ?_⟩
  · by_contra hlong
    have hlabels : labels (List.replicate 64 'a')=[List.replicate 64 'a'] := by decide
    have hskip := h (List.replicate 64 'a') 1 0 (by simp) (by simp) (by rw [hlabels]; simp; omega)
    revert hskip
    decide +kernel
  · have hcount := labels_length name
    have hname := skipName_labels (labels name) (fun label hl => ⟨?_,(hlabels label hl).trans hn⟩)
      (show _ ≤ 128 by omega) (beBytes 2 id++[1,0,0,1,0,0,0,0,0,0]) (beBytes 2 qtype++[0,1])
    · have hhead : (beBytes 2 id++[1,0,0,1,0,0,0,0,0,0]).length=12 := by simp [beBytes_length]
      rw [hhead] at hname
      rw [buildQuery,hname]
      simp [beBytes_length]
      omega
    · simpa using (List.mem_filter.mp hl).2

/-- Without a question in the query the response counts one that is not there, and a label of 64
characters is passed over as one of 63. -/
theorem messages_inconsistent :
    ¬Consistent (List.replicate 12 0) (nodataResponse (List.replicate 12 0)) ∧
      skipName (buildQuery (List.replicate 64 'a') 1 0) 128 12=none := by
  rw [nodataResponse,consistent_iff]
  exact ⟨by decide,by decide +kernel⟩

end MsnGuard.SmartDnsReplies
