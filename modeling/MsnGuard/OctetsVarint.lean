import Mathlib.Tactic

/-!
# Byte cursors and variable-length integers

A read that needs more bytes than are left fails and does not move the cursor. A variable-length
integer takes one, two, four or eight bytes; the two highest bits of the first byte tell which.
-/

namespace MsnGuard.OctetsVarint

open List Nat

/-- The bytes of a buffer. -/
abbrev Bytes := List UInt8

/-- The largest value with a variable-length encoding. -/
def MAX_VAR_INT : ℕ := 4611686018427387903

/-- A buffer with a reading offset. -/
structure Octets where
  /-- The whole buffer. -/
  buf : Bytes
  /-- Number of bytes already passed. -/
  off : ℕ

namespace Octets

/-- A cursor at the start of a buffer. -/
def withSlice (buf : Bytes) : Octets := ⟨buf,0⟩

/-- The bytes that have not been passed. -/
def rest (b : Octets) : Bytes := b.buf.drop b.off

/-- Number of bytes that have not been passed. -/
def cap (b : Octets) : ℕ := b.buf.length-b.off

/-- Move the offset past some bytes. -/
def skip (b : Octets) (n : ℕ) : Octets := ⟨b.buf,b.off+n⟩

end Octets

/-- The value of bytes in network byte order. -/
def beValue (bytes : Bytes) : ℕ := bytes.foldl (fun acc x => acc*256+x.toNat) 0

/-- Length of a variable-length integer, from its first byte. -/
def varintParseLen (first : UInt8) : ℕ :=
  match (first >>> 6).toNat with
  | 0 => 1
  | 1 => 2
  | 2 => 4
  | _ => 8

/-- The value bits of a variable-length integer; one byte is taken whole. -/
def varintMask : ℕ → ℕ
  | 1 => 0xff
  | 2 => 0x3fff
  | 4 => 0x3fffffff
  | _ => 0x3fffffffffffffff

namespace Octets

/-- Read an unsigned integer of the given number of bytes. -/
def getU (b : Octets) (len : ℕ) : Option (ℕ × Octets) :=
  if b.rest.length<len then none else some (beValue (b.rest.take len),b.skip len)

/-- Read a variable-length integer: the length comes from the first byte and
its two highest bits are masked out of the value. -/
def getVarint (b : Octets) : Option (ℕ × Octets) :=
  match b.rest with
  | [] => none
  | first::_ =>
    let len := varintParseLen first
    if b.cap<len then none
    else (b.getU len).map fun (v,b) => (v &&& varintMask len,b)

/-- Read a run of bytes. -/
def getBytes (b : Octets) (len : ℕ) : Option (Bytes × Octets) :=
  if b.cap<len then none else some (b.rest.take len,b.skip len)

end Octets

/-- A buffer of fixed length with a writing offset. -/
structure OctetsMut where
  /-- The whole buffer. -/
  buf : Bytes
  /-- Number of bytes already written. -/
  off : ℕ

/-- What a write comes to: it fits, it does not fit, or the value has no
encoding at all and the program stops. -/
inductive Put where
  | done (b : OctetsMut)
  | tooShort
  | unreachable

/-- The lowest bytes of a number in network byte order. -/
def beBytes : ℕ → ℕ → Bytes
  | 0,_ => []
  | len+1,v => UInt8.ofNat (v/256^len)::beBytes len v

/-- Set bits of the first byte. -/
def tagFirst (tag : UInt8) : Bytes → Bytes
  | [] => []
  | x::rest => (x ||| tag)::rest

/-- How many bytes the encoding of a value takes, if it has one. -/
def varintLen (v : ℕ) : Option ℕ :=
  if v≤63 then some 1
  else if v≤16383 then some 2
  else if v≤1073741823 then some 4
  else if v≤MAX_VAR_INT then some 8
  else none

/-- The length bits of the first byte. -/
def varintTag : ℕ → UInt8
  | 1 => 0
  | 2 => 0x40
  | 4 => 0x80
  | _ => 0xc0

/-- The encoding of a value in the given number of bytes. -/
def varintBytes (v len : ℕ) : Bytes := tagFirst (varintTag len) (beBytes len v)

namespace OctetsMut

/-- Number of bytes that can still be written. -/
def cap (b : OctetsMut) : ℕ := b.buf.length-b.off

/-- Write bytes at the offset. -/
def putBytes (b : OctetsMut) (bytes : Bytes) : Put :=
  if b.cap<bytes.length then .tooShort
  else .done ⟨b.buf.take b.off++bytes++b.buf.drop (b.off+bytes.length),b.off+bytes.length⟩

/-- Write a variable-length integer of the shortest length. -/
def putVarint (b : OctetsMut) (v : ℕ) : Put :=
  match varintLen v with
  | none => .unreachable
  | some len => b.putBytes (varintBytes v len)

end OctetsMut

/-- The state after a write whose failure is ignored; nothing follows a stop. -/
def Put.orKeep (r : Put) (b : OctetsMut) : Option OctetsMut :=
  match r with
  | .done b => some b
  | .tooShort => some b
  | .unreachable => none

theorem Octets.rest_length (b : Octets) : b.rest.length=b.cap := by
  simp [Octets.rest,Octets.cap]

theorem Octets.rest_skip (b : Octets) (n : ℕ) : (b.skip n).rest=b.rest.drop n := by
  simp [Octets.rest,Octets.skip,drop_drop]

theorem beBytes_length (len v : ℕ) : (beBytes len v).length=len := by
  induction len with
  | zero => rfl
  | succ len ih => rw [beBytes,length_cons,ih]

theorem varintBytes_length (v len : ℕ) : (varintBytes v len).length=len := by
  cases len with
  | zero => rfl
  | succ len => simp [varintBytes,beBytes,tagFirst,beBytes_length]

/-- An accumulated value moves up by one byte for every byte read. -/
theorem beValue_foldl (bytes : Bytes) (acc : ℕ) :
    bytes.foldl (fun acc x => acc*256+x.toNat) acc=acc*256^bytes.length+beValue bytes := by
  unfold beValue
  induction bytes generalizing acc with
  | nil => simp
  | cons x bytes ih =>
    rw [foldl_cons,foldl_cons,ih,ih (0*256+x.toNat),length_cons,pow_succ]
    ring

theorem beValue_cons (x : UInt8) (bytes : Bytes) :
    beValue (x::bytes)=x.toNat*256^bytes.length+beValue bytes := by
  rw [beValue,foldl_cons,beValue_foldl,zero_mul,zero_add]

/-- The bytes of a number give back what fits into them. -/
theorem beValue_beBytes (len v : ℕ) : beValue (beBytes len v)=v % 256^len := by
  induction len with
  | zero => simp [beBytes,beValue,mod_one]
  | succ len ih =>
    have hbyte : (UInt8.ofNat (v/256^len)).toNat=v/256^len % 256 := by simp
    rw [beBytes,beValue_cons,ih,beBytes_length,hbyte,pow_succ,mod_mul]
    ring

/-- A six-bit value keeps its place beside the two length bits. -/
theorem tagged_byte : ∀ c<4, ∀ x<64, (UInt8.ofNat x ||| UInt8.ofNat (64*c)).toNat=x+64*c ∧
      ((UInt8.ofNat x ||| UInt8.ofNat (64*c)) >>> 6).toNat=c := by
  decide +kernel

/-- A value that the given length can hold. Every length can be read, also one
that is longer than the value needs. -/
def VarintFits (v len : ℕ) : Prop :=
  (len=1 ∧ v≤63) ∨ (len=2 ∧ v≤16383) ∨ (len=4 ∧ v≤1073741823) ∨ (len=8 ∧ v≤MAX_VAR_INT)

instance (v len : ℕ) : Decidable (VarintFits v len) := inferInstanceAs (Decidable (_ ∨ _))

theorem varintLen_fits {v len : ℕ} (h : varintLen v=some len) : VarintFits v len := by
  unfold varintLen at h
  split_ifs at h <;> cases h <;> simp_all [VarintFits]

theorem varintLen_of_le {v : ℕ} (h : v≤MAX_VAR_INT) : ∃ len, varintLen v=some len := by
  unfold varintLen
  split_ifs <;> exact ⟨_,rfl⟩

/-- The value leaves the two highest bits of the first byte free, and the
length bits written there are the ones that are read. -/
theorem VarintFits.bits {v len : ℕ} (h : VarintFits v len) :
    ∃ c k, len=k+1 ∧ c<4 ∧ v<64*256^k ∧ varintTag len=UInt8.ofNat (64*c) ∧
      (∀ first : UInt8, (first >>> 6).toNat=c → varintParseLen first=len) ∧
      (c*(64*256^k)+v) &&& varintMask len=v := by
  rcases h with ⟨rfl,hv⟩ | ⟨rfl,hv⟩ | ⟨rfl,hv⟩ | ⟨rfl,hv⟩
  · refine ⟨0,0,rfl,by decide,by omega,rfl,fun first hf => by simp [varintParseLen,hf],?_⟩
    rw [show varintMask 1=2^8-1 from rfl,and_two_pow_sub_one_eq_mod]
    omega
  · refine ⟨1,1,rfl,by decide,by omega,rfl,fun first hf => by simp [varintParseLen,hf],?_⟩
    rw [show varintMask 2=2^14-1 from rfl,and_two_pow_sub_one_eq_mod]
    omega
  · refine ⟨2,3,rfl,by decide,by omega,rfl,fun first hf => by simp [varintParseLen,hf],?_⟩
    rw [show varintMask 4=2^30-1 from rfl,and_two_pow_sub_one_eq_mod]
    omega
  · rw [MAX_VAR_INT] at hv
    refine ⟨3,7,rfl,by decide,by omega,rfl,fun first hf => by simp [varintParseLen,hf],?_⟩
    rw [show varintMask 8=2^62-1 from rfl,and_two_pow_sub_one_eq_mod]
    omega

/-- The first byte of an encoding and the value of all its bytes. -/
theorem varintBytes_cons {v c k : ℕ} (hc : c<4) (hv : v<64*256^k)
    (htag : varintTag (k+1)=UInt8.ofNat (64*c)) :
    ∃ first more, varintBytes v (k+1)=first::more ∧ (first >>> 6).toNat=c ∧
      beValue (varintBytes v (k+1))=c*(64*256^k)+v := by
  have hx : v/256^k<64 := (div_lt_iff_lt_mul (by positivity)).mpr hv
  obtain ⟨hnat,hshift⟩ := tagged_byte c hc _ hx
  refine ⟨_,beBytes k v,rfl,by rw [htag]; exact hshift,?_⟩
  rw [varintBytes,beBytes,tagFirst,beValue_cons,htag,hnat,beBytes_length,beValue_beBytes]
  have hdiv := div_add_mod v (256^k)
  nlinarith

/-- A complete encoding is read back, and the cursor stands behind it. -/
theorem getVarint_varintBytes {v len : ℕ} (h : VarintFits v len) {b : Octets} {tail : Bytes}
    (hb : b.rest=varintBytes v len++tail) : b.getVarint=some (v,b.skip len) := by
  obtain ⟨c,k,rfl,hc,hv,htag,hlen,hmask⟩ := h.bits
  obtain ⟨first,more,hcons,hfirst,hvalue⟩ := varintBytes_cons hc hv htag
  have hl := varintBytes_length v (k+1)
  have hcap : ¬b.cap<k+1 := by
    rw [←b.rest_length,hb,length_append,hl]
    omega
  have htake : b.rest.take (k+1)=varintBytes v (k+1) := by
    rw [hb,take_append_of_le_length (by omega),take_of_length_le (by omega)]
  have hget : b.getU (k+1)=some (c*(64*256^k)+v,b.skip (k+1)) := by
    rw [Octets.getU,if_neg (by rwa [b.rest_length]),htake,hvalue]
  have hrest : b.rest=first::(more++tail) := by rw [hb,hcons,cons_append]
  unfold Octets.getVarint
  rw [hrest]
  dsimp only
  rw [hlen first hfirst,if_neg hcap,hget,Option.map_some,hmask]

theorem beValue_lt (bytes : Bytes) : beValue bytes<256^bytes.length := by
  induction bytes with
  | nil => decide
  | cons x bytes ih =>
    have hx : x.toNat≤255 := le_of_lt_succ x.toNat_lt
    rw [beValue_cons,length_cons,pow_succ]
    nlinarith

theorem beValue_high (bytes : Bytes) (n : ℕ) :
    (n*256^bytes.length+beValue bytes)/256^bytes.length=n := by
  rw [mul_comm,mul_add_div (by positivity),div_eq_of_lt (beValue_lt bytes),add_zero]

theorem beBytes_beValue (bytes : Bytes) (n : ℕ) :
    beBytes bytes.length (n*256^bytes.length+beValue bytes)=bytes := by
  induction bytes generalizing n with
  | nil => rfl
  | cons x bytes ih =>
    have hvalue : n*256^(bytes.length+1)+beValue (x::bytes)=
        (n*256+x.toNat)*256^bytes.length+beValue bytes := by
      rw [beValue_cons,pow_succ]
      ring
    rw [length_cons,beBytes,hvalue,ih,beValue_high,UInt8.ofNat_add,UInt8.ofNat_toNat]
    simp

/-- A byte is its two highest bits and a six-bit value. -/
theorem byte_parts : ∀ n<256, (UInt8.ofNat n >>> 6).toNat=n/64 ∧
    UInt8.ofNat (n%64) ||| UInt8.ofNat (64*(n/64))=UInt8.ofNat n := by
  decide +kernel

/-- As many bytes as the first one announces are the encoding of a value. -/
theorem exists_varintBytes {first : UInt8} {more : Bytes}
    (h : varintParseLen first=more.length+1) :
    ∃ v, VarintFits v (more.length+1) ∧ varintBytes v (more.length+1)=first::more := by
  obtain ⟨hshift,hparts⟩ := byte_parts first.toNat first.toNat_lt
  rw [UInt8.ofNat_toNat] at hshift hparts
  have hless := beValue_lt more
  have hsix : first.toNat%64<64 := mod_lt _ (by decide)
  have hbyte := first.toNat_lt
  refine ⟨first.toNat%64*256^more.length+beValue more,?_,?_⟩
  · have hv : first.toNat%64*256^more.length+beValue more<64*256^more.length := by nlinarith
    unfold varintParseLen at h
    unfold VarintFits MAX_VAR_INT
    split at h <;> rw [←succ_injective h] at hv ⊢ <;> omega
  · have htag : varintTag (more.length+1)=UInt8.ofNat (64*(first.toNat/64)) := by
      rw [←h]
      unfold varintParseLen
      rw [hshift]
      have hfour : first.toNat/64<4 := by omega
      interval_cases first.toNat/64 <;> rfl
    rw [varintBytes,beBytes,beBytes_beValue,beValue_high,tagFirst,htag,hparts]

theorem putVarint_eq {v len : ℕ} (h : varintLen v=some len) (b : OctetsMut) :
    b.putVarint v=b.putBytes (varintBytes v len) := by
  rw [OctetsMut.putVarint,h]

/-- A write that fits fills the next bytes of the buffer. -/
theorem putBytes_done {before after bytes : Bytes} (h : bytes.length≤after.length) :
    OctetsMut.putBytes ⟨before++after,before.length⟩ bytes=
      .done ⟨(before++bytes)++after.drop bytes.length,(before++bytes).length⟩ := by
  have hcap : ¬OctetsMut.cap ⟨before++after,before.length⟩<bytes.length := by
    simp [OctetsMut.cap]
    omega
  rw [OctetsMut.putBytes,if_neg hcap]
  simp [drop_append]

/-- The cursor has passed exactly these bytes. -/
def Octets.Took (b : Octets) (bytes : Bytes) (b' : Octets) : Prop :=
  bytes <+: b.rest ∧ b'=b.skip bytes.length

section Taking

variable {b b' : Octets} {bytes more : Bytes} {v len : ℕ}

theorem Octets.Took.rest (h : b.Took bytes b') : b.rest=bytes++b'.rest := by
  obtain ⟨⟨tail,htail⟩,rfl⟩ := h
  rw [Octets.rest_skip,←htail,drop_left]

theorem Octets.Took.cap (h : b.Took bytes b') : b.cap=bytes.length+b'.cap := by
  rw [←b.rest_length,h.rest,length_append,b'.rest_length]

theorem took_append_iff : b.Took (bytes++more) b' ↔ ∃ b₁, b.Took bytes b₁ ∧ b₁.Took more b' := by
  constructor
  · rintro ⟨⟨tail,htail⟩,rfl⟩
    have hfirst : b.Took bytes (b.skip bytes.length) :=
      ⟨⟨more++tail,by rw [←htail,append_assoc]⟩,rfl⟩
    have hrest := hfirst.rest
    rw [←htail,append_assoc] at hrest
    refine ⟨_,hfirst,⟨tail,append_cancel_left hrest⟩,?_⟩
    rw [Octets.skip,Octets.skip,Octets.skip,length_append,add_assoc]
  · rintro ⟨b₁,hfirst,hsecond⟩
    have hrest := hfirst.rest
    rw [hsecond.rest,←append_assoc] at hrest
    refine ⟨⟨_,hrest.symm⟩,?_⟩
    rw [hsecond.2,hfirst.2,Octets.skip,Octets.skip,Octets.skip,length_append,add_assoc]

theorem getBytes_iff : b.getBytes len=some (bytes,b') ↔ bytes.length=len ∧ b.Took bytes b' := by
  have hlength := b.rest_length
  unfold Octets.getBytes
  constructor
  · intro h
    split_ifs at h
    cases h
    have htake : (b.rest.take len).length=len := length_take_of_le (by omega)
    exact ⟨htake,List.take_prefix _ _,by rw [htake]⟩
  · rintro ⟨rfl,⟨tail,htail⟩,rfl⟩
    rw [←htail,length_append] at hlength
    rw [if_neg (by omega),←htail,take_left]

theorem getByte_iff : b.getU 1=some (v,b') ↔ ∃ x : UInt8, v=x.toNat ∧ b.Took [x] b' := by
  unfold Octets.getU
  cases hrest : b.rest with
  | nil => simp [Octets.Took,hrest]
  | cons x tail => simp [Octets.Took,hrest,beValue,eq_comm]

/-- A value is read exactly from its encodings. -/
theorem getVarint_iff :
    b.getVarint=some (v,b') ↔ ∃ len, VarintFits v len ∧ b.Took (varintBytes v len) b' := by
  constructor
  · intro h
    have hread := h
    unfold Octets.getVarint at h
    split at h
    · cases h
    · rename_i first tail hrest
      dsimp only at h
      split_ifs at h with hcap
      rw [←b.rest_length,hrest,length_cons] at hcap
      obtain ⟨k,hk⟩ : ∃ k, varintParseLen first=k+1 := by
        unfold varintParseLen
        split <;> exact ⟨_,rfl⟩
      have hlength : varintParseLen first=(tail.take k).length+1 := by
        rw [hk,length_take_of_le (by omega)]
      obtain ⟨w,hfits,hbytes⟩ := exists_varintBytes hlength
      have hwhole : b.rest=varintBytes w ((tail.take k).length+1)++tail.drop k := by
        rw [hbytes,hrest,cons_append,take_append_drop]
      rw [getVarint_varintBytes hfits hwhole] at hread
      cases hread
      exact ⟨_,hfits,⟨_,hwhole.symm⟩,by rw [varintBytes_length]⟩
  · rintro ⟨len,hfits,⟨tail,htail⟩,rfl⟩
    rw [getVarint_varintBytes hfits htail.symm,varintBytes_length]

end Taking

end MsnGuard.OctetsVarint
