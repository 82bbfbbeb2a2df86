import Mathlib.Tactic

/-!
# Binary floating point formats

The magnitude of a finite number is counted in units of the least positive number of its format.
Rounding takes a natural number of some finer unit to the nearest number of the format, ties to
the even one.
-/

namespace MsnGuard.FloatFormats

/-- A number of the format with `w` exponent bits and `t` fraction bits. -/
structure Binary (w t : ℕ) where
  negative : Bool
  exponent : ℕ
  fraction : ℕ
  exponent_lt : exponent<2^w
  fraction_lt : fraction<2^t
  deriving DecidableEq

namespace Binary

variable {w t : ℕ}

/-- The exponent field of the infinities and of what is not a number. -/
def top (w : ℕ) : ℕ := 2^w-1

theorem top_lt (w : ℕ) : top w<2^w := Nat.sub_lt (Nat.two_pow_pos w) one_pos

/-- Neither an infinity nor a not-a-number. -/
def isFinite (x : Binary w t) : Bool := x.exponent != top w

/-- The magnitude of a finite number in units of the least positive number. -/
def units (x : Binary w t) : ℕ :=
  if x.exponent=0 then x.fraction else (2^t+x.fraction)*2^(x.exponent-1)

/-- The infinity of a sign. -/
def infinity (negative : Bool) : Binary w t :=
  ⟨negative,top w,0,top_lt w,Nat.two_pow_pos t⟩

/-- The zero of a sign. -/
def zero (negative : Bool) : Binary w t := ⟨negative,0,0,Nat.two_pow_pos w,Nat.two_pow_pos t⟩

/-- Division by a power of two to the nearest number, ties to the even one. -/
def halfEven (n s : ℕ) : ℕ :=
  let q := n/2^s
  let r := n%2^s
  if 2*r<2^s then q else if 2^s<2*r then q+1 else q+q%2

/-- The number with a mantissa of at most `t + 1` digits and a number of shifts. -/
def pack (negative : Bool) (m shifts : ℕ) : Binary w t :=
  if hsub : m<2^t then ⟨negative,0,m,Nat.two_pow_pos w,hsub⟩
  else if hnorm : m<2^(t+1) ∧ shifts+1<top w then
    ⟨negative,shifts+1,m-2^t,lt_trans hnorm.2 (top_lt w),by
      have hdouble : 2^(t+1)=2^t+2^t := by rw [pow_succ]; omega
      omega⟩
  else if hcarry : m=2^(t+1) ∧ shifts+2<top w then
    ⟨negative,shifts+2,0,lt_trans hcarry.2 (top_lt w),Nat.two_pow_pos t⟩
  else infinity negative

/-- How far a number of `n` units of a unit `2^d` times finer is shifted to fit the format. -/
def shift (t n d : ℕ) : ℕ := max d (Nat.log2 n-t)

/-- The number nearest to `n` units of a unit `2^d` times finer than the least number. -/
def round (negative : Bool) (n d : ℕ) : Binary w t :=
  pack negative (halfEven n (shift t n d)) (shift t n d-d)

theorem halfEven_mul_two_pow (m s : ℕ) : halfEven (m*2^s) s=m := by
  unfold halfEven
  rw [Nat.mul_div_cancel _ (Nat.two_pow_pos s),Nat.mul_mod_left]
  simp

/-- A positive number and a power of two: the logarithms add up. -/
theorem log2_mul_two_pow {m : ℕ} (hm : m≠0) (k : ℕ) : Nat.log2 (m*2^k)=Nat.log2 m+k := by
  have hne : m*2^k≠0 := Nat.mul_ne_zero hm (Nat.two_pow_pos k).ne'
  rw [Nat.log2_eq_iff hne]
  have hlow := Nat.log2_self_le hm
  have hhigh := Nat.lt_log2_self (n := m)
  refine ⟨?_,?_⟩
  · rw [pow_add]
    exact Nat.mul_le_mul_right _ hlow
  · rw [add_right_comm,pow_add]
    exact Nat.mul_lt_mul_of_pos_right hhigh (Nat.two_pow_pos k)

/-- A mantissa with its leading digit set has the logarithm of the format. -/
theorem log2_normal {fraction : ℕ} (h : fraction<2^t) : Nat.log2 (2^t+fraction)=t := by
  have hne : 2^t+fraction≠0 := by have := Nat.two_pow_pos t; omega
  rw [Nat.log2_eq_iff hne,pow_succ]
  omega

/-- Rounding a finite number of the format gives it back, in whatever finer unit it is given. -/
theorem round_units {x : Binary w t} (h : x.isFinite=true) (d : ℕ) :
    round x.negative (x.units*2^d) d=x := by
  obtain ⟨negative,exponent,fraction,he,hf⟩ := x
  have hfin : exponent≠top w := by simpa [isFinite] using h
  by_cases hzero : exponent=0
  · subst hzero
    have hshift : shift t (fraction*2^d) d=d := by
      unfold shift
      by_cases hnil : fraction=0
      · simp [hnil]
      · rw [log2_mul_two_pow hnil]
        have hlog := (Nat.log2_lt hnil).mpr hf
        omega
    simp [round,units,hshift,halfEven_mul_two_pow,pack,hf]
  · have hpos : 2^t+fraction≠0 := by have := Nat.two_pow_pos t; omega
    have hunits : (2^t+fraction)*2^(exponent-1)*2^d=
        (2^t+fraction)*2^(exponent-1+d) := by rw [pow_add,mul_assoc]
    have hshift : shift t ((2^t+fraction)*2^(exponent-1+d)) d=exponent-1+d := by
      unfold shift
      rw [log2_mul_two_pow hpos,log2_normal hf]
      omega
    have hlt : exponent<top w := by
      have := he
      unfold top at hfin ⊢
      omega
    have hnorm : 2^t+fraction<2^(t+1) ∧ exponent-1+1<top w := by
      rw [pow_succ]
      omega
    simp only [round,units,hzero,if_false,hunits,hshift,halfEven_mul_two_pow,Nat.add_sub_cancel]
    unfold pack
    rw [dif_neg (by omega),dif_pos hnorm]
    simp
    omega

theorem units_pack_normal {m shifts : ℕ} (hlow : 2^t ≤ m) (hhigh : m<2^(t+1))
    (hexp : shifts+1<top w) (negative : Bool) :
    (pack negative m shifts : Binary w t).units=m*2^shifts ∧
      (pack negative m shifts : Binary w t).negative=negative ∧
      (pack negative m shifts : Binary w t).isFinite=true := by
  unfold pack
  rw [dif_neg (by omega),dif_pos ⟨hhigh,hexp⟩]
  refine ⟨?_,rfl,?_⟩
  · simp only [units,Nat.succ_ne_zero,if_false,Nat.add_sub_cancel]
    rw [Nat.add_sub_cancel' hlow]
  · simpa [isFinite] using hexp.ne

/-- A natural number with no more digits than the format holds is kept exactly. -/
theorem round_exact {m k : ℕ} (hm : m<2^(t+1)) (hexp : Nat.log2 (m*2^k)-t+1<top w)
    (negative : Bool) :
    (round negative (m*2^k) 0 : Binary w t).units=m*2^k ∧
      (round negative (m*2^k) 0 : Binary w t).negative=negative ∧
      (round negative (m*2^k) 0 : Binary w t).isFinite=true := by
  have htop : 0<top w := by omega
  by_cases hzero : m=0
  · subst hzero
    simp [round,halfEven,pack,units,isFinite,shift,htop.ne]
  have hlog := log2_mul_two_pow hzero k
  have hmlog : Nat.log2 m≤t := Nat.lt_succ_iff.mp ((Nat.log2_lt hzero).mpr hm)
  obtain ⟨s,hs⟩ : ∃ s, s=Nat.log2 (m*2^k)-t := ⟨_,rfl⟩
  have hsk : s≤k := by omega
  have hsplit : m*2^k=m*2^(k-s)*2^s := by
    rw [mul_assoc,←pow_add,Nat.sub_add_cancel hsk]
  have hshift : shift t (m*2^k) 0=s := by
    unfold shift
    omega
  have hround : (round negative (m*2^k) 0 : Binary w t)=pack negative (m*2^(k-s)) s := by
    unfold round
    rw [hshift,Nat.sub_zero]
    congr 1
    rw [hsplit,halfEven_mul_two_pow]
  have hM : m*2^(k-s)≠0 := Nat.mul_ne_zero hzero (Nat.two_pow_pos _).ne'
  have hMlog := log2_mul_two_pow hzero (k-s)
  rw [hround,hsplit]
  by_cases hsub : m*2^(k-s)<2^t
  · have hMlt := (Nat.log2_lt hM).mpr hsub
    have hs0 : s=0 := by omega
    subst hs0
    unfold pack
    rw [dif_pos hsub]
    simp [units,isFinite,htop.ne]
  · refine units_pack_normal (Nat.le_of_not_lt hsub) ?_ ?_ negative
    · rw [←Nat.log2_lt hM]
      have hge := (Nat.le_log2 hM).mpr (Nat.le_of_not_lt hsub)
      omega
    · omega

/-- The significant digits of a finite number and the power of two behind them. -/
theorem units_eq_mul (x : Binary w t) : ∃ m k, x.units=m*2^k ∧ m<2^(t+1) ∧ k≤x.exponent := by
  unfold units
  have hf := x.fraction_lt
  split
  · exact ⟨x.fraction,0,by simp,by rw [pow_succ]; omega,by omega⟩
  · exact ⟨2^t+x.fraction,x.exponent-1,rfl,by rw [pow_succ]; omega,by omega⟩

end Binary

/-- The 32-bit format. -/
abbrev Single := Binary 8 23

/-- The 64-bit format. -/
abbrev Double := Binary 11 52

/-- By how many powers of two the least double is below the least single. -/
def finer : ℕ := 925

/-- A single as a double. -/
def widen (x : Single) : Double :=
  if x.isFinite then Binary.round x.negative (x.units*2^finer) 0
  else ⟨x.negative,Binary.top 11,x.fraction*2^29,Binary.top_lt 11,by
    have := x.fraction_lt
    omega⟩

/-- The single nearest to a double; a not-a-number stays one. -/
def narrow (x : Double) : Single :=
  if x.isFinite then Binary.round x.negative x.units finer
  else if x.fraction=0 then Binary.infinity x.negative
  else ⟨x.negative,Binary.top 8,2^22+x.fraction/2^29%2^22,Binary.top_lt 8,by omega⟩

/-- The usual not-a-number. -/
def notANumber : Double := ⟨false,Binary.top 11,2^51,Binary.top_lt 11,by decide⟩

/-- The unit of the doubles is `2^1074` times finer than one. -/
def one : ℕ := 2^1074

/-- The double nearest to an integer. -/
def ofInt (n : ℤ) : Double := Binary.round (decide (n<0)) (n.natAbs*one) 0

/-- The integer between two bounds nearest to the whole part of a double, zero if it is not a
number. -/
def truncate (least greatest : ℤ) (x : Double) : ℤ :=
  if x.isFinite then
    let whole : ℤ := x.units/one
    max least (min greatest (if x.negative then -whole else whole))
  else if x.fraction=0 then if x.negative then least else greatest
  else 0

/-- Equality of numbers: the two zeros are equal, what is not a number equals nothing. -/
def numericEq (x y : Double) : Bool :=
  if x.isFinite && y.isFinite then
    x.units == y.units && (x.negative == y.negative || x.units == 0)
  else x == y && x.fraction == 0

/-- A finite single is widened exactly. -/
theorem widen_exact {x : Single} (h : x.isFinite=true) :
    (widen x).units=x.units*2^finer ∧ (widen x).negative=x.negative ∧ (widen x).isFinite=true := by
  obtain ⟨m,k,hunits,hm,hk⟩ := x.units_eq_mul
  have hexp := x.exponent_lt
  have hmul : x.units*2^finer=m*2^(k+finer) := by rw [hunits,mul_assoc,←pow_add]
  unfold widen
  rw [if_pos h,hmul]
  refine Binary.round_exact (lt_trans hm (by decide)) ?_ x.negative
  by_cases hzero : m=0
  · subst hzero
    simp
    decide
  · rw [Binary.log2_mul_two_pow hzero]
    have hlog : Nat.log2 m<24 := (Nat.log2_lt hzero).mpr hm
    unfold finer Binary.top
    omega

/-- A finite single comes back from the doubles unchanged. -/
theorem narrow_widen {x : Single} (h : x.isFinite=true) : narrow (widen x)=x := by
  obtain ⟨hunits,hsign,hfin⟩ := widen_exact h
  unfold narrow
  rw [if_pos hfin,hunits,hsign]
  exact Binary.round_units h finer

/-- Two numbers of one format with the same sign and magnitude are one. -/
theorem Binary.eq_of_units {w t : ℕ} {x y : Binary w t} (hx : x.isFinite=true)
    (hy : y.isFinite=true) (hsign : x.negative=y.negative) (hunits : x.units=y.units) : x=y := by
  rw [←Binary.round_units hx 0,←Binary.round_units hy 0,hsign,hunits]

/-- The finite numbers without magnitude are the two zeros. -/
theorem Binary.eq_zero_of_units {w t : ℕ} (hw : 0<Binary.top w) {x : Binary w t}
    (hx : x.isFinite=true) (hunits : x.units=0) : x=Binary.zero x.negative := by
  refine Binary.eq_of_units hx ?_ rfl ?_
  · simpa [Binary.zero,Binary.isFinite] using hw.ne
  · rw [hunits]
    rfl

/-- Numbers that are equal are the same, but for the two zeros. -/
theorem eq_of_numericEq {x y : Double} (h : numericEq x y=true) :
    x=y ∨ x.isFinite=true ∧ x.units=0 := by
  unfold numericEq at h
  split at h
  case isTrue hfin =>
    rw [Bool.and_eq_true] at hfin
    simp only [Bool.and_eq_true,Bool.or_eq_true,beq_iff_eq] at h
    rcases h.2 with hsign | hzero
    · exact .inl (Binary.eq_of_units hfin.1 hfin.2 hsign h.1)
    · exact .inr ⟨hfin.1,hzero⟩
  case isFalse =>
    simp only [Bool.and_eq_true,beq_iff_eq] at h
    exact .inl h.1

end MsnGuard.FloatFormats
