import Mathlib.Data.Nat.Log
import Mathlib.Tactic

/-!
# The MTU of a path

The scanner looks for the largest packet that is answered on the carrier, takes off what the
method wraps around a packet and a margin, and goes down to a boundary of sixteen bytes.
-/

namespace MsnGuard.MtuProbe

/-- IP and ICMP around the payload of a ping. -/
def ICMP_OVERHEAD : ℤ := 28

def SCAN_FLOOR : ℤ := 1280

def SCAN_CEIL : ℤ := 1460

def SAFETY_MARGIN : ℤ := 32

def SNAP : ℤ := 16

inductive Method where
  | masque
  | wireguard
  | wow
  | psiphon
  | tor
  | shard

/-- The bytes a method wraps around a packet. -/
def OVERHEAD : Method → ℤ
  | .masque => 196
  | .wireguard => 60
  | .wow => 280
  | .psiphon => 40
  | .tor => 100
  | .shard => 70

structure Result where
  method : Method
  outerPathMtu : Option ℤ
  inner : Option ℤ
  probes : ℕ
  capped : Bool

/-- The MTU of an interface within its bounds. -/
def getInterfaceMtu (mtu : ℤ) : ℤ := min (max mtu 1280) 9000

section Search

variable (ping : ℤ → Bool)

/-- Send one ping of this size and count it. -/
def testMtu (totalSize : ℤ) (probes : ℕ) : Bool × ℕ :=
  if totalSize-ICMP_OVERHEAD<0 then (true,probes)
  else (ping (totalSize-ICMP_OVERHEAD),probes+1)

/-- The loop of the search, which nobody interrupts. -/
def search (low high bestPathMtu : ℤ) (probes : ℕ) : ℤ × ℕ :=
  if low≤high then
    let tested := testMtu ping ((low+high)/2) probes
    if tested.1 then search ((low+high)/2+1) high ((low+high)/2) tested.2
    else search low ((low+high)/2-1) bestPathMtu tested.2
  else (bestPathMtu,probes)
termination_by (high+1-low).toNat
decreasing_by all_goals omega

/-- The MTU to propose for a path. -/
def optimal (method : Method) (bestPathMtu : ℤ) : ℤ :=
  let o := bestPathMtu-OVERHEAD method-SAFETY_MARGIN
  min (max (o-o%SNAP) SCAN_FLOOR) SCAN_CEIL

def measure (mtu : ℤ) (method : Method) : Result :=
  let localMtu := getInterfaceMtu mtu
  let df := testMtu ping 2000 0
  if df.1 then ⟨method,some 2000,some SCAN_FLOOR,df.2,false⟩
  else
    let found := search ping 1200 (min localMtu 1500) 1200 df.2
    ⟨method,some found.1,some (optimal method found.1),found.2,false⟩

/-- A packet is answered exactly up to a size. -/
def Answers (t : ℤ) : Prop := ∀ size, ping (size-ICMP_OVERHEAD)=decide (size≤t)

end Search

variable {ping : ℤ → Bool} {t low high best : ℤ} {probes : ℕ}

theorem testMtu_eq (hping : Answers ping t) {size : ℤ} (hsize : 28 ≤ size) (probes : ℕ) :
    testMtu ping size probes=(decide (size≤t),probes+1) := by
  have hpayload : ¬size-ICMP_OVERHEAD<0 := by
    rw [ICMP_OVERHEAD]
    omega
  rw [testMtu,if_neg hpayload,hping size]

/-- The search ends at the largest size that is answered. -/
theorem search_fst (hping : Answers ping t) (hlow : 28≤low) (hopen : low≤high+1)
    (hfound : low-1≤best) (hbest : best≤t) (hwithin : best≤high) :
    (search ping low high best probes).1=min t high := by
  fun_induction search ping low high best probes with
  | case1 low high best probes hle tested hanswer ih =>
    have htested := testMtu_eq hping (show 28≤(low+high)/2 by omega) probes
    have hmid : (low+high)/2≤t := by simpa [tested,htested] using hanswer
    exact ih (by omega) (by omega) (by omega) hmid (by omega)
  | case2 low high best probes hle tested hanswer ih =>
    have htested := testMtu_eq hping (show 28≤(low+high)/2 by omega) probes
    have hmid : t<(low+high)/2 := by simpa [tested,htested] using hanswer
    rw [ih hlow (by omega) hfound hbest (by omega)]
    omega
  | case3 low high best probes hend => omega

/-- Every probe halves what is left. -/
theorem search_snd (hping : Answers ping t) (hlow : 28≤low) : ∀ n : ℕ, high+1-low<2^n →
    (search ping low high best probes).2≤probes+n := by
  fun_induction search ping low high best probes with
  | case1 low high best probes hle tested hanswer ih
  | case2 low high best probes hle tested hanswer ih =>
    intro n hn
    have htested := testMtu_eq hping (show 28≤(low+high)/2 by omega) probes
    cases n with
    | zero => omega
    | succ n =>
      rw [pow_succ] at hn
      have hrest := ih (by omega) n (by omega)
      simp only [tested,htested] at hrest ⊢
      omega
  | case3 => omega

theorem optimal_le (method : Method) (h : low≤high) : optimal method low≤optimal method high := by
  simp only [optimal,SNAP]
  omega

theorem optimal_mem (method : Method) : optimal method best∈Set.Icc SCAN_FLOOR SCAN_CEIL := by
  simp only [optimal,SCAN_FLOOR,SCAN_CEIL,Set.mem_Icc]
  omega

/-- What the scanner finds on a path that answers up to a size. -/
theorem measure_eq {m : ℤ} (method : Method) (hping : Answers ping t) (hlow : 1200≤t)
    (hhigh : t<2000) (hm : 1280 ≤ m) :
    ∃ probes≤Nat.log 2 (min m 1500-1199).toNat+2, measure ping m method=
      ⟨method,some (min t (min m 1500)),some (optimal method (min t (min m 1500))),probes,false⟩ := by
  have hdf : testMtu ping 2000 0=(false,1) := by
    rw [testMtu_eq hping (by omega) 0,decide_eq_false (by omega)]
  have hmtu : min (getInterfaceMtu m) 1500=min m 1500 := by
    rw [getInterfaceMtu]
    omega
  have hfound : (search ping 1200 (min m 1500) 1200 1).1=min t (min m 1500) :=
    search_fst hping (by omega) (by omega) (by omega) (by omega) (by omega)
  have hpow := Nat.lt_pow_succ_log_self (b := 2) (by omega) (min m 1500-1199).toNat
  have hcount : (search ping 1200 (min m 1500) 1200 1).2≤1+(Nat.log 2 (min m 1500-1199).toNat+1) :=
    search_snd hping (by omega) _ (by zify at hpow; omega)
  refine ⟨_,le_trans hcount (by omega),?_⟩
  simp only [measure,hdf,hmtu,hfound,Bool.false_eq_true,if_false]

end MsnGuard.MtuProbe
