import Mathlib.Tactic

/-!
# The totals of a session

A backend that is dialled again counts its bytes from zero. The telemetry takes a sample
below the one before it for a new run and adds what the run before had counted. A new run
whose first sample is not below goes unnoticed.
-/

namespace MsnGuard.TrafficTotals

open List

/-- The largest number of 64 bits. -/
def maxTotal : ℕ := 2^64-1

/-- A sum of 64 bits stops at the largest number. -/
def saturatingAdd (a b : ℕ) : ℕ := min (a+b) maxTotal

/-- What a backend reports. -/
structure Counters where
  totalRx : ℕ
  totalTx : ℕ
  rxBytesSec : ℕ
  txBytesSec : ℕ
  rttMs : ℕ
  deriving DecidableEq

/-- What the telemetry keeps of the counters. -/
structure Inner where
  /-- What is published. -/
  counters : Counters
  /-- The totals of the last sample. -/
  rawTotalRx : ℕ
  rawTotalTx : ℕ
  /-- What the runs before have counted. -/
  foldedRx : ℕ
  foldedTx : ℕ

/-- A new session. -/
def Inner.new : Inner := ⟨⟨0,0,0,0,0⟩,0,0,0,0⟩

def setCounters (g : Inner) (c : Counters) : Inner :=
  let foldedRx :=
    if c.totalRx<g.rawTotalRx then saturatingAdd g.foldedRx g.rawTotalRx else g.foldedRx
  let foldedTx :=
    if c.totalTx<g.rawTotalTx then saturatingAdd g.foldedTx g.rawTotalTx else g.foldedTx
  ⟨{c with
      totalRx := saturatingAdd foldedRx c.totalRx
      totalTx := saturatingAdd foldedTx c.totalTx},c.totalRx,c.totalTx,foldedRx,foldedTx⟩

/-- The telemetry after the samples of a session. -/
def sampled (samples : List Counters) : Inner := samples.foldl setCounters Inner.new

/-- The last sample and what was counted before, in one direction. -/
def fold (s : ℕ × ℕ) (sample : ℕ) : ℕ × ℕ :=
  (sample,if sample<s.1 then saturatingAdd s.2 s.1 else s.2)

/-- What is published in one direction. -/
def published (samples : List ℕ) : ℕ :=
  saturatingAdd (samples.foldl fold (0,0)).2 (samples.foldl fold (0,0)).1

/-- The two directions. -/
def totals : List (Counters → ℕ) := [Counters.totalRx,Counters.totalTx]

theorem sampled_published (samples : List Counters) {total : Counters → ℕ} (h : total∈totals) :
    total (sampled samples).counters=published (samples.map total) := by
  have hsampled : ((sampled samples).rawTotalRx,(sampled samples).foldedRx)=
        (samples.map Counters.totalRx).foldl fold (0,0) ∧
      ((sampled samples).rawTotalTx,(sampled samples).foldedTx)=
        (samples.map Counters.totalTx).foldl fold (0,0) ∧
      (sampled samples).counters.totalRx=
        saturatingAdd (sampled samples).foldedRx (sampled samples).rawTotalRx ∧
      (sampled samples).counters.totalTx=
        saturatingAdd (sampled samples).foldedTx (sampled samples).rawTotalTx := by
    induction samples using reverseRecOn with
    | nil => exact ⟨rfl,rfl,rfl,rfl⟩
    | append_singleton samples c ih =>
      have hnext : sampled (samples++[c])=setCounters (sampled samples) c := foldl_concat ..
      rw [hnext,map_append,map_append,foldl_append,foldl_append,←ih.1,←ih.2.1]
      exact ⟨rfl,rfl,rfl,rfl⟩
  obtain ⟨hrx,htx,hsumRx,hsumTx⟩ := hsampled
  rcases mem_pair.mp h with rfl | rfl
  · rw [published,←hrx,hsumRx]
  · rw [published,←htx,hsumTx]

/-- Does every run that is sampled begin below the last sample before it, unless that is
zero? -/
def restartsSeen (raw : ℕ) : List (List ℕ) → Bool
  | [] => true
  | []::rest => restartsSeen raw rest
  | (c::run)::rest => decide (raw=0 ∨ c<raw) && restartsSeen (run.getLastD c) rest

/-- The sum of the last samples of the runs. -/
def lastSum (runs : List (List ℕ)) : ℕ := (runs.map fun run => run.getLastD 0).sum

/-- Within a run nothing is added. -/
theorem foldl_run {raw : ℕ} (folded : ℕ) {run : List ℕ} (h : (raw::run).Pairwise (·≤·)) :
    run.foldl fold (raw,folded)=(run.getLastD raw,folded) := by
  induction run generalizing raw with
  | nil => rfl
  | cons c run ih =>
    have hle : raw≤c := rel_of_pairwise_cons h mem_cons_self
    have hfold : fold (raw,folded) c=(c,folded) := by
      rw [fold,if_neg (by omega)]
    rw [foldl_cons,hfold,ih (pairwise_cons.mp h).2,getLastD_cons]

/-- What has been counted is at most the sum of the runs, and all of it exactly if every
restart was seen. The second number is kept up to the largest of 64 bits. -/
theorem foldl_runs (runs : List (List ℕ)) (h : ∀ run∈runs, run.Pairwise (·≤·)) (raw before : ℕ) :
    ∃ last total, runs.flatten.foldl fold (raw,min before maxTotal)=(last,min total maxTotal) ∧
      total+last≤before+raw+lastSum runs ∧
      (total+last=before+raw+lastSum runs ↔ restartsSeen raw runs=true) := by
  induction runs generalizing raw before with
  | nil => exact ⟨raw,before,rfl,le_rfl,iff_of_true rfl rfl⟩
  | cons run rest ih =>
    have hrest : ∀ run∈rest, run.Pairwise (·≤·) := fun run hmem => h run (mem_cons_of_mem _ hmem)
    cases run with
    | nil =>
      obtain ⟨last,total,hfold,hle,hiff⟩ := ih hrest raw before
      have hsum : lastSum ([]::rest)=lastSum rest := by simp [lastSum]
      rw [hsum]
      exact ⟨last,total,hfold,hle,hiff⟩
    | cons c run =>
      have hrun := foldl_run (min (if c<raw then before+raw else before) maxTotal)
        (h (c::run) mem_cons_self)
      have hfirst : fold (raw,min before maxTotal) c=
          (c,min (if c<raw then before+raw else before) maxTotal) := by
        unfold fold saturatingAdd
        split <;> simp only [Prod.mk.injEq,true_and]
        omega
      obtain ⟨last,total,hfold,hle,hiff⟩ := ih hrest (run.getLastD c)
        (if c<raw then before+raw else before)
      have hsum : lastSum ((c::run)::rest)=run.getLastD c+lastSum rest := by
        simp only [lastSum,map_cons,sum_cons,getLastD_cons]
      refine ⟨last,total,?_,?_⟩
      · rw [flatten_cons,cons_append,foldl_cons,hfirst,foldl_append,hrun,hfold]
      · rw [hsum,restartsSeen,Bool.and_eq_true,decide_eq_true_eq,←hiff]
        by_cases hseen : c<raw
        · rw [if_pos hseen] at hle ⊢
          omega
        · rw [if_neg hseen] at hle ⊢
          omega

/-- One direction: the runs add up exactly if every restart was seen and the sum is a number
of 64 bits. -/
theorem published_iff (runs : List (List ℕ)) (h : ∀ run∈runs, run.Pairwise (·≤·)) :
    published runs.flatten=lastSum runs ↔ restartsSeen 0 runs=true ∧ lastSum runs ≤ maxTotal := by
  obtain ⟨last,total,hfold,hle,hiff⟩ := foldl_runs runs h 0 0
  have hfold' : runs.flatten.foldl fold (0,0)=(last,min total maxTotal) := hfold
  rw [published,hfold',←hiff,saturatingAdd]
  omega

/-- A sample does not lower what is published. -/
theorem published_le (front back : List ℕ) : published front≤published (front++back) := by
  induction back using reverseRecOn with
  | nil => rw [append_nil]
  | append_singleton back c ih =>
    refine ih.trans ?_
    rw [←append_assoc,published,published,foldl_concat]
    generalize (front++back).foldl fold (0,0)=s
    unfold fold saturatingAdd
    dsimp only
    split <;> omega

/-- The published totals of a session are the sums of the last samples of its runs, and
never go back, exactly if every run that is sampled begins below the last sample before it
and the sums are numbers of 64 bits. -/
theorem totals_iff (runs : List (List Counters))
    (hruns : ∀ total∈totals, ∀ run∈runs, (run.map total).Pairwise (·≤·)) :
    (∀ total∈totals, total (sampled runs.flatten).counters=lastSum (runs.map (·.map total)) ∧
      ∀ front back, runs.flatten=front++back →
        total (sampled front).counters≤total (sampled runs.flatten).counters) ↔
    ∀ total∈totals, restartsSeen 0 (runs.map (·.map total))=true ∧
      lastSum (runs.map (·.map total)) ≤ maxTotal := by
  refine forall₂_congr fun total htotal => ?_
  have hkept : ∀ front back, runs.flatten=front++back →
      total (sampled front).counters≤total (sampled runs.flatten).counters := by
    intro front back heq
    rw [sampled_published _ htotal,sampled_published _ htotal,heq,List.map_append]
    exact published_le _ _
  have hsum := published_iff (runs.map (·.map total)) (by simpa using hruns total htotal)
  rw [←List.map_flatten,←sampled_published _ htotal] at hsum
  exact ⟨fun h => hsum.mp h.1,fun h => ⟨hsum.mpr h,hkept⟩⟩

/-- A sample of a total in both directions. -/
def sample (total : ℕ) : Counters := ⟨total,total,0,0,0⟩

/-- A run that begins below the last sample is seen. -/
theorem restart_seen : (sampled [sample 100,sample 500,sample 40]).counters.totalRx=540 :=
  ((totals_iff [[sample 100,sample 500],[sample 40]] (by simp [totals,sample])).mpr
    (by simp [totals,sample,restartsSeen,lastSum,maxTotal]) _ List.mem_cons_self).1

/-- A run whose first sample is above the last one of the run before is taken for the same. -/
theorem restart_missed : (sampled [sample 100,sample 150]).counters.totalRx≠
    lastSum [[100],[150]] := by decide

end MsnGuard.TrafficTotals
