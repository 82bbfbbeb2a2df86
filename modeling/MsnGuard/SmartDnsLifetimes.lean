import MsnGuard.SmartDnsSteps

/-!
# How long a cached address is given out

An address is given out until its lifetime is over. Each answer, however, carries the whole
lifetime again and not what is left of it.
-/

namespace MsnGuard.SmartDnsLifetimes

open RustText SmartDnsMessages SmartDnsFront SmartDnsSteps TransitionRuns FiniteTables List Option

/-- A response that is learned for a name. -/
def learnedFor (name : Bytes) : Event → Option (ℕ × Bytes)
  | .learned n time response => if n=name then some (time,response) else none
  | _ => none

/-- The response that was learned last for a name, with the time. -/
def lastLearned (name : Bytes) (t : List Event) : Option (ℕ × Bytes) :=
  t.reverse.findSome? (learnedFor name)

/-- An address is learned at a time with a lifetime in seconds, and given out later: its
lifetime is not over, and the one in the answer is at most what is left, rounded up. -/
def Within (learned lifetime time ttl : ℕ) : Prop :=
  time<learned+1000*lifetime ∧ ttl≤(learned+1000*lifetime-time+999) / 1000

/-- An answer of the cache gives what was learned last for the name. It stays within the
lifetime exactly during the first second. -/
def Law (before : List Event) : Event → Prop
  | .hit time query reply => ∃ name learned response address ttl, queryName query=some name ∧
      lastLearned (lowercase name) before=some (learned,response) ∧
      parseFirstA response=some (address,ttl) ∧ reply=aAnswer query address ttl ∧
      learned≤time ∧ time<learned+1000*ttl.toNat ∧
      (Within learned ttl.toNat time (answerTtl query reply) ↔ time<learned+1000)
  | _ => True

theorem lastLearned_append (name : Bytes) (t new : List Event) :
    lastLearned name (t++new)=
      (new.reverse.findSome? (learnedFor name)).or (lastLearned name t) := by
  rw [lastLearned,reverse_append,findSome?_append]
  rfl

/-- A response that is learned and handed over. -/
theorem findSome?_learned (name' name query response : Bytes) (now : ℕ) :
    [Event.learned name now response,.relayed query response].reverse.findSome? (learnedFor name')=
      if name=name' then some (now,response) else none := by
  change ([Event.relayed query response,.learned name now response] : List Event).findSome?
    (learnedFor name')=_
  rw [findSome?_cons_of_isNone (by rfl),findSome?_singleton]
  rfl

/-- Events beside the cache do not change what was learned. -/
theorem lastLearned_aside (name : Bytes) (t : List Event) {new : List Event}
    (h : ∀ ev∈new, Aside ev) : lastLearned name (t++new)=lastLearned name t := by
  have hnone : new.reverse.findSome? (learnedFor name)=none := by
    rw [findSome?_eq_none_iff]
    intro ev hev
    have haside := h ev (mem_reverse.mp hev)
    cases ev with
    | learned n time response => exact haside.elim
    | replied | hit | asked | relayed | refused => rfl
  rw [lastLearned_append,hnone,none_or]

/-- What the cache holds was learned last. -/
structure Kept (t : List Event) (f : Front) : Prop where
  cached : ∀ name cached, f.nameCache name=some cached → ∃ learned response,
    lastLearned name t=some (learned,response) ∧
    parseFirstA response=some (cached.address,cached.ttlSeconds) ∧
    cached.expiresAt=learned+cached.ttlSeconds.toInt*1000 ∧ learned≤f.now
  law : Guarded Law t

/-- An address that is still used has a lifetime that is positive as a signed number. -/
theorem toInt_of_live {ttl : BitVec 32} {learned now : ℕ} (hlearned : learned≤now)
    (hlive : (now : ℤ)<learned+ttl.toInt*1000) : ttl.toInt=ttl.toNat := by
  have hcases := BitVec.toInt_eq_toNat_cond ttl
  split at hcases
  · exact hcases
  · have hlt := ttl.isLt
    omega

namespace Kept

variable {t new : List Event} {f f' : Front}

theorem hit (h : Kept t f) {query name : Bytes} {cached : CachedAnswer}
    (hlength : 12≤query.length) (hname : queryName query=some name)
    (hcached : f.nameCache (lowercase name)=some cached) (hlive : cached.isLive f.now=true) :
    Law t (.hit f.now query (aAnswer query cached.address cached.ttlSeconds)) := by
  obtain ⟨learned,response,hlast,hparse,hexpires,hlearned⟩ := h.cached _ _ hcached
  have htime : (f.now : ℤ)<learned+cached.ttlSeconds.toInt*1000 := by
    rw [←hexpires]
    exact of_decide_eq_true hlive
  have hpositive := toInt_of_live hlearned htime
  have hover : f.now<learned+1000*cached.ttlSeconds.toNat := by
    rw [hpositive] at htime
    omega
  refine ⟨name,learned,response,cached.address,cached.ttlSeconds,hname,hlast,hparse,rfl,hlearned,
    hover,?_⟩
  rw [answerTtl_aAnswer hlength,Within]
  omega

/-- Nothing new is learned, and no answer of the cache breaks the rule. -/
theorem older (h : Kept t f) (holder : Older f f')
    (hlast : ∀ name, lastLearned name (t++new)=lastLearned name t)
    (hlaw : Guarded Law (t++new)) : Kept (t++new) f' := by
  refine ⟨fun name cached hcached => ?_,hlaw⟩
  obtain ⟨learned,response,hlearned,hparse,hexpires,hbefore⟩ :=
    h.cached name cached (holder.nameCache name cached hcached)
  refine ⟨learned,response,?_,hparse,hexpires,hbefore.trans holder.now⟩
  rw [hlast name,hlearned]

theorem quiet (h : Kept t f) (holder : Older f f') (hevents : ∀ ev∈new, Aside ev) :
    Kept (t++new) f' := by
  refine h.older holder (fun name => lastLearned_aside name t hevents) ?_
  refine h.law.append fun ev hev front => ?_
  have haside := hevents ev hev
  cases ev with
  | hit | learned | relayed => exact haside.elim
  | replied | asked | refused => trivial

theorem delivered (h : Kept t f) {task : Task} {response : Bytes}
    (hdelivered : Delivered f task response f' new) : Kept (t++new) f' := by
  cases hdelivered with
  | relayed holder =>
    refine h.older holder (fun name => ?_) (h.law.concat trivial)
    rw [lastLearned_append]
    exact none_or
  | learned hparse hcache hnow =>
    refine ⟨fun name cached hcached => ?_,h.law.append (by simp [Law])⟩
    rw [hcache] at hcached
    rcases update_eq_some hcached with ⟨rfl,hnew⟩ | ⟨hne,hold⟩
    · cases hnew
      refine ⟨f.now,response,?_,hparse,rfl,hnow.ge⟩
      rw [lastLearned_append,findSome?_learned,if_pos rfl,some_or]
    · obtain ⟨learned,response',hlast,hparse',hexpires,hlearned⟩ := h.cached name cached hold
      refine ⟨learned,response',?_,hparse',hexpires,hnow.symm ▸ hlearned⟩
      rw [lastLearned_append,findSome?_learned,if_neg hne.symm,none_or,hlast]

theorem moves (h : Kept t f) {encrypted : Bool} {a : Action}
    (hmoves : Moves encrypted f a f' new) : Kept (t++new) f' := by
  cases hmoves with
  | quiet _ holder hevents | asked _ _ _ _ _ holder hevents => exact h.quiet holder hevents
  | hit _ holder hlength hname hcached hlive =>
    refine h.older holder (fun name => ?_) (h.law.concat (h.hit hlength hname hcached hlive))
    rw [lastLearned_append]
    exact none_or
  | enqueued _ holder _ _ | arrived _ holder =>
    exact h.quiet ⟨holder.nameCache,holder.now⟩ (by simp)
  | received _ _ _ _ _ _ hdelivered | resolved _ _ hdelivered => exact h.delivered hdelivered
  | closed _ _ _ _ holder => exact h.quiet holder (by simp)

end Kept

/-- Every answer of the cache gives the address that was learned last for the name before
its lifetime is over, and with a lifetime within what is left exactly during the first
second after it was learned. -/
theorem lifetimes_of_run {encrypted : Bool} {t : List Event} {f : Front}
    (h : (machine encrypted).Run always t f) : Guarded Law t := by
  have hkept : Kept t f := by
    refine h.invariant Kept ?_ ?_
    · rintro f rfl
      exact ⟨nofun,guarded_nil Law⟩
    · intro t f a f' new hkept _ _ hexec
      exact hkept.moves (exec_moves hexec)
  exact hkept.law

/-- The name is asked for, and once more some time after the response has come. -/
def askTwice (milliseconds : ℕ) : List Action :=
  [.query true (sampleQuery 7 97),.ask 0 true true,.arrive (sampleQuery 1 97)
      (encapsulate currentResolver dnsPort (sampleResponse 1 97 9)),
    .receive 0,.advance milliseconds,.query true (sampleQuery 7 97)]

/-- What is seen of it: the response is learned at the start and given out later. -/
def askTwiceSeen (milliseconds : ℕ) (t : List Event) : Bool :=
  decide (.learned [97] 0 (sampleResponse 7 97 9)∈t) &&
    decide (.hit milliseconds (sampleQuery 7 97) (aAnswer (sampleQuery 7 97) [10,0,0,9] 300)∈t)

theorem hit_within_second : ∃ t f, (machine false).Run always t f ∧ askTwiceSeen 999 t=true ∧
    Guarded Law t :=
  Machine.exists_run_with (fun _ _ => true) (fun _ _ _ _ => ⟨trivial,trivial⟩) rfl (askTwice 999)
    (by decide +kernel) fun _ _ => lifetimes_of_run

/-- Five seconds after a response with a lifetime of 300 seconds has come, the name is given
out for 300 seconds again, although 295 are left. -/
theorem whole_lifetime_again : ∃ t f, (machine false).Run always t f ∧ askTwiceSeen 5000 t=true ∧
    parseFirstA (sampleResponse 7 97 9)=some ([10,0,0,9],300) ∧
    ¬Within 0 300 5000
      (answerTtl (sampleQuery 7 97) (aAnswer (sampleQuery 7 97) [10,0,0,9] 300)) := by
  obtain ⟨t,f,hrun,hseen⟩ : ∃ t f, (machine false).Run always t f ∧ askTwiceSeen 5000 t=true :=
    Machine.exists_run (fun _ _ => true) (fun _ _ _ _ => ⟨trivial,trivial⟩) rfl (askTwice 5000)
      (by decide +kernel)
  refine ⟨t,f,hrun,hseen,by decide +kernel,?_⟩
  rw [answerTtl_aAnswer (by decide)]
  rintro ⟨-,hleft⟩
  exact absurd hleft (by decide)

end MsnGuard.SmartDnsLifetimes
