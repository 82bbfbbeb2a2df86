import MsnGuard.KotlinText
import MsnGuard.PreferenceFiles

/-!
# Profiles in one settings file

Four profiles share the settings file: a logical key of a profile is stored with the profile's
number before it. The inverse of the key rewriting takes two characters away where the rewriting
adds three, and a clear through the wrapper clears the whole file.
-/

namespace MsnGuard.SettingsProfiles

open KotlinText PreferenceFiles List Option Function
open RustText hiding trim isWhitespace

/-- The keys of the settings file that are measurements. -/
def transientKeys : List Text :=
  ["last_ip","last_exit_region","shard_etag","shard_last_check","shard_last_count",
    "shard_last_paths","policy_etag","policy_last_check","smart_split_etag",
    "smart_split_last_check","psiphon_available_regions","psiphon_winning_strategy",
    "psiphon_winning_strategy_shape","psiphon_winning_strategy_chained",
    "psiphon_winning_strategy_chained_shape","chain_outer_index","plain_working_transport",
    "tor_winning_mode","tor_winning_mode_chained","auto_scan_done"].map String.toList

/-- The key of the active profile's number. -/
def activeProfile : Text := "active_profile".toList

/-- How many profiles there are. -/
def count : ℤ := 4

/-- The keys that belong to no profile. -/
def keysNotProfiled : List Text :=
  [activeProfile,"app_language".toList,"language_chosen".toList] ++
    ["rx_total","tx_total","month_start","traffic_stats","last_ip","last_exit_region","shard_etag",
      "shard_last_check","shard_last_count","shard_last_paths","policy_etag","policy_last_check",
      "smart_split_etag","smart_split_last_check","psiphon_available_regions",
      "psiphon_winning_strategy","psiphon_winning_strategy_shape",
      "psiphon_winning_strategy_chained","psiphon_winning_strategy_chained_shape",
      "chain_outer_index","plain_working_transport","tor_winning_mode","tor_winning_mode_chained",
      "auto_scan_done"].map String.toList ++
    (List.range 33).map (fun n => "section_open_".toList++decimal n)++transientKeys

/-- The beginnings of further keys that belong to no profile. -/
def prefixesNotProfiled : List Text := ["smart_split_profile_".toList]

/-- Does the key carry the state of a profile? -/
def isProfiled (key : Text) : Bool :=
  !keysNotProfiled.contains key && !prefixesNotProfiled.any fun head => head.isPrefixOf key

/-- The key under which a profile stores a logical key. -/
def profiledKey (profile : ℤ) (key : Text) : Text := 'p'::(decimal profile ++ '_'::key)

/-- The logical key behind a stored one: what stands behind the first two characters. -/
def stripProfile : Text → Option Text
  | first::second::third::rest =>
    if first ≠ 'p' ∨ isDigit second=false then none else some (third::rest)
  | _ => none

/-- The active profile; reading a value that is not a number fails. -/
def active (file : File Value) : Option ℤ :=
  match file.lookup activeProfile with
  | none => some 0
  | some (.int p) => some (if 0≤p.toInt ∧ p.toInt<count then p.toInt else 0)
  | some _ => none

/-- The stored key of a logical key while a profile is active. -/
def key (profile : ℤ) (k : Text) : Text := if isProfiled k then profiledKey profile k else k

/-- All that the wrapper lists: every stored key with a logical key behind it, under that key;
of several with the same one the last is kept. -/
def getAll (file : File Value) : File Value :=
  file.entries.foldl (fun all e =>
    match stripProfile e.1 with
    | none => all
    | some k => all.insert k e.2) ∅

/-- The value of the last stored key that has a logical key behind it. -/
def lastNamed (file : File Value) (k : Text) : Option Value :=
  (file.entries.reverse.find? fun e => stripProfile e.1 == some k).map Sigma.snd

section Keys

/-- Rewriting a key and taking the profile away again never gives the key back. -/
theorem stripProfile_profiledKey_ne (p : ℤ) (k : Text) : stripProfile (profiledKey p k)≠some k := by
  intro h
  have hdigits := length_pos_iff.mpr (decimal_ne_nil p)
  have hlen : (profiledKey p k).length=(decimal p).length+k.length+2 := by
    simp [profiledKey]
    omega
  unfold stripProfile at h
  split at h
  case h_1 heq =>
    split_ifs at h
    have hk := congrArg length (some.inj h)
    rw [heq] at hlen
    simp only [length_cons] at hlen hk
    omega
  case h_2 => cases h

/-- What is taken away is two characters. -/
theorem stripProfile_eq_some {q r : Text} (h : stripProfile q=some r) :
    ∃ second, q = 'p'::second::r ∧ isDigit second=true ∧ r≠[] := by
  unfold stripProfile at h
  split at h
  case h_1 first second third rest =>
    split_ifs at h with hcond
    push Not at hcond
    cases some.inj h
    refine ⟨second,by rw [hcond.1],?_,by simp⟩
    simpa using hcond.2
  case h_2 => cases h

/-- The number of a profile is one digit. -/
theorem decimal_profile {i : ℤ} (h : 0 ≤ i ∧ i<count) : ∃ c, decimal i=[c] ∧ isDigit c=true := by
  obtain ⟨hlow,hhigh⟩ := h
  unfold count at hhigh
  interval_cases i
  · exact ⟨'0',by decide,by decide⟩
  · exact ⟨'1',by decide,by decide⟩
  · exact ⟨'2',by decide,by decide⟩
  · exact ⟨'3',by decide,by decide⟩

/-- Behind the stored key of a profile stands the logical key with the underscore. -/
theorem stripProfile_profiledKey {i : ℤ} (h : 0 ≤ i ∧ i<count) (k : Text) :
    stripProfile (profiledKey i k)=some ('_'::k) := by
  obtain ⟨c,hc,hdigit⟩ := decimal_profile h
  simp [profiledKey,hc,stripProfile,hdigit]

theorem isProfiled_eq_false {k : Text} (h : isProfiled k=false) :
    k∈keysNotProfiled ∨ "smart_split_profile_".toList <+: k := by
  by_contra hnot
  push Not at hnot
  simp [isProfiled,prefixesNotProfiled,hnot.1] at h
  exact hnot.2 h

/-- A key that belongs to no profile is not a stored key of one. -/
theorem stripProfile_of_not_profiled {g : Text} (h : isProfiled g=false) : stripProfile g=none := by
  rcases isProfiled_eq_false h with hmem | ⟨rest,rfl⟩
  · clear h
    revert g
    decide +kernel
  · simp [stripProfile]

/-- No key that begins with an underscore is kept out of the profiles. -/
theorem isProfiled_underscore (k : Text) : isProfiled ('_'::k)=true := by
  have hheads : ∀ g∈keysNotProfiled, g.head?≠some '_' := by decide +kernel
  by_contra hnot
  rcases isProfiled_eq_false (Bool.not_eq_true _ ▸ hnot) with hmem | ⟨rest,hrest⟩
  · exact hheads _ hmem rfl
  · simp at hrest

/-- The profiles have different numbers. -/
theorem decimal_profile_injective {i j : ℤ} (hi : 0 ≤ i ∧ i<count) (hj : 0≤j ∧ j<count)
    (h : decimal i=decimal j) : i=j := by
  have hall : ∀ a b : Fin 4, decimal (a.val : ℤ)=decimal (b.val : ℤ) → a=b := by decide
  unfold count at hi hj
  have hnum := hall ⟨i.toNat,by omega⟩ ⟨j.toNat,by omega⟩
  simp only [Int.toNat_of_nonneg hi.1,Int.toNat_of_nonneg hj.1,Fin.mk.injEq] at hnum
  have heq := hnum h
  omega

/-- Different profiles and different logical keys have different stored keys. -/
theorem profiledKey_injective {i j : ℤ} (hi : 0 ≤ i ∧ i<count) (hj : 0≤j ∧ j<count)
    {k l : Text} (h : profiledKey i k=profiledKey j l) : i=j ∧ k=l := by
  obtain ⟨c,hc,-⟩ := decimal_profile hi
  obtain ⟨d,hd,-⟩ := decimal_profile hj
  simp only [profiledKey,hc,hd,cons_append,nil_append,cons.injEq,true_and] at h
  refine ⟨decimal_profile_injective hi hj ?_,h.2⟩
  rw [hc,hd,h.1]

/-- The active profile is one of the four. -/
theorem active_range {file : File Value} {i : ℤ} (h : active file=some i) : 0 ≤ i ∧ i<count := by
  unfold active at h
  split at h
  · cases some.inj h
    decide
  · cases some.inj h
    split
    · assumption
    · decide
  · cases h

end Keys

section Listing

/-- The listing shows under a logical key the value of the last stored key that has it behind. -/
theorem lookup_getAll (file : File Value) (k : Text) : (getAll file).lookup k=lastNamed file k := by
  unfold getAll lastNamed
  induction file.entries using reverseRecOn with
  | nil => rfl
  | append_singleton entries e ih =>
    rw [foldl_append,foldl_cons,foldl_nil,reverse_append,
      reverse_singleton,singleton_append,find?_cons]
    cases hstrip : stripProfile e.1 with
    | none => simpa using ih
    | some name =>
      rw [lookup_insert_eq]
      by_cases hk : k=name
      · subst hk
        simp
      · have hne : (some name == some k)=false := by simpa using fun he => hk he.symm
        rw [if_neg hk,ih,hne]

theorem lastNamed_eq_none_iff {file : File Value} {k : Text} :
    lastNamed file k=none ↔ ∀ q v, file.lookup q=some v → stripProfile q≠some k := by
  unfold lastNamed
  rw [map_eq_none_iff,find?_eq_none]
  constructor
  · intro h q v hq hstrip
    have hmem := mem_entries_iff.mpr hq
    exact h ⟨q,v⟩ (mem_reverse.mpr hmem) (by simpa using hstrip)
  · intro h e he hstrip
    have hmem : file.lookup e.1=some e.2 := mem_entries_iff.mp (mem_reverse.mp he)
    exact h e.1 e.2 hmem (by simpa using hstrip)

/-- No stored key has a key of a profile behind it. -/
def Unprofiled (file : File Value) : Prop :=
  ∀ q v r, file.lookup q=some v → stripProfile q=some r → isProfiled r=false

/-- The keys of a file have bounded lengths. -/
theorem exists_length_bound (file : File Value) :
    ∃ n, ∀ q v, file.lookup q=some v → q.length≤n := by
  refine ⟨(file.entries.map fun e => e.1.length).sum,?_⟩
  intro q v hq
  have hmem := mem_entries_iff.mpr hq
  exact le_sum_of_mem (mem_map_of_mem (f := fun e : Sigma fun _ => Value => e.1.length)
    hmem)

/-- A file whose listing is right for the keys of a profile has none: each stored key would need
a longer one. -/
theorem unprofiled_of_listing {file : File Value} {i : ℤ} (hi : 0 ≤ i ∧ i<count)
    (h : ∀ k, isProfiled k=true → lastNamed file k=file.lookup (profiledKey i k)) :
    Unprofiled file := by
  obtain ⟨n,hn⟩ := exists_length_bound file
  -- by induction on the room that is left for longer keys
  have hroom : ∀ room q v r, n-q.length=room → file.lookup q=some v →
      stripProfile q=some r → isProfiled r=false := by
    intro room
    induction room using Nat.strong_induction_on with
    | _ room ih =>
      intro q v r hq hlook hstrip
      by_contra hprof
      rw [Bool.not_eq_false] at hprof
      have hsome : lastNamed file r≠none := fun hnone =>
        lastNamed_eq_none_iff.mp hnone q v hlook hstrip
      rw [h r hprof] at hsome
      obtain ⟨v',hv'⟩ := ne_none_iff_exists'.mp hsome
      obtain ⟨second,rfl,-,-⟩ := stripProfile_eq_some hstrip
      obtain ⟨c,hc,-⟩ := decimal_profile hi
      have hlonger : (profiledKey i r).length=r.length+3 := by
        simp [profiledKey,hc]
      have hbound := hn _ _ hv'
      have hfalse := ih (n-(profiledKey i r).length)
        (by simp only [length_cons] at hq; omega) _ v' _ rfl hv'
        (stripProfile_profiledKey hi r)
      rw [isProfiled_underscore] at hfalse
      cases hfalse
  intro q v r hlook hstrip
  exact hroom _ q v r rfl hlook hstrip

/-- A file in which the first two profiles have set one key. -/
def sampleFile : File Value :=
  ((∅ : File Value).insert "p1_kill_switch".toList (.boolean false)).insert
    "p0_kill_switch".toList (.boolean true)

end Listing

section Editing

variable {profile : ℤ} {q : Text} {new : Editor Value}

/-- The operations on the editors that the wrapper hands out; an editor is known by a number. -/
inductive Op where
  | edit (e : ℕ)
  | put (e : ℕ) (k : Text) (v : Value)
  | remove (e : ℕ) (k : Text)
  | clear (e : ℕ)
  | commit (e : ℕ)

/-- The file and the editors that are open on it. -/
structure Desk where
  file : File Value
  editors : ℕ → Editor Value

/-- No editor has collected anything. -/
def Desk.opened (file : File Value) : Desk := ⟨file,fun _ => Editor.fresh⟩

/-- One operation while a profile is active: the keys are rewritten, a clear is passed on as it
is, and a commit, synchronous or not, writes what the editor has collected. -/
def Desk.step (d : Desk) (profile : ℤ) : Op → Desk
  | .edit e => {d with editors := Function.update d.editors e Editor.fresh}
  | .put e k v =>
    {d with editors := Function.update d.editors e ((d.editors e).put (key profile k) v)}
  | .remove e k =>
    {d with editors := Function.update d.editors e ((d.editors e).remove (key profile k))}
  | .clear e => {d with editors := Function.update d.editors e (d.editors e).clear}
  | .commit e =>
    ⟨PreferenceFiles.commit (d.editors e) d.file,Function.update d.editors e Editor.fresh⟩

/-- Operations one after the other, each while the given profile is active; nothing if another
one is active before one of them. -/
def Desk.whileActive (profile : ℤ) : Desk → List Op → Option Desk
  | d,[] => some d
  | d,op::ops =>
    if active d.file=some profile then (d.step profile op).whileActive profile ops else none

/-- The logical key that an operation writes. -/
def Op.written : Op → Option Text
  | .put _ k _ => some k
  | .remove _ k => some k
  | _ => none

/-- Does a sequence of operations commit a cleared editor? The editors that are cleared when it
begins are given. -/
def commitsClear : (ℕ → Bool) → List Op → Bool
  | _,[] => false
  | cleared,.edit e::ops => commitsClear (Function.update cleared e false) ops
  | cleared,.clear e::ops => commitsClear (Function.update cleared e true) ops
  | cleared,.commit e::ops => cleared e || commitsClear (Function.update cleared e false) ops
  | cleared,.put _ _ _::ops => commitsClear cleared ops
  | cleared,.remove _ _::ops => commitsClear cleared ops

/-- The stored keys that operations of a profile have to leave alone: those of the other
profiles, and those that belong to no profile and are not written by name. -/
def Foreign (profile : ℤ) (ops : List Op) (q : Text) : Prop :=
  (∃ j k, j≠profile ∧ (0≤j ∧ j<count) ∧ isProfiled k=true ∧ q=profiledKey j k) ∨
    (isProfiled q=false ∧ ∀ op∈ops, op.written≠some q)

variable {ops : List Op} {op : Op}

/-- No operation of the profile rewrites its key to one that it has to leave alone. -/
theorem Foreign.key_ne (hi : 0≤profile ∧ profile<count) (h : Foreign profile ops q)
    (hop : op∈ops) {k : Text} (hk : op.written=some k) : key profile k≠q := by
  intro heq
  unfold key at heq
  split at heq
  case isTrue hprof =>
    rcases h with ⟨j,l,hne,hj,-,rfl⟩ | ⟨hglobal,-⟩
    · exact hne (profiledKey_injective hi hj heq).1.symm
    · have hstrip := stripProfile_profiledKey hi k
      rw [heq,stripProfile_of_not_profiled hglobal] at hstrip
      cases hstrip
  case isFalse hprof =>
    subst heq
    rcases h with ⟨j,l,-,hj,-,rfl⟩ | ⟨-,hnot⟩
    · have hstrip := stripProfile_profiledKey hj l
      rw [stripProfile_of_not_profiled (by simpa using hprof)] at hstrip
      cases hstrip
    · exact hnot op hop hk

/-- A key is left alone by the rest of the operations too. -/
theorem Foreign.tail (h : Foreign profile (op::ops) q) : Foreign profile ops q := by
  rcases h with hother | ⟨hglobal,hnot⟩
  · exact .inl hother
  · exact .inr ⟨hglobal,fun o ho => hnot o (mem_cons_of_mem _ ho)⟩

/-- No editor has collected a change of a key. -/
def Desk.Spares (d : Desk) (q : Text) : Prop := ∀ e, (d.editors e).changes.lookup q=none

variable {d : Desk}

theorem spares_update (h : d.Spares q) {e : ℕ} (hnew : new.changes.lookup q=none)
    (file : File Value) : (⟨file,update d.editors e new⟩ : Desk).Spares q := by
  intro e'
  by_cases he : e'=e
  · subst he
    simpa using hnew
  · simpa [update_of_ne he] using h e'

/-- One operation collects no change of a key that its own is not rewritten to. -/
theorem Desk.Spares.step {d : Desk} {q : Text} (h : d.Spares q) {profile : ℤ} {op : Op}
    (hkey : ∀ k, op.written=some k → key profile k≠q) : (d.step profile op).Spares q := by
  cases op with
  | edit e => exact spares_update h rfl d.file
  | clear e =>
    refine spares_update h ?_ d.file
    exact h e
  | commit e => exact spares_update h rfl _
  | put e k v =>
    refine spares_update h ?_ d.file
    simp only [Editor.put,lookup_insert_eq]
    rw [if_neg (hkey k rfl).symm]
    exact h e
  | remove e k =>
    refine spares_update h ?_ d.file
    simp only [Editor.remove,lookup_insert_eq]
    rw [if_neg (hkey k rfl).symm]
    exact h e

/-- The editors with a clear to write. -/
def Desk.cleared (d : Desk) (e : ℕ) : Bool := (d.editors e).cleared

theorem cleared_update (file file' : File Value) (editors : ℕ → Editor Value) (e : ℕ)
    (new : Editor Value) :
    Desk.cleared ⟨file',update editors e new⟩=
      update (Desk.cleared ⟨file,editors⟩) e new.cleared :=
  funext fun e' => apply_update (fun _ => Editor.cleared) editors e new e'

/-- Changing what an editor has collected leaves the clears as they are. -/
theorem cleared_update_same (file : File Value) (editors : ℕ → Editor Value) (e : ℕ)
    (h : new.cleared=(editors e).cleared) :
    Desk.cleared ⟨file,update editors e new⟩=Desk.cleared ⟨file,editors⟩ := by
  rw [cleared_update file,h]
  exact update_eq_self e _

/-- What one operation does to a key that no editor changes: nothing, or it goes with a
committed clear. -/
theorem lookup_step (h : d.Spares q) (profile : ℤ) (op : Op) (ops : List Op) :
    (if commitsClear (d.step profile op).cleared ops then none
      else (d.step profile op).file.lookup q)=
        if commitsClear d.cleared (op::ops) then none else d.file.lookup q := by
  cases op with
  | edit e =>
    have hflags : (d.step profile (.edit e)).cleared=update d.cleared e false :=
      cleared_update d.file d.file d.editors e Editor.fresh
    rw [hflags]
    rfl
  | clear e =>
    have hflags : (d.step profile (.clear e)).cleared=update d.cleared e true :=
      cleared_update d.file d.file d.editors e (d.editors e).clear
    rw [hflags]
    rfl
  | put e k v =>
    have hflags : (d.step profile (.put e k v)).cleared=d.cleared :=
      cleared_update_same d.file d.editors e rfl
    rw [hflags]
    rfl
  | remove e k =>
    have hflags : (d.step profile (.remove e k)).cleared=d.cleared :=
      cleared_update_same d.file d.editors e rfl
    rw [hflags]
    rfl
  | commit e =>
    have hflags : (d.step profile (.commit e)).cleared=update d.cleared e false :=
      cleared_update d.file _ d.editors e Editor.fresh
    have hfile : (d.step profile (.commit e)).file.lookup q=
        if d.cleared e then none else d.file.lookup q := by
      change (PreferenceFiles.commit (d.editors e) d.file).lookup q=_
      rw [lookup_commit,h e]
      rfl
    have hcommits : commitsClear d.cleared (.commit e::ops)=
        (d.cleared e || commitsClear (update d.cleared e false) ops) := rfl
    rw [hflags,hfile,hcommits]
    cases d.cleared e with
    | true | false => simp

/-- A key that is to be left alone stands as before, unless a cleared editor was committed:
then it is gone. -/
theorem lookup_whileActive (hi : 0≤profile ∧ profile<count) (hforeign : Foreign profile ops q)
    {d' : Desk} (hspares : d.Spares q) (hrun : d.whileActive profile ops=some d') :
    d'.file.lookup q=if commitsClear d.cleared ops then none else d.file.lookup q := by
  induction ops generalizing d with
  | nil =>
    cases hrun
    rfl
  | cons op ops ih =>
    unfold Desk.whileActive at hrun
    split at hrun
    case isFalse => cases hrun
    have hstep : (d.step profile op).Spares q := hspares.step fun k hk =>
      hforeign.key_ne hi mem_cons_self hk
    rw [ih hforeign.tail hstep hrun,lookup_step hspares]

/-- Operations while a profile is active leave the stored keys of the other profiles, and those
that belong to no profile and are not written by name, as they were exactly if no cleared editor
is committed or the file has none of them. -/
theorem foreign_keys_kept_iff (file : File Value) (profile : ℤ) (ops : List Op) (d : Desk)
    (hrun : (Desk.opened file).whileActive profile ops=some d) :
    (∀ q, Foreign profile ops q → d.file.lookup q=file.lookup q) ↔
      commitsClear (fun _ => false) ops=false ∨
        ∀ q, Foreign profile ops q → file.lookup q=none := by
  cases ops with
  | nil =>
    cases hrun
    simp [commitsClear,Desk.opened]
  | cons op ops =>
    have hi : 0≤profile ∧ profile<count := by
      unfold Desk.whileActive at hrun
      split at hrun
      case isTrue hactive => exact active_range hactive
      case isFalse => cases hrun
    have hkeys : ∀ q, Foreign profile (op::ops) q → d.file.lookup q=
        if commitsClear (fun _ => false) (op::ops) then none else file.lookup q := by
      intro q hq
      exact lookup_whileActive hi hq (fun e => rfl) hrun
    cases hclear : commitsClear (fun _ => false) (op::ops) with
    | false =>
      simp only [hclear,Bool.false_eq_true,if_false] at hkeys
      simpa using hkeys
    | true =>
      simp only [hclear,if_true] at hkeys
      constructor
      · intro h
        right
        intro q hq
        rw [←h q hq,hkeys q hq]
      · rintro (hfalse | hnone) q hq
        · cases hfalse
        · rw [hkeys q hq,hnone q hq]

/-- While profile 0 is active the operations that the reset of one screen would be made of: the
other profile's key goes with the file. -/
theorem clear_through_wrapper :
    active sampleFile=some 0 ∧
      ((Desk.opened sampleFile).whileActive 0 [.edit 0,.clear 0,.commit 0]).map
          (fun d => (d.file.lookup (profiledKey 1 "kill_switch".toList),
            sampleFile.lookup (profiledKey 1 "kill_switch".toList)))=
        some (none,some (.boolean false)) ∧
      Foreign 0 [.edit 0,.clear 0,.commit 0] (profiledKey 1 "kill_switch".toList) := by
  refine ⟨by decide +kernel,by decide +kernel,.inl ⟨1,"kill_switch".toList,?_⟩⟩
  exact ⟨by decide,by decide,by decide +kernel,rfl⟩

/-- The equivalence at operations without a clear. -/
theorem put_through_wrapper :
    ∃ d, (Desk.opened sampleFile).whileActive 0
        [.edit 0,.put 0 "kill_switch".toList (.boolean false),.commit 0]=some d ∧
      ∀ q, Foreign 0 [.edit 0,.put 0 "kill_switch".toList (.boolean false),.commit 0] q →
        d.file.lookup q=sampleFile.lookup q := by
  refine ⟨_,rfl,?_⟩
  exact (foreign_keys_kept_iff sampleFile 0 _ _ rfl).mpr (.inl rfl)

end Editing

end MsnGuard.SettingsProfiles
