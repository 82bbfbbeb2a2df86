import MsnGuard.SettingsProfiles
import MsnGuard.TransitionRuns

/-!
# Readers of the settings beside the profiles

Most of the app uses the settings through the active profile. The switch of the split feature
and the quick settings tile use the logical keys as they are. Every start of the app and every
change of the profile moves such bare keys into the active profile, where those readers do not
look.
-/

namespace MsnGuard.SettingsReaders

open KotlinText PreferenceFiles SettingsProfiles TransitionRuns Option
open RustText hiding trim isWhitespace

/-- The key of the switch of the split feature. -/
def enabledPref : Text := "smart_split_enabled".toList

/-- The key that arms the chain. -/
def chainArmed : Text := "chain_armed".toList

/-- The key of the chosen transport. -/
def defaultProtocol : Text := "default_protocol".toList

/-- The name of Psiphon among the transports. -/
def psiphon : Text := "psiphon".toList

/-- The transport of a fresh install. -/
def wireguard : Text := "wireguard".toList

/-- What the configuration names as its transport when the chain is to be raised. -/
def chainProtocolMarker : Text := asciiLower "PSIPHON-OVER-WARP".toList

/-- A switch among stored values; a value of another type makes the reading fail. -/
def getBoolean (stored : Option Value) (fallback : Bool) : Option Bool :=
  match stored with
  | none => some fallback
  | some (.boolean b) => some b
  | some _ => none

/-- A text among stored values; a value of another type makes the reading fail. -/
def getString (stored : Option Value) (fallback : Text) : Option Text :=
  match stored with
  | none => some fallback
  | some (.string s) => some s
  | some _ => none

/-- `SmartSplit.enabled`: the switch under its own name. -/
def enabled (file : File Value) : Option Bool := getBoolean (file.lookup enabledPref) false

/-- `SmartSplit.setEnabled`: the switch is written under its own name. -/
def setEnabled (file : File Value) (value : Bool) : File Value :=
  commit (Editor.fresh.put enabledPref (.boolean value)) file

/-- The transport that a configuration names when none is given: the chosen one. -/
def chosenProtocol (get : Text → Option Value) : Option Text :=
  (getString (get defaultProtocol) wireguard).map trim

/-- The transport in the tile's configuration: the chain and the transport are looked up under
their own names, and the configuration without the chain reads the active profile. -/
def tileProtocol (file : File Value) : Option Text := do
  let armed ← getBoolean (file.lookup chainArmed) false
  let picked ← getString (file.lookup defaultProtocol) wireguard
  if armed && picked == psiphon then some chainProtocolMarker
  else (active file).bind fun i => chosenProtocol fun k => file.lookup (key i k)

/-- The entries under bare keys that belong to a profile. -/
def bareToMove (file : File Value) : List (Sigma fun _ : Text => Value) :=
  file.entries.filter fun e => isProfiled e.1 && (stripProfile e.1).isNone

/-- Collect the move of entries behind a beginning of their keys. -/
def moveBehind (head : Text) (editor : Editor Value)
    (entries : List (Sigma fun _ : Text => Value)) : Editor Value :=
  entries.foldl (fun ed e => (ed.remove e.1).put (head++e.1) e.2) editor

/-- Collect the move of entries of stored keys that belong to no profile any more to the key
behind, where none is stored; the number counts the moves. -/
def moveGlobal (file : File Value) (editor : Editor Value) (changed : ℕ) : Editor Value × ℕ :=
  (file.entries.filter fun e => !isProfiled e.1 && (stripProfile e.1).isSome).foldl
    (fun acc e =>
      match stripProfile e.1 with
      | none => acc
      | some bare =>
        if file.keys.contains bare then acc
        else ((acc.1.remove e.1).put bare e.2,acc.2+1)) (editor,changed)

/-- `Profiles.migrateIfNeeded`: the file after it and the number of changes. -/
def migrateIfNeeded (file : File Value) : Option (File Value × ℕ) :=
  (active file).map fun i =>
    let moved := bareToMove file
    let (editor,changed) :=
      moveGlobal file (moveBehind (profiledKey i []) Editor.fresh moved) moved.length
    (if 0<changed then commit editor file else file,changed)

/-- `Profiles.switch`: the file after it and the number of keys that moved. -/
def switch (file : File Value) (index : ℤ) : Option (File Value × ℕ) :=
  if ¬(0 ≤ index ∧ index<count) then some (file,0)
  else (active file).map fun outgoing =>
    if outgoing=index then (file,0)
    else
      let moved := bareToMove file
      if moved.isEmpty then
        (commit (Editor.fresh.put activeProfile (.int (Int32.ofInt index))) file,0)
      else
        (commit ((moveBehind (profiledKey outgoing []) Editor.fresh moved).put activeProfile
          (.int (Int32.ofInt index))) file,moved.length)

/-- A bare key that belongs to a profile. -/
def Bare (k : Text) : Prop := isProfiled k=true ∧ stripProfile k=none

section Moves

variable {k head : Text} {i : ℤ} {file file' : File Value} {n : ℕ}

theorem profiledKey_nil_append (i : ℤ) (k : Text) : profiledKey i []++k=profiledKey i k := by
  simp [profiledKey]

/-- A stored key of a profile is not bare. -/
theorem Bare.ne_profiledKey {l : Text} (hi : 0 ≤ i ∧ i<count) (h : Bare k) : k≠profiledKey i l := by
  rintro rfl
  have hstrip := h.2
  rw [stripProfile_profiledKey hi] at hstrip
  cases hstrip

theorem mem_bareToMove {v : Value} :
    (⟨k,v⟩ : Sigma fun _ : Text => Value)∈bareToMove file ↔ file.lookup k=some v ∧ Bare k := by
  unfold bareToMove Bare
  rw [List.mem_filter,mem_entries_iff]
  simp

/-- What a move has not to do with it leaves alone. -/
theorem lookup_moveBehind_other {q : Text} {entries : List (Sigma fun _ : Text => Value)}
    (h : ∀ e∈entries, e.1≠q ∧ head++e.1≠q) (editor : Editor Value) :
    (moveBehind head editor entries).changes.lookup q=editor.changes.lookup q := by
  induction entries generalizing editor with
  | nil => rfl
  | cons e entries ih =>
    have hhead := h e List.mem_cons_self
    have hrest := ih (fun e' he' => h e' (List.mem_cons_of_mem _ he'))
      ((editor.remove e.1).put (head++e.1) e.2)
    change (moveBehind head ((editor.remove e.1).put (head++e.1) e.2) entries).changes.lookup
      q=_
    rw [hrest,lookup_put,if_neg hhead.2.symm,lookup_remove,if_neg hhead.1.symm]

/-- A move asks for no clear. -/
theorem cleared_moveBehind (head : Text) (editor : Editor Value)
    (entries : List (Sigma fun _ : Text => Value)) :
    (moveBehind head editor entries).cleared=editor.cleared := by
  induction entries generalizing editor with
  | nil => rfl
  | cons e entries ih => exact ih ((editor.remove e.1).put (head++e.1) e.2)

/-- An entry that is moved goes from its key to the one behind the beginning. -/
theorem lookup_moveBehind_mem {entries : List (Sigma fun _ : Text => Value)}
    (hnodup : entries.NodupKeys) (hapart : ∀ e∈entries, ∀ e'∈entries, head++e'.1≠e.1)
    {e : Sigma fun _ : Text => Value} (he : e∈entries) (editor : Editor Value) :
    (moveBehind head editor entries).changes.lookup e.1=some none ∧
      (moveBehind head editor entries).changes.lookup (head++e.1)=some (some e.2) := by
  obtain ⟨front,back,rfl⟩ := List.append_of_mem he
  have hback : ∀ e'∈back, e'.1≠e.1 := by
    intro e' he' heq
    have hfirst := List.notMem_keys_of_nodupKeys_cons (List.nodupKeys_middle.mp hnodup)
    have hmem : e'.1∈(front++back).keys := List.mem_map_of_mem (by simp [he'])
    exact hfirst (heq ▸ hmem)
  have hsplit : moveBehind head editor (front++e::back)=
      moveBehind head (((moveBehind head editor front).remove e.1).put (head++e.1) e.2)
        back := by
    simp [moveBehind]
  have hself : head++e.1≠e.1 := hapart e he e he
  rw [hsplit]
  constructor
  · rw [lookup_moveBehind_other,lookup_put,if_neg hself.symm,lookup_remove,if_pos rfl]
    intro e' he'
    exact ⟨hback e' he',hapart e he e' (by simp [he'])⟩
  · rw [lookup_moveBehind_other,lookup_put,if_pos rfl]
    intro e' he'
    refine ⟨fun heq => hapart e' (by simp [he']) e he heq.symm,?_⟩
    simpa using hback e' he'

/-- The file after the bare keys have been moved into a profile. -/
def afterMove (i : ℤ) (file : File Value) : File Value :=
  commit (moveBehind (profiledKey i []) Editor.fresh (bareToMove file)) file

/-- With at most one bare key the move is the move of that one. -/
theorem lookup_afterMove (hi : 0 ≤ i ∧ i<count) (hbare : Bare k)
    (honly : ∀ l, Bare l → file.lookup l≠none → l=k) (q : Text) :
    (afterMove i file).lookup q=if q=k then none
      else if q=profiledKey i k then (file.lookup k).or (file.lookup q)
      else file.lookup q := by
  have hnodup : (bareToMove file).NodupKeys :=
    List.NodupKeys.sublist List.filter_sublist file.nodupKeys
  have hmoves : ∀ e∈bareToMove file, Bare e.1 ∧ file.lookup e.1=some e.2 ∧ e.1=k := by
    intro e he
    obtain ⟨hlook,hb⟩ := mem_bareToMove.mp he
    exact ⟨hb,hlook,honly e.1 hb (by simp [hlook])⟩
  have hapart : ∀ e∈bareToMove file, ∀ e'∈bareToMove file, profiledKey i []++e'.1≠e.1 := by
    intro e he e' _
    rw [profiledKey_nil_append]
    exact ((hmoves e he).1.ne_profiledKey hi).symm
  unfold afterMove
  rw [lookup_commit]
  cases hk : file.lookup k with
  | none =>
    -- nothing is bare, so that nothing is collected
    have hnil : bareToMove file=[] := by
      rw [List.eq_nil_iff_forall_not_mem]
      intro e he
      obtain ⟨-,hlook,heq⟩ := hmoves e he
      rw [heq,hk] at hlook
      cases hlook
    rw [hnil]
    by_cases hq : q=k
    · rw [if_pos hq,hq]
      exact hk
    · rw [if_neg hq,none_or,ite_self]
      rfl
  | some v =>
    have hmem : (⟨k,v⟩ : Sigma fun _ : Text => Value)∈bareToMove file :=
      mem_bareToMove.mpr ⟨hk,hbare⟩
    obtain ⟨hgone,hthere⟩ := lookup_moveBehind_mem hnodup hapart hmem Editor.fresh
    rw [profiledKey_nil_append] at hthere
    by_cases hq : q=k
    · rw [if_pos hq,hq,hgone]
      rfl
    · rw [if_neg hq]
      by_cases hq' : q=profiledKey i k
      · rw [if_pos hq',hq',hthere]
        rfl
      · rw [if_neg hq',cleared_moveBehind,lookup_moveBehind_other]
        · rfl
        · intro e he
          rw [profiledKey_nil_append,(hmoves e he).2.2]
          exact ⟨fun h => hq h.symm,fun h => hq' h.symm⟩

/-- No stored key that belongs to no profile has a logical key behind it: the second pass of the
move finds nothing. -/
theorem moveGlobal_eq (file : File Value) (editor : Editor Value) (changed : ℕ) :
    moveGlobal file editor changed=(editor,changed) := by
  have hnil : (file.entries.filter fun e => !isProfiled e.1 && (stripProfile e.1).isSome)=[] := by
    rw [List.filter_eq_nil_iff]
    intro e _ hcond
    simp only [Bool.and_eq_true,Bool.not_eq_true'] at hcond
    rw [stripProfile_of_not_profiled hcond.1] at hcond
    simp at hcond
  unfold moveGlobal
  rw [hnil]
  rfl

/-- The start of the app moves the bare keys into the active profile. -/
theorem lookup_migrateIfNeeded (hactive : active file=some i)
    (h : migrateIfNeeded file=some (file',n)) (q : Text) :
    file'.lookup q=(afterMove i file).lookup q := by
  unfold migrateIfNeeded at h
  rw [hactive] at h
  simp only [moveGlobal_eq] at h
  obtain ⟨rfl,-⟩ := h
  by_cases hnil : bareToMove file=[]
  · simp only [hnil,afterMove]
    rfl
  · rw [if_pos (List.length_pos_iff.mpr hnil)]
    rfl

/-- A change of the profile moves the bare keys into the one that is left. -/
theorem lookup_switch {index : ℤ} (hindex : 0 ≤ index ∧ index<count)
    (hactive : active file=some i) (hne : i≠index) (h : switch file index=some (file',n))
    (q : Text) :
    file'.lookup q=if q=activeProfile then some (.int (Int32.ofInt index))
      else (afterMove i file).lookup q := by
  unfold switch at h
  rw [if_neg (by simpa using hindex),hactive] at h
  simp only [map_some,if_neg hne] at h
  split at h
  case isTrue hnil =>
    have hnil' : bareToMove file=[] := by simpa using hnil
    cases h
    rw [lookup_commit_put]
    simp only [afterMove,hnil']
    rfl
  case isFalse hnil =>
    cases h
    rw [lookup_commit,lookup_put]
    unfold afterMove
    split
    · rfl
    · rw [lookup_commit]
      rfl

end Moves

section Runs

variable {i j : ℤ} {file file' : File Value} {k l : Text}

/-- The file, and beside it what every profile was last set to under each logical key. -/
structure State where
  file : File Value
  last : ℤ → Text → Option Value

/-- A write under a logical key through the active profile, the switch of the split feature,
a start of the app and a change of the profile. -/
inductive Action where
  | put (k : Text) (v : Value)
  | remove (k : Text)
  | setEnabled (value : Bool)
  | migrate
  | switch (index : ℤ)

/-- The last value of a key in a profile. -/
def record (last : ℤ → Text → Option Value) (i : ℤ) (k : Text) (v : Option Value) :
    ℤ → Text → Option Value :=
  fun j l => if j=i ∧ l=k then v else last j l

/-- The state after an action; nothing if the number of the profile cannot be read. -/
def exec (s : State) : Action → Option (State × List Unit)
  | .put k v => (active s.file).map fun i =>
    (⟨commit (Editor.fresh.put (key i k) v) s.file,record s.last i k (some v)⟩,[])
  | .remove k => (active s.file).map fun i =>
    (⟨commit (Editor.fresh.remove (key i k)) s.file,record s.last i k none⟩,[])
  | .setEnabled value => (active s.file).map fun i =>
    (⟨setEnabled s.file value,record s.last i enabledPref (some (.boolean value))⟩,[])
  | .migrate => (migrateIfNeeded s.file).map fun r => (⟨r.1,s.last⟩,[])
  | .switch index => (SettingsReaders.switch s.file index).map fun r => (⟨r.1,s.last⟩,[])

/-- The number of the active profile is written by a change of the profile alone. -/
def isSetting : Action → Bool
  | .put k _ => decide (k≠activeProfile)
  | .remove k => decide (k≠activeProfile)
  | _ => true

/-- The app from its first start on, with an empty file. -/
def machine : Machine State Action Unit where
  start s := s=⟨∅,fun _ _ => none⟩
  allowed _ a := isSetting a=true
  exec := exec

/-- Is a switch on? -/
def isOn (v : Option Value) : Bool := v == some (.boolean true)

/-- Is the chain armed and Psiphon the transport? -/
def chained (get : Text → Option Value) : Bool :=
  isOn (get chainArmed) && get defaultProtocol == some (.string psiphon)

/-- The transport that the tile is to name: the chain's if the active profile has it armed for
Psiphon, the active profile's transport otherwise. -/
def expectedProtocol (get : Text → Option Value) : Option Text :=
  if chained get then some chainProtocolMarker else chosenProtocol get

/-- The readers beside the profiles see what the active profile was last set to. -/
def Seen (s : State) : Prop :=
  ∃ i, active s.file=some i ∧ enabled s.file=some (isOn (s.last i enabledPref)) ∧
    tileProtocol s.file=expectedProtocol (s.last i)

/-- What a step must not do: write the switch through the profile against its bare value, arm the
chain for Psiphon in the active profile, move a switch that is on, or activate a profile with a
switch that is on or with the chain armed for Psiphon. -/
def undisturbing (s : State) : Action → Bool
  | .put k v => (active s.file).all fun i =>
    if k=enabledPref then isOn (some v) == isOn (s.file.lookup enabledPref)
    else !chained fun l => if l=k then some v else s.file.lookup (profiledKey i l)
  | .remove k => (active s.file).all fun i =>
    if k=enabledPref then !isOn (s.file.lookup enabledPref)
    else !chained fun l => if l=k then none else s.file.lookup (profiledKey i l)
  | .setEnabled _ => true
  | .migrate => !isOn (s.file.lookup enabledPref)
  | .switch index =>
    decide (¬(0 ≤ index ∧ index<count)) || decide (active s.file=some index) ||
      (!isOn (s.file.lookup (profiledKey index enabledPref)) &&
        !chained fun l => s.file.lookup (profiledKey index l))

/-- What the runs keep: the only bare key is the switch, every profile has stored what it was
last set to, the switch only as far as it is on, and the active profile has the chain not armed
for Psiphon. -/
structure Synced (s : State) (i : ℤ) : Prop where
  profile : active s.file=some i
  bare : ∀ k, Bare k → s.file.lookup k≠none → k=enabledPref
  typed : ∀ v, s.file.lookup enabledPref=some v → ∃ b, v=.boolean b
  stored : ∀ j, 0≤j ∧ j<count → ∀ k, isProfiled k=true → k≠enabledPref →
    s.file.lookup (profiledKey j k)=s.last j k
  others : ∀ j, 0≤j ∧ j<count → (j≠i ∨ s.file.lookup enabledPref=none) →
    isOn (s.file.lookup (profiledKey j enabledPref))=isOn (s.last j enabledPref)
  current : isOn (s.file.lookup enabledPref)=isOn (s.last i enabledPref)
  unchained : chained (s.last i)=false

theorem bare_enabledPref : Bare enabledPref := by
  unfold Bare
  decide +kernel

theorem bare_chainArmed : Bare chainArmed := by
  unfold Bare
  decide +kernel

theorem bare_defaultProtocol : Bare defaultProtocol := by
  unfold Bare
  decide +kernel

variable {s : State}

theorem Synced.range (h : Synced s i) : 0 ≤ i ∧ i<count :=
  active_range h.profile

/-- In a state that the runs keep the readers see what was last set. -/
theorem Synced.seen (h : Synced s i) : Seen s := by
  have habsent : ∀ k, Bare k → k≠enabledPref → s.file.lookup k=none := by
    intro k hk hne
    by_contra hsome
    exact hne (h.bare k hk hsome)
  have hchain := habsent chainArmed bare_chainArmed (by decide)
  have hproto := habsent defaultProtocol bare_defaultProtocol (by decide)
  refine ⟨i,h.profile,?_,?_⟩
  · rw [←h.current]
    unfold enabled
    cases hv : s.file.lookup enabledPref with
    | none => rfl
    | some v =>
      obtain ⟨b,rfl⟩ := h.typed v hv
      cases b with
      | true | false => rfl
  · have hkey : key i defaultProtocol=profiledKey i defaultProtocol := by
      rw [key,if_pos bare_defaultProtocol.1]
    have hstored := h.stored i h.range defaultProtocol bare_defaultProtocol.1 (by decide)
    have hplain : chosenProtocol (fun k => s.file.lookup (key i k))=chosenProtocol (s.last i) := by
      unfold chosenProtocol
      dsimp only
      rw [hkey,hstored]
    unfold tileProtocol expectedProtocol
    rw [hchain,hproto,h.unchained,h.profile]
    exact hplain

/-- The active profile is read off one key. -/
theorem active_congr (h : file'.lookup activeProfile=file.lookup activeProfile) :
    active file'=active file := by
  unfold active
  rw [h]

theorem not_profiled_activeProfile : isProfiled activeProfile=false := by decide +kernel

/-- The stored key of a profile is not a key that belongs to none. -/
theorem profiledKey_ne_of_not_profiled (hj : 0≤j ∧ j<count) (l : Text) {g : Text}
    (hg : isProfiled g=false) : profiledKey j l≠g := by
  rintro rfl
  have hstrip := stripProfile_profiledKey hj l
  rw [stripProfile_of_not_profiled hg] at hstrip
  cases hstrip

theorem profiledKey_inj (hj : 0≤j ∧ j<count) (hi : 0 ≤ i ∧ i<count) :
    profiledKey j l=profiledKey i k ↔ j=i ∧ l=k := by
  refine ⟨profiledKey_injective hj hi,?_⟩
  rintro ⟨rfl,rfl⟩
  rfl

/-- A logical key is rewritten to a stored key of a profile only if it is the profile's. -/
theorem profiledKey_eq_key_iff (hi : 0 ≤ i ∧ i<count) (hj : 0≤j ∧ j<count)
    (hl : isProfiled l=true) : profiledKey j l=key i k ↔ j=i ∧ l=k := by
  unfold key
  split
  case isTrue hk =>
    exact profiledKey_inj hj hi
  case isFalse hk =>
    have hglobal : isProfiled k=false := by simpa using hk
    constructor
    · intro heq
      exact absurd heq (profiledKey_ne_of_not_profiled hj l hglobal)
    · rintro ⟨-,rfl⟩
      exact absurd hl hk

/-- No logical key is rewritten to a bare one. -/
theorem Bare.ne_key (h : Bare l) (hi : 0 ≤ i ∧ i<count) (k : Text) : l≠key i k := by
  unfold key
  split
  case isTrue => exact h.ne_profiledKey hi
  case isFalse hk =>
    rintro rfl
    exact hk h.1

/-- No logical key other than its own is rewritten to the key of the active profile. -/
theorem activeProfile_ne_key (hi : 0 ≤ i ∧ i<count) (hk : k≠activeProfile) :
    activeProfile≠key i k := by
  unfold key
  split
  case isTrue => exact (profiledKey_ne_of_not_profiled hi k not_profiled_activeProfile).symm
  case isFalse => exact hk.symm

/-- The chain is read off two keys. -/
theorem chained_congr {get get' : Text → Option Value} (harmed : get chainArmed=get' chainArmed)
    (hproto : get defaultProtocol=get' defaultProtocol) : chained get=chained get' := by
  unfold chained
  rw [harmed,hproto]

/-- The switch has nothing to do with the chain. -/
theorem chained_record_switch (last : ℤ → Text → Option Value) (i j : ℤ) (new : Option Value) :
    chained (record last i enabledPref new j)=chained (last j) := by
  have harmed : chainArmed≠enabledPref := by decide
  have hproto : defaultProtocol≠enabledPref := by decide
  exact chained_congr (if_neg fun hc => harmed hc.2) (if_neg fun hc => hproto hc.2)

/-- A write through the active profile, whether it stores a value or removes one. -/
theorem Synced.write (h : Synced s i) (hk : k≠activeProfile) {new : Option Value}
    (hlook : ∀ q, file'.lookup q=if q=key i k then new else s.file.lookup q)
    (hswitch : k=enabledPref → isOn new=isOn (s.file.lookup enabledPref))
    (hchain : k≠enabledPref →
      chained (fun l => if l=k then new else s.file.lookup (profiledKey i l))=false) :
    Synced ⟨file',record s.last i k new⟩ i := by
  have hi := h.range
  have hbare : ∀ l, Bare l → file'.lookup l=s.file.lookup l := by
    intro l hl
    rw [hlook,if_neg (hl.ne_key hi k)]
  have hprofiled : ∀ j, 0≤j ∧ j<count → ∀ l, isProfiled l=true → file'.lookup (profiledKey j l)=
        if j=i ∧ l=k then new else s.file.lookup (profiledKey j l) := by
    intro j hj l hl
    rw [hlook]
    simp only [profiledKey_eq_key_iff hi hj hl]
  refine ⟨?_,?_,?_,?_,?_,?_,?_⟩
  · rw [←h.profile]
    apply active_congr
    rw [hlook,if_neg (activeProfile_ne_key hi hk)]
  · intro l hl hsome
    rw [hbare l hl] at hsome
    exact h.bare l hl hsome
  · intro v hv
    rw [hbare _ bare_enabledPref] at hv
    exact h.typed v hv
  · intro j hj l hl hne
    rw [hprofiled j hj l hl]
    simp only [record]
    rw [h.stored j hj l hl hne]
  · intro j hj hcond
    rw [hbare _ bare_enabledPref] at hcond
    rw [hprofiled j hj _ bare_enabledPref.1]
    simp only [record]
    split
    · rfl
    · exact h.others j hj hcond
  · rw [hbare _ bare_enabledPref]
    simp only [record]
    split
    case isTrue heq => rw [hswitch heq.2.symm]
    case isFalse => exact h.current
  · by_cases hE : k=enabledPref
    · subst hE
      rw [chained_record_switch,h.unchained]
    · rw [←hchain hE]
      have hleft := h.stored i hi chainArmed bare_chainArmed.1 (by decide)
      have hright := h.stored i hi defaultProtocol bare_defaultProtocol.1 (by decide)
      apply chained_congr
      · simp only [record,true_and,hleft]
      · simp only [record,true_and,hright]

/-- The switch is set under its own name. -/
theorem Synced.setEnabled (h : Synced s i) (value : Bool) :
    Synced ⟨SettingsReaders.setEnabled s.file value,
      record s.last i enabledPref (some (.boolean value))⟩ i := by
  have hlook : ∀ q, (SettingsReaders.setEnabled s.file value).lookup q=
      if q=enabledPref then some (.boolean value) else s.file.lookup q :=
    fun q => lookup_commit_put s.file enabledPref q (.boolean value)
  have hprofiled : ∀ j, 0≤j ∧ j<count → ∀ l,
      (SettingsReaders.setEnabled s.file value).lookup (profiledKey j l)=
        s.file.lookup (profiledKey j l) := by
    intro j hj l
    rw [hlook,if_neg (bare_enabledPref.ne_profiledKey hj).symm]
  refine ⟨?_,?_,?_,?_,?_,?_,?_⟩
  · rw [←h.profile]
    apply active_congr
    rw [hlook,if_neg (by decide)]
  · intro l hl hsome
    rw [hlook] at hsome
    split at hsome
    case isTrue heq => exact heq
    case isFalse => exact h.bare l hl hsome
  · intro v hv
    exact ⟨value,(some.inj hv).symm⟩
  · intro j hj l hl hne
    rw [hprofiled j hj,h.stored j hj l hl hne]
    simp [record,hne]
  · intro j hj hcond
    rw [hlook] at hcond
    have hne : j≠i := by simpa using hcond
    rw [hprofiled j hj,h.others j hj (.inl hne)]
    simp [record,hne]
  · rw [hlook]
    simp [record]
  · rw [chained_record_switch,h.unchained]

/-- The bare keys have been moved into the profile that was active, and one is active whose
switch was off and whose chain is not armed for Psiphon. -/
theorem Synced.moved {s : State} {i : ℤ} (h : Synced s i) {j : ℤ} {file' : File Value}
    (hprofile : active file'=some j)
    (hlook : ∀ q, q≠activeProfile → file'.lookup q=(afterMove i s.file).lookup q)
    (hoff : isOn (s.last j enabledPref)=false) (hchain : chained (s.last j)=false) :
    Synced ⟨file',s.last⟩ j := by
  have hi := h.range
  have hmove := lookup_afterMove hi bare_enabledPref h.bare
  have hbare : ∀ l, Bare l → file'.lookup l=if l=enabledPref then none else s.file.lookup l := by
    intro l hl
    have hne : l≠activeProfile := by
      rintro rfl
      exact absurd hl.1 (by simp [not_profiled_activeProfile])
    rw [hlook l hne,hmove,if_neg (c := l=profiledKey i enabledPref) (hl.ne_profiledKey hi)]
  have hprofiled : ∀ j', 0≤j' ∧ j'<count → ∀ l, file'.lookup (profiledKey j' l)=
      if j'=i ∧ l=enabledPref then
        (s.file.lookup enabledPref).or (s.file.lookup (profiledKey j' l))
      else s.file.lookup (profiledKey j' l) := by
    intro j' hj' l
    rw [hlook _ (profiledKey_ne_of_not_profiled hj' l not_profiled_activeProfile),hmove,
      if_neg (bare_enabledPref.ne_profiledKey hj').symm]
    simp only [profiledKey_inj hj' hi]
  have hnone : file'.lookup enabledPref=none := by
    rw [hbare _ bare_enabledPref,if_pos rfl]
  refine ⟨hprofile,?_,?_,?_,?_,?_,hchain⟩
  · intro l hl hsome
    rw [hbare l hl] at hsome
    split at hsome
    case isTrue => exact absurd rfl hsome
    case isFalse => exact h.bare l hl hsome
  · intro v hv
    rw [hnone] at hv
    cases hv
  · intro j' hj' l hl hne
    rw [hprofiled j' hj',if_neg (fun hc => hne hc.2)]
    exact h.stored j' hj' l hl hne
  · intro j' hj' _
    rw [hprofiled j' hj']
    by_cases hsame : j'=i
    · subst hsame
      rw [if_pos ⟨rfl,rfl⟩]
      cases hv : s.file.lookup enabledPref with
      | none => exact h.others j' hj' (.inr hv)
      | some v =>
        have hcurrent := h.current
        rw [hv] at hcurrent
        exact hcurrent
    · rw [if_neg (fun hc => hsame hc.1)]
      exact h.others j' hj' (.inl hsame)
  · rw [hnone,hoff]
    rfl

/-- The number of a profile is stored as it is. -/
theorem active_of_stored {index : ℤ} (hindex : 0 ≤ index ∧ index<count)
    (h : file.lookup activeProfile=some (.int (Int32.ofInt index))) : active file=some index := by
  have hvalue : (Int32.ofInt index).toInt=index := by
    obtain ⟨hlow,hhigh⟩ := hindex
    unfold count at hhigh
    interval_cases index <;> rfl
  unfold active
  rw [h]
  dsimp only
  rw [hvalue,if_pos hindex]

/-- A step that disturbs nothing leads from a synced state to a synced state. -/
theorem Synced.step {s s' : State} {i : ℤ} {a : Action} {new : List Unit} (h : Synced s i)
    (hallowed : machine.allowed s a) (hcond : undisturbing s a=true)
    (hexec : exec s a=some (s',new)) : ∃ i', Synced s' i' := by
  have hi := h.range
  cases a with
  | put k v =>
    simp only [exec,h.profile] at hexec
    cases hexec
    simp only [undisturbing,h.profile,all_some] at hcond
    refine ⟨i,h.write (of_decide_eq_true hallowed) (lookup_commit_put s.file (key i k) · v) ?_ ?_⟩
    · intro hk
      rw [if_pos hk] at hcond
      simpa using hcond
    · intro hk
      rw [if_neg hk] at hcond
      simpa using hcond
  | remove k =>
    simp only [exec,h.profile] at hexec
    cases hexec
    simp only [undisturbing,h.profile,all_some] at hcond
    refine ⟨i,h.write (of_decide_eq_true hallowed) (lookup_commit_remove s.file (key i k)) ?_ ?_⟩
    · intro hk
      rw [if_pos hk] at hcond
      have hoff : isOn (s.file.lookup enabledPref)=false := by simpa using hcond
      rw [hoff]
      rfl
    · intro hk
      rw [if_neg hk] at hcond
      simpa using hcond
  | setEnabled value =>
    simp only [exec,h.profile] at hexec
    cases hexec
    exact ⟨i,h.setEnabled value⟩
  | migrate =>
    obtain ⟨⟨file',n⟩,hmigrate,heq⟩ := map_eq_some_iff.mp hexec
    cases heq
    have hlook := lookup_migrateIfNeeded h.profile hmigrate
    have hoff : isOn (s.file.lookup enabledPref)=false := by simpa [undisturbing] using hcond
    refine ⟨i,h.moved ?_ (fun q _ => hlook q) (h.current ▸ hoff) h.unchained⟩
    rw [←h.profile]
    apply active_congr
    rw [hlook,lookup_afterMove hi bare_enabledPref h.bare,if_neg (by decide),
      if_neg (profiledKey_ne_of_not_profiled hi _ not_profiled_activeProfile).symm]
  | switch index =>
    obtain ⟨⟨file',n⟩,hswitch,heq⟩ := map_eq_some_iff.mp hexec
    cases heq
    by_cases hindex : 0 ≤ index ∧ index<count
    · by_cases hsame : i=index
      · unfold SettingsReaders.switch at hswitch
        rw [if_neg (by simpa using hindex),h.profile] at hswitch
        simp only [map_some,if_pos hsame] at hswitch
        cases hswitch
        exact ⟨i,h⟩
      · have hlook := lookup_switch hindex h.profile hsame hswitch
        simp [undisturbing,hindex,h.profile,hsame] at hcond
        have hprofile : active file'=some index :=
          active_of_stored hindex (by rw [hlook,if_pos rfl])
        refine ⟨index,h.moved hprofile ?_ ?_ ?_⟩
        · intro q hq
          rw [hlook,if_neg hq]
        · rw [←h.others index hindex (.inl fun he => hsame he.symm)]
          exact hcond.1
        · rw [←hcond.2]
          exact (chained_congr (h.stored index hindex chainArmed bare_chainArmed.1 (by decide))
            (h.stored index hindex defaultProtocol bare_defaultProtocol.1 (by decide))).symm
    · unfold SettingsReaders.switch at hswitch
      rw [if_pos hindex] at hswitch
      cases hswitch
      exact ⟨i,h⟩

/-- The empty file of a fresh install is synced. -/
theorem synced_start : Synced ⟨∅,fun _ _ => none⟩ 0 where
  profile := rfl
  bare := fun _ _ hsome => absurd rfl hsome
  typed := nofun
  stored := fun _ _ _ _ _ => rfl
  others := fun _ _ _ => rfl
  current := rfl
  unchained := rfl

/-- In every run whose steps disturb nothing, the readers beside the profiles see in every state
what the active profile was last set to. -/
theorem run_readers_see_last {t : List Unit} {s : State}
    (h : machine.Run (fun _ s a => undisturbing s a=true) t s) : Seen s := by
  have hsynced : ∃ i, Synced s i := by
    refine Machine.Run.invariant (fun _ s => ∃ i, Synced s i) ?_ ?_ h
    · rintro s rfl
      exact ⟨0,synced_start⟩
    · rintro t s a s' new ⟨i,hi⟩ hallowed hcond hexec
      exact hi.step hallowed hcond hexec
  obtain ⟨i,hi⟩ := hsynced
  exact hi.seen

/-- A run that sets values, moves the switch while it is off and changes the profile, at whose
end the readers see what was last set. -/
theorem run_readers_through_switch :
    ∃ t s, machine.Run (fun _ s a => undisturbing s a=true) t s ∧
      active s.file=some 1 ∧ s.last 0 enabledPref=some (.boolean false) ∧
      s.last 1 enabledPref=some (.boolean true) ∧ Seen s := by
  obtain ⟨t,s,hrun,hactive,hfirst,hsecond⟩ : ∃ t s,
      machine.Run (fun _ s a => undisturbing s a=true) t s ∧ active s.file=some 1 ∧
        s.last 0 enabledPref=some (.boolean false) ∧
        s.last 1 enabledPref=some (.boolean true) :=
    Machine.exists_run (fun s a => isSetting a && undisturbing s a)
      (fun _ _ _ => Bool.and_eq_true_iff.mp) rfl
      [.put defaultProtocol (.string psiphon),.setEnabled false,.migrate,.switch 1,
        .setEnabled true] (by decide +kernel)
  exact ⟨t,s,hrun,hactive,hfirst,hsecond,run_readers_see_last hrun⟩

/-- The switch is turned on and the app started again: the reader finds it off. The chain is
armed and Psiphon chosen: the tile names Psiphon and not the chain. -/
theorem readers_miss_last :
    (∃ t s, machine.Run always t s ∧ active s.file=some 0 ∧
      s.last 0 enabledPref=some (.boolean true) ∧ enabled s.file=some false) ∧
    ∃ t s, machine.Run always t s ∧ active s.file=some 0 ∧
      s.last 0 chainArmed=some (.boolean true) ∧
      s.last 0 defaultProtocol=some (.string psiphon) ∧ tileProtocol s.file=some psiphon ∧
      expectedProtocol (s.last 0)=some chainProtocolMarker ∧ psiphon≠chainProtocolMarker := by
  constructor
  · exact Machine.exists_run (fun _ => isSetting) (fun _ _ _ h => ⟨h,trivial⟩) rfl
      [.setEnabled true,.migrate] (by decide +kernel)
  · exact Machine.exists_run (fun _ => isSetting) (fun _ _ _ h => ⟨h,trivial⟩) rfl
      [.put chainArmed (.boolean true),.put defaultProtocol (.string psiphon)]
      (by decide +kernel)

end Runs

end MsnGuard.SettingsReaders
