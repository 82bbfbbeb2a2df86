import Mathlib.Data.Char
import Mathlib.Data.List.Lex
import MsnGuard.JsonValues
import MsnGuard.SettingsProfiles

/-!
# Export and restore of the settings

A backup is one JSON text with the values of two preference files, each with its type beside it.
Restoring checks the head of the text, then clears each covered file that the text has an object
for and writes the entries that can be read.
-/

namespace MsnGuard.SettingsBackups

open FloatFormats JsonValues PreferenceFiles SettingsProfiles Option
open RustText hiding trim isWhitespace

/-- The marker of the app's own files. -/
def appMarker : Text := "MSN-GUARD".toList

/-- The revision of the format. -/
def format : Int32 := 1

/-- The preference files that a backup covers. -/
inductive FileName where
  | settings
  | splitTunneling
  deriving DecidableEq

/-- The names of the files in a backup. -/
def FileName.text : FileName → Text
  | .settings => "settings".toList
  | .splitTunneling => "split_tunneling".toList

/-- The covered files in the order in which they are applied. -/
def fileNames : List FileName := [.settings,.splitTunneling]

/-- The content of the covered files. -/
abbrev Files := FileName → File Value

/-- The beginnings of further keys that are measurements. -/
def transientPrefixes : List Text := ["smart_split_profile_".toList]

/-- Is the value of this key a measurement? -/
def isTransient (key : Text) : Bool :=
  transientKeys.contains key || transientPrefixes.any fun head => head.isPrefixOf key

/-- Is the key of this file left out? -/
def isLeftOut (name : FileName) (key : Text) : Bool := decide (name=.settings) && isTransient key

/-- The entries of a file that a backup holds. -/
def exportable (files : Files) (name : FileName) : List (Sigma fun _ : Text => Value) :=
  (files name).entries.filter fun e => !isLeftOut name e.1

/-- An order in which sets of texts are walked. -/
structure Walk where
  items : Finset Text → List Text
  mem_items : ∀ s x, x∈items s ↔ x∈s

/-- A value with its type: the two members of an object. -/
def typed (tag : String) (v : Json) : Members := [("t".toList,.string tag.toList),("v".toList,v)]

/-- One value as an object; a number that is not finite is refused by the library. -/
def encode (walk : Walk) : Value → Option Json
  | .boolean b => some (.object (typed "b" (.boolean b)))
  | .int n => some (.object (typed "i" (.integer n)))
  | .long n => some (.object (typed "l" (.long n)))
  | .float x =>
    if (widen x).isFinite then some (.object (typed "f" (.double (widen x)))) else none
  | .string s => some (.object (typed "s" (.string s)))
  | .stringSet s => some (.object (typed "ss" (.array ((walk.items s).map .string))))

/-- The values of a file as they are exported. -/
def exportedValues (walk : Walk) (files : Files) (name : FileName) : Option Members :=
  (exportable files name).mapM fun e => (encode walk e.2).map fun j => (e.1,j)

/-- The object of a file. -/
def exportFile (walk : Walk) (files : Files) (name : FileName) : Option (Text × Json) :=
  (exportedValues walk files name).map fun values => (name.text,.object values)

section Export

variable {τ : Type} (lib : Library τ)

/-- `export`: the text of a backup; nothing if the library refuses a value. -/
def exportText (walk : Walk) (files : Files) (version : Text) (created : Int64) : Option τ :=
  (fileNames.mapM (exportFile walk files)).map fun prefs =>
    lib.render (.object [("app".toList,.string appMarker),("format".toList,.integer format),
      ("version".toList,.string version),("created".toList,.long created),
      ("prefs".toList,.object prefs)])

end Export

/-- What a restore reports. -/
structure Outcome where
  restored : ℕ
  skipped : ℕ
  version : Text

section Restore

variable {τ : Type} (lib : Library τ)
variable {name : FileName} {values prefs : Members}

/-- The texts of an array that are not empty. -/
def nonEmptyTexts (items : List Json) : Finset Text :=
  ((items.map (asString lib)).filter fun s => !s.isEmpty).toFinset

/-- `writeValue`: collect one decoded value; nothing if the entry is malformed. -/
def writeValue (editor : Editor Value) (key : Text) (entry : Members) : Option (Editor Value) :=
  if has entry "v".toList=false then none
  else
    let tag := optString lib entry "t".toList []
    if tag = "b".toList then
      some (editor.put key (.boolean (optBoolean entry "v".toList false)))
    else if tag = "i".toList then some (editor.put key (.int (optInt lib entry "v".toList 0)))
    else if tag = "l".toList then some (editor.put key (.long (optLong lib entry "v".toList 0)))
    else if tag = "f".toList then
      some (editor.put key (.float (narrow (optDouble lib entry "v".toList notANumber))))
    else if tag = "s".toList then
      some (editor.put key (.string (optString lib entry "v".toList [])))
    else if tag = "ss".toList then
      (optJSONArray entry "v".toList).map fun items =>
        editor.put key (.stringSet (nonEmptyTexts lib items))
    else none

/-- How far the restore of a file has come. -/
structure Progress where
  editor : Editor Value
  restored : ℕ
  skipped : ℕ

/-- One key of a file's object. -/
def restoreKey (name : FileName) (values : Members) (p : Progress) (key : Text) : Progress :=
  if isLeftOut name key then {p with skipped := p.skipped+1}
  else match (optJSONObject values key).bind (writeValue lib p.editor key) with
    | none => {p with skipped := p.skipped+1}
    | some editor => {p with editor := editor,restored := p.restored+1}

/-- The files and the counts between two files. -/
structure Stage where
  files : Files
  restored : ℕ
  skipped : ℕ

/-- One covered file: it is cleared and its object written, if there is one. -/
def restoreFile (prefs : Members) (s : Stage) (name : FileName) : Stage :=
  match optJSONObject prefs name.text with
  | none => s
  | some values =>
    let p := (values.map Prod.fst).foldl (restoreKey lib name values)
      ⟨Editor.fresh.clear,s.restored,s.skipped⟩
    ⟨Function.update s.files name (commit p.editor (s.files name)),p.restored,p.skipped⟩

/-- `restore`: the files after it and what it reports, a message if it fails. -/
def restore (files : Files) (text : τ) : Files × Except Text Outcome :=
  match lib.parse text with
  | some (.object root) =>
    if optString lib root "app".toList []≠appMarker then
      (files,.error "This backup belongs to another app".toList)
    else if optInt lib root "format".toList (-1)<1 ∨
        format<optInt lib root "format".toList (-1) then
      (files,.error "This backup was made by a newer version".toList)
    else match optJSONObject root "prefs".toList with
      | none => (files,.error "This backup carries no settings".toList)
      | some prefs =>
        let s := fileNames.foldl (restoreFile lib prefs) ⟨files,0,0⟩
        if s.restored=0 then (s.files,.error "This backup carries no settings".toList)
        else (s.files,.ok ⟨s.restored,s.skipped,optString lib root "version".toList "?".toList⟩)
  | _ => (files,.error "This file is not a settings backup".toList)

/-- Has an entry a type that is known and a value, an array for a set? -/
def wellTyped (entry : Members) : Bool :=
  has entry "v".toList &&
    (["b","i","l","f","s"].any (fun tag => optString lib entry "t".toList [] == tag.toList) ||
      (optString lib entry "t".toList [] == "ss".toList &&
        (optJSONArray entry "v".toList).isSome))

/-- Is a key of a file's object restored? -/
def restorable (name : FileName) (values : Members) (key : Text) : Bool :=
  !isLeftOut name key && (optJSONObject values key).any (wellTyped lib)

/-- What stands behind the head of a text that is accepted. -/
def accepted (text : τ) : Option Members :=
  match lib.parse text with
  | some (.object root) =>
    if optString lib root "app".toList []≠appMarker then none
    else if optInt lib root "format".toList (-1)<1 ∨
        format<optInt lib root "format".toList (-1) then none
    else optJSONObject root "prefs".toList
  | _ => none

/-- An entry is written exactly if it has a known type and a value. -/
theorem writeValue_isSome (editor : Editor Value) (key : Text) (entry : Members) :
    (writeValue lib editor key entry).isSome=wellTyped lib entry := by
  unfold writeValue wellTyped
  cases has entry "v".toList with
  | false => rfl
  | true =>
    generalize optString lib entry "t".toList []=tag
    simp only [Bool.true_eq_false,if_false,Bool.true_and]
    by_cases hb : tag = "b".toList
    · simp [hb]
    by_cases hi : tag = "i".toList
    · simp [hi]
    by_cases hl : tag = "l".toList
    · simp [hl]
    by_cases hf : tag = "f".toList
    · simp [hf]
    by_cases hs : tag = "s".toList
    · simp [hs]
    by_cases hss : tag = "ss".toList
    · simp [hss]
    · simp_all

/-- A key that is restored is counted as such. -/
theorem restoreKey_restored (name : FileName) (values : Members) (p : Progress) (key : Text) :
    (restoreKey lib name values p key).restored=
      p.restored+if restorable lib name values key then 1 else 0 := by
  unfold restoreKey restorable
  cases isLeftOut name key with
  | true => rfl
  | false =>
    cases hobject : optJSONObject values key with
    | none => rfl
    | some entry =>
      have hsome := writeValue_isSome lib p.editor key entry
      cases hwrite : writeValue lib p.editor key entry with
      | none | some editor =>
        rw [hwrite] at hsome
        simp [hwrite,←hsome]

/-- A key that is not restored changes nothing. -/
theorem restoreKey_editor {key : Text} (h : restorable lib name values key=false) (p : Progress) :
    (restoreKey lib name values p key).editor=p.editor := by
  unfold restoreKey
  unfold restorable at h
  cases hleft : isLeftOut name key with
  | true => rfl
  | false =>
    cases hobject : optJSONObject values key with
    | none => rfl
    | some entry =>
      rw [hleft,hobject,Bool.not_false,Bool.true_and,any_some,
        ← writeValue_isSome lib p.editor key entry] at h
      have hnone : writeValue lib p.editor key entry=none := by simpa using h
      simp [hnone]

theorem foldl_restoreKey_restored (name : FileName) (values : Members) (keys : List Text)
    (p : Progress) :
    (keys.foldl (restoreKey lib name values) p).restored=
      p.restored+keys.countP (restorable lib name values) := by
  induction keys generalizing p with
  | nil => rfl
  | cons key keys ih =>
    rw [List.foldl_cons,ih,restoreKey_restored,List.countP_cons]
    omega

theorem foldl_restoreKey_editor {keys : List Text}
    (h : ∀ key∈keys, restorable lib name values key=false) (p : Progress) :
    (keys.foldl (restoreKey lib name values) p).editor=p.editor := by
  induction keys generalizing p with
  | nil => rfl
  | cons key keys ih =>
    rw [List.foldl_cons,ih fun k hk => h k (List.mem_cons_of_mem _ hk),
      restoreKey_editor lib (h key List.mem_cons_self)]

/-- How many keys of a file are restored. -/
def restoredIn (prefs : Members) (name : FileName) : ℕ :=
  match optJSONObject prefs name.text with
  | none => 0
  | some values => (values.map Prod.fst).countP (restorable lib name values)

theorem restoreFile_restored (prefs : Members) (s : Stage) (name : FileName) :
    (restoreFile lib prefs s name).restored=s.restored+restoredIn lib prefs name := by
  unfold restoreFile restoredIn
  cases optJSONObject prefs name.text with
  | none => rfl
  | some values => exact foldl_restoreKey_restored lib name values _ _

/-- No entry of a backup can be restored. -/
def Barren (prefs : Members) : Prop :=
  ∀ name values, optJSONObject prefs (FileName.text name)=some values →
    ∀ key∈values.map Prod.fst, restorable lib name values key=false

theorem restoredIn_eq_zero_iff :
    restoredIn lib prefs name=0 ↔ ∀ values, optJSONObject prefs name.text=some values →
        ∀ key∈values.map Prod.fst, restorable lib name values key=false := by
  unfold restoredIn
  cases optJSONObject prefs name.text with
  | none => simp
  | some values => simp [List.countP_eq_zero]

/-- A file without entries to restore is cleared if there is an object for it. -/
theorem restoreFile_barren (h : restoredIn lib prefs name=0) (s : Stage) :
    (restoreFile lib prefs s name).files=Function.update s.files name
        (if (optJSONObject prefs name.text).isSome then ∅ else s.files name) := by
  have hkeys := (restoredIn_eq_zero_iff lib).mp h
  unfold restoreFile
  cases hobject : optJSONObject prefs name.text with
  | none => simp
  | some values =>
    dsimp only
    rw [foldl_restoreKey_editor lib (hkeys values hobject)]
    rfl

/-- The files when nothing was restored: those with an object are empty. -/
theorem files_barren (h : Barren lib prefs) (files : Files) (name : FileName) :
    (fileNames.foldl (restoreFile lib prefs) ⟨files,0,0⟩).files name=
      if (optJSONObject prefs name.text).isSome then ∅ else files name := by
  have hzero : ∀ n, restoredIn lib prefs n=0 := fun n =>
    (restoredIn_eq_zero_iff lib).mpr (h n)
  simp only [fileNames,List.foldl_cons,List.foldl_nil]
  rw [restoreFile_barren lib (hzero _),restoreFile_barren lib (hzero _)]
  cases name with
  | settings | splitTunneling => rfl

theorem restored_eq_zero_iff (files : Files) :
    (fileNames.foldl (restoreFile lib prefs) ⟨files,0,0⟩).restored=0 ↔ Barren lib prefs := by
  simp only [fileNames,List.foldl_cons,List.foldl_nil,restoreFile_restored]
  constructor
  · intro h name
    cases name with
    | settings | splitTunneling => exact (restoredIn_eq_zero_iff lib).mp (by omega)
  · intro h
    have hfirst := (restoredIn_eq_zero_iff lib).mpr (h .settings)
    have hsecond := (restoredIn_eq_zero_iff lib).mpr (h .splitTunneling)
    omega

/-- A text with another head is refused before anything is touched. -/
theorem restore_of_rejected {text : τ} (h : accepted lib text=none) (files : Files) :
    (restore lib files text).1=files := by
  unfold accepted at h
  unfold restore
  split at h
  case h_1 root hparse =>
    split at h
    case isTrue happ => rw [if_pos happ]
    case isFalse happ =>
      rw [if_neg happ]
      split at h
      case isTrue hformat => rw [if_pos hformat]
      case isFalse hformat =>
        rw [if_neg hformat,h]
  case h_2 => rfl

/-- What a restore does behind the head. -/
theorem restore_of_accepted {text : τ} (h : accepted lib text=some prefs) (files : Files) :
    (restore lib files text).1=(fileNames.foldl (restoreFile lib prefs) ⟨files,0,0⟩).files ∧
      ((∃ message, (restore lib files text).2=.error message) ↔
        (fileNames.foldl (restoreFile lib prefs) ⟨files,0,0⟩).restored=0) := by
  unfold accepted at h
  unfold restore
  split at h
  case h_2 => cases h
  case h_1 root hparse =>
    split at h
    case isTrue => cases h
    case isFalse happ =>
      split at h
      case isTrue => cases h
      case isFalse hformat =>
        rw [if_neg happ,if_neg hformat,h]
        dsimp only
        split
        case isTrue hzero => exact ⟨rfl,⟨fun _ => hzero,fun _ => ⟨_,rfl⟩⟩⟩
        case isFalse hsome =>
          refine ⟨rfl,⟨?_,fun hzero => absurd hzero hsome⟩⟩
          rintro ⟨message,hmessage⟩
          cases hmessage

/-- A restore that fails leaves the files as they were, unless it came past the head, had
nothing to write and cleared a file that was not empty. -/
theorem restore_all_or_nothing_iff (files : Files) (text : τ) :
    ((∃ message, (restore lib files text).2=.error message) → (restore lib files text).1=files) ↔
      ¬∃ prefs, accepted lib text=some prefs ∧ Barren lib prefs ∧
        ∃ name values, optJSONObject prefs (FileName.text name)=some values ∧ files name≠∅ := by
  cases haccepted : accepted lib text with
  | none => simp [restore_of_rejected lib haccepted]
  | some prefs =>
    obtain ⟨hfiles,hfail⟩ := restore_of_accepted lib haccepted files
    rw [hfiles,hfail,restored_eq_zero_iff]
    constructor
    · rintro h ⟨prefs',heq,hbarren,name,values,hobject,hne⟩
      cases heq
      have hname := congrFun (h hbarren) name
      rw [files_barren lib hbarren,hobject,Option.isSome_some,if_pos rfl] at hname
      exact hne hname.symm
    · intro h hbarren
      funext name
      rw [files_barren lib hbarren]
      cases hobject : optJSONObject prefs name.text with
      | none => rfl
      | some values =>
        rw [Option.isSome_some,if_pos rfl]
        by_contra hne
        exact h ⟨prefs,rfl,hbarren,name,values,hobject,fun he => hne he.symm⟩

/-- Files in which one setting is stored. -/
def oneSetting (v : Value) : Files
  | .settings => (∅ : File Value).insert "kill_switch".toList v
  | .splitTunneling => ∅

/-- A text of the app with an object for the settings and nothing in it. -/
def emptyBackup : Json :=
  .object [("app".toList,.string appMarker),("format".toList,.integer format),
    ("prefs".toList,.object [(FileName.settings.text,.object [])])]

/-- A backup without entries: the restore reports that it carries no settings, and the settings
are gone. -/
theorem restore_failure_clears_settings :
    (∃ message, (restore Library.ofTrees (oneSetting (.boolean true)) emptyBackup).2=
        .error message) ∧
      ((restore Library.ofTrees (oneSetting (.boolean true)) emptyBackup).1 .settings).lookup
        "kill_switch".toList=none ∧
      (oneSetting (.boolean true) .settings).lookup "kill_switch".toList=some (.boolean true) := by
  exact ⟨⟨_,rfl⟩,by decide +kernel,by decide +kernel⟩

/-- The equivalence at a text that is no object. -/
theorem restore_of_other_text :
    (∃ message, (restore Library.ofTrees (oneSetting (.boolean true)) .null).2=.error message) ∧
      (restore Library.ofTrees (oneSetting (.boolean true)) .null).1=
        oneSetting (.boolean true) := by
  have hfail : ∃ message, (restore Library.ofTrees (oneSetting (.boolean true)) .null).2=
      .error message := ⟨_,rfl⟩
  refine ⟨hfail,(restore_all_or_nothing_iff Library.ofTrees _ _).mpr ?_ hfail⟩
  rintro ⟨prefs,haccepted,-⟩
  cases haccepted

end Restore

section RoundTrip

variable {τ : Type} (lib : Library τ)
variable {walk : Walk} {v : Value} {j : Json} {name : FileName} {values prefs : Members}
  {files : Files} {k version : Text} {created : Int64}

/-- What comes back of a value. -/
def returned : Value → Value
  | .float x =>
    .float (narrow ((asDouble lib (rereadDouble (widen x))).getD notANumber))
  | .stringSet s => .stringSet (s.erase [])
  | v => v

/-- The empty text is lost on the way. -/
theorem nonEmptyTexts_items (walk : Walk) (s : Finset Text) :
    nonEmptyTexts lib (rereadItems ((walk.items s).map .string))=s.erase [] := by
  ext x
  rw [rereadItems_eq_map]
  simp [nonEmptyTexts,walk.mem_items,reread,asString,and_comm]

/-- An encoded value is written as what comes back of it. -/
theorem writeValue_encode (h : encode walk v=some j) (editor : Editor Value) (key : Text) :
    ∃ entry, j=.object entry ∧ writeValue lib editor key (rereadMembers entry)=
        some (editor.put key (returned lib v)) := by
  cases v with
  | boolean b | int n | string s =>
    cases h
    exact ⟨_,rfl,rfl⟩
  | long n =>
    cases h
    refine ⟨_,rfl,?_⟩
    change some (editor.put key (.long ((asLong lib (rereadLong n)).getD 0)))=_
    rw [asLong_rereadLong]
    rfl
  | float x =>
    simp only [encode] at h
    split at h
    case isFalse => cases h
    case isTrue =>
      cases h
      exact ⟨_,rfl,rfl⟩
  | stringSet s =>
    cases h
    refine ⟨_,rfl,?_⟩
    change some (editor.put key (.stringSet (nonEmptyTexts lib
      (rereadItems ((walk.items s).map .string)))))=_
    rw [nonEmptyTexts_items]
    rfl

/-- The values that a backup brings back. -/
def keeps : Value → Bool
  | .float x => x.isFinite && x != Binary.zero true
  | .stringSet s => decide ([] ∉ s)
  | _ => true

/-- A single and its double are zeros of the same sign together. -/
theorem widen_eq_zero_iff {x : Single} (h : x.isFinite=true) (negative : Bool) :
    widen x=Binary.zero negative ↔ x=Binary.zero negative := by
  constructor
  · intro heq
    rw [←narrow_widen h,heq]
    cases negative with
    | true | false => decide +kernel
  · rintro rfl
    cases negative with
    | true | false => decide +kernel

theorem widen_isFinite (x : Single) : (widen x).isFinite=x.isFinite := by
  cases h : x.isFinite with
  | true => exact (widen_exact h).2.2
  | false =>
    unfold widen
    rw [if_neg (by simp [h])]
    simp [Binary.isFinite]

/-- A value can be encoded and comes back unchanged exactly if it is kept. -/
theorem keeps_iff (walk : Walk) (v : Value) :
    keeps v=true ↔ (encode walk v).isSome=true ∧ returned lib v=v := by
  cases v with
  | boolean b | int n | long n | string s | stringSet s => simp [keeps,encode,returned]
  | float x =>
    simp only [keeps,encode,returned,widen_isFinite,Bool.and_eq_true,bne_iff_ne,Value.float.injEq]
    cases hfin : x.isFinite with
    | false => simp
    | true =>
      simp only [if_true,isSome_some,true_and]
      by_cases hzero : x=Binary.zero true
      · subst hzero
        have hback : narrow ((asDouble lib (rereadDouble (widen (Binary.zero true)))).getD
            notANumber)=Binary.zero false := by
          have hwiden : widen (Binary.zero true)=Binary.zero true := by decide +kernel
          rw [hwiden]
          have hdouble : asDouble lib (rereadDouble (Binary.zero true))=
              some (Binary.zero false) := by
            have hre : rereadDouble (Binary.zero true)=.integer 0 := if_pos rfl
            rw [hre]
            change some (ofInt (0 : Int32).toInt)=_
            decide +kernel
          rw [hdouble]
          decide +kernel
        rw [hback]
        simp [Binary.zero]
      · have hne : widen x≠Binary.zero true := fun he => hzero ((widen_eq_zero_iff hfin _).mp he)
        rw [asDouble_rereadDouble lib hne,getD_some,narrow_widen hfin]
        simpa using hzero

/-- A list is mapped as a whole exactly if each of its items is. -/
theorem mapM_eq_some_iff {α β : Type} {f : α → Option β} {l : List α} {l' : List β} :
    l.mapM f=some l' ↔ l.map f=l'.map some := by
  induction l generalizing l' with
  | nil => cases l' <;> simp
  | cons a l ih =>
    rw [List.mapM_cons]
    cases hf : f a with
    | none => cases l' <;> simp [hf]
    | some b =>
      simp only [bind_eq_bind,bind_some,bind_eq_some_iff,List.map_cons,hf]
      cases l' with
      | nil => simp
      | cons b' l' =>
        simp only [List.map_cons,List.cons.injEq,some.injEq]
        constructor
        · rintro ⟨rest,hrest,heq⟩
          cases heq
          exact ⟨rfl,ih.mp hrest⟩
        · rintro ⟨rfl,hrest⟩
          exact ⟨l',ih.mpr hrest,rfl⟩

theorem exists_mapM_eq_some {α β : Type} {f : α → Option β} {l : List α}
    (h : ∀ a∈l, (f a).isSome=true) : ∃ l', l.mapM f=some l' := by
  simp only [mapM_eq_some_iff]
  induction l with
  | nil => exact ⟨[],rfl⟩
  | cons a l ih =>
    obtain ⟨l',hl'⟩ := ih fun b hb => h b (List.mem_cons_of_mem _ hb)
    obtain ⟨b,hb⟩ := isSome_iff_exists.mp (h a List.mem_cons_self)
    exact ⟨b::l',by rw [List.map_cons,List.map_cons,hb,hl']⟩

/-- The value of a name that occurs once. -/
theorem opt_of_mem {members : Members} (hnodup : (members.map Prod.fst).Nodup) {name : Text}
    (h : (name,j)∈members) : opt members name=some j := by
  unfold opt
  induction members with
  | nil => cases h
  | cons m members ih =>
    rw [List.map_cons,List.nodup_cons] at hnodup
    rw [List.find?_cons]
    rcases List.mem_cons.mp h with rfl | hrest
    · simp
    · have hne : (m.1 == name)=false := by
        rw [beq_eq_false_iff_ne]
        rintro rfl
        exact hnodup.1 (List.mem_map.mpr ⟨_,hrest,rfl⟩)
      rw [hne]
      exact ih hnodup.2 hrest

/-- Keys whose entries can be written are written one after the other. -/
theorem foldl_restoreKey_puts {keys : List Text} {f : Text → Value}
    (h : ∀ key∈keys, isLeftOut name key=false ∧ ∀ editor,
      (optJSONObject values key).bind (writeValue lib editor key)=
        some (editor.put key (f key))) (p : Progress) :
    (keys.foldl (restoreKey lib name values) p).editor=
      keys.foldl (fun editor key => editor.put key (f key)) p.editor := by
  induction keys generalizing p with
  | nil => rfl
  | cons key keys ih =>
    obtain ⟨hleft,hwrite⟩ := h key List.mem_cons_self
    have hone : (restoreKey lib name values p key).editor=p.editor.put key (f key) := by
      unfold restoreKey
      rw [if_neg (by simp [hleft]),hwrite]
    rw [List.foldl_cons,List.foldl_cons,ih fun k hk => h k (List.mem_cons_of_mem _ hk),hone]

/-- What puts by a function of the key leave to be written. -/
theorem lookup_foldl_put (f : Text → Value) (keys : List Text) (editor : Editor Value)
    (k : Text) :
    (keys.foldl (fun editor key => editor.put key (f key)) editor).changes.lookup k=
        (if k∈keys then some (some (f k)) else editor.changes.lookup k) ∧
      (keys.foldl (fun editor key => editor.put key (f key)) editor).cleared=editor.cleared := by
  induction keys generalizing editor with
  | nil => simp
  | cons key keys ih =>
    obtain ⟨hlook,hcleared⟩ := ih (editor.put key (f key))
    rw [List.foldl_cons,hlook,hcleared,lookup_put]
    refine ⟨?_,rfl⟩
    by_cases hmem : k∈keys
    · simp [hmem]
    · by_cases hk : k=key
      · simp [hk]
      · simp [hmem,hk]

/-- The names of an exported object are the keys, and the values the encoded ones. -/
theorem exportable_values {entries : List (Sigma fun _ : Text => Value)}
    (h : (entries.mapM fun e => (encode walk e.2).map fun j => (e.1,j))=some values) :
    values.map Prod.fst=entries.map Sigma.fst ∧
      (∀ e∈entries, ∃ j, encode walk e.2=some j ∧ (e.1,j)∈values) ∧
      ∀ m∈values, ∃ e∈entries, encode walk e.2=some m.2 := by
  rw [mapM_eq_some_iff] at h
  have hvalues : ∀ e∈entries, ∃ j, encode walk e.2=some j ∧ (e.1,j)∈values := by
    intro e he
    obtain ⟨m,hm,heq⟩ := List.mem_map.mp (h ▸ List.mem_map_of_mem he)
    obtain ⟨j,hj,rfl⟩ := map_eq_some_iff.mp heq.symm
    exact ⟨j,hj,hm⟩
  refine ⟨?_,hvalues,fun m hm => ?_⟩
  · refine List.map_injective_iff.mpr (some_injective _) ?_
    rw [List.map_map,List.map_map]
    calc values.map (some ∘ Prod.fst)=(values.map some).map (Option.map Prod.fst) := by
          rw [List.map_map]
          rfl
      _=entries.map (some ∘ Sigma.fst) := by
          rw [←h,List.map_map]
          refine List.map_congr_left fun e he => ?_
          obtain ⟨j,hj,-⟩ := hvalues e he
          simp [hj]
  · obtain ⟨e,he,heq⟩ := List.mem_map.mp (h.symm ▸ List.mem_map_of_mem hm)
    obtain ⟨j,hj,rfl⟩ := map_eq_some_iff.mp heq
    exact ⟨e,he,hj⟩

/-- What is encoded can be written. -/
theorem writable_encode (h : encode walk v=some j) : writable j=true := by
  cases v with
  | boolean b | int n | long n | string s =>
    cases h
    rfl
  | float x =>
    simp only [encode] at h
    split at h
    case isFalse => cases h
    case isTrue hfin =>
      cases h
      simpa [writable,writableMembers,typed] using hfin
  | stringSet s =>
    cases h
    simp [writable,writableMembers,typed,writableItems_eq_all]

theorem mem_exportable :
    (⟨k,v⟩ : Sigma fun _ : Text => Value)∈exportable files name ↔
      (files name).lookup k=some v ∧ isLeftOut name k=false := by
  unfold exportable
  rw [List.mem_filter,mem_entries_iff]
  simp

section

variable (h : exportedValues walk files name=some values)

include h

/-- The names of an exported object are different. -/
theorem nodup_exportedValues :
    (values.map Prod.fst).Nodup := by
  rw [(exportable_values h).1]
  have hnodup : (exportable files name).NodupKeys :=
    List.NodupKeys.sublist List.filter_sublist (files name).nodupKeys
  exact hnodup

/-- A file's exported object can be written. -/
theorem writable_exportedValues :
    writable (.object values)=true := by
  have hnodup := nodup_exportedValues h
  have hall : (values.all fun m => writable m.2)=true := by
    rw [List.all_eq_true]
    intro m hm
    obtain ⟨e,-,he⟩ := (exportable_values h).2.2 m hm
    exact writable_encode he
  simp only [writable,writableMembers_eq_all,hall,Bool.and_true,decide_eq_true_eq]
  exact hnodup

/-- The entry of an exported key, as it is read again, is written as what comes back. -/
theorem write_exported (hk : (⟨k,v⟩ : Sigma fun _ : Text => Value)∈exportable files name) (editor : Editor Value) :
    (optJSONObject (rereadMembers values) k).bind (writeValue lib editor k)=
      some (editor.put k (returned lib v)) := by
  obtain ⟨j,hj,hmem⟩ := (exportable_values h).2.1 _ hk
  obtain ⟨entry,rfl,hwrite⟩ := writeValue_encode lib hj editor k
  have hobject : optJSONObject (rereadMembers values) k=some (rereadMembers entry) := by
    unfold optJSONObject
    rw [opt_reread,opt_of_mem (nodup_exportedValues h) hmem]
    rfl
  rw [hobject,bind_some,hwrite]

end

/-- What comes back under a key of a file. -/
def returnedAt (files : Files) (name : FileName) (key : Text) : Value :=
  (((files name).lookup key).map (returned lib)).getD (.boolean false)

/-- Restoring the exported object of a file. -/
theorem restoreFile_exported (h : exportedValues walk files name=some values)
    (hprefs : optJSONObject prefs name.text=some (rereadMembers values)) (s : Stage) (k : Text) :
    ((restoreFile lib prefs s name).files name).lookup k=
      if isLeftOut name k then none else ((files name).lookup k).map (returned lib) := by
  have hkeys : (rereadMembers values).map Prod.fst=(exportable files name).map Sigma.fst := by
    rw [rereadMembers_eq_map,List.map_map,←(exportable_values h).1]
    rfl
  have hwrites : ∀ key∈(exportable files name).map Sigma.fst, isLeftOut name key=false ∧
      ∀ editor, (optJSONObject (rereadMembers values) key).bind (writeValue lib editor key)=
        some (editor.put key (returnedAt lib files name key)) := by
    intro key hkey
    obtain ⟨v,hv⟩ := List.mem_keys.mp hkey
    obtain ⟨hlook,hleft⟩ := mem_exportable.mp hv
    refine ⟨hleft,fun editor => ?_⟩
    rw [write_exported lib h hv,returnedAt,hlook]
    rfl
  obtain ⟨hlook,hcleared⟩ := lookup_foldl_put (returnedAt lib files name)
    ((exportable files name).map Sigma.fst) Editor.fresh.clear k
  unfold restoreFile
  rw [hprefs]
  dsimp only
  rw [hkeys,Function.update_self,lookup_commit,foldl_restoreKey_puts lib hwrites,hlook,hcleared]
  by_cases hmem : k∈(exportable files name).map Sigma.fst
  · obtain ⟨v,hv⟩ := List.mem_keys.mp hmem
    obtain ⟨hfile,hleft⟩ := mem_exportable.mp hv
    rw [if_pos hmem,returnedAt,hfile,hleft]
    rfl
  · have hnone : (if isLeftOut name k then none
        else ((files name).lookup k).map (returned lib))=none := by
      cases hleft : isLeftOut name k with
      | true => rfl
      | false =>
        cases hfile : (files name).lookup k with
        | none => rfl
        | some v =>
          exact absurd (List.mem_keys.mpr ⟨v,mem_exportable.mpr ⟨hfile,hleft⟩⟩) hmem
    rw [if_neg hmem,hnone]
    rfl

/-- A file is restored without touching the others. -/
theorem restoreFile_other {s : Stage} {other : FileName} (h : other≠name) :
    (restoreFile lib prefs s name).files other=s.files other := by
  unfold restoreFile
  split
  · rfl
  · exact Function.update_of_ne h _ _

/-- The tree of a backup. -/
def backupTree (version : Text) (created : Int64) (settings split : Members) : Json :=
  .object [("app".toList,.string appMarker),("format".toList,.integer format),
    ("version".toList,.string version),("created".toList,.long created),
    ("prefs".toList,.object [(FileName.settings.text,.object settings),
      (FileName.splitTunneling.text,.object split)])]

theorem exportText_eq_some_iff {text : τ} :
    exportText lib walk files version created=some text ↔
      ∃ settings split, exportedValues walk files .settings=some settings ∧
        exportedValues walk files .splitTunneling=some split ∧
        text=lib.render (backupTree version created settings split) := by
  unfold exportText
  simp only [fileNames,exportFile,List.mapM_cons,List.mapM_nil]
  cases exportedValues walk files .settings with
  | none => simp
  | some settings =>
    cases exportedValues walk files .splitTunneling with
    | none => simp
    | some split => simp [backupTree,eq_comm]

/-- A backup of the app is accepted. -/
theorem accepted_backup {settings split : Members}
    (hsettings : exportedValues walk files .settings=some settings)
    (hsplit : exportedValues walk files .splitTunneling=some split) (version : Text)
    (created : Int64) :
    accepted lib (lib.render (backupTree version created settings split))=
      some (rereadMembers [(FileName.settings.text,.object settings),
        (FileName.splitTunneling.text,.object split)]) := by
  have hwritable : writable (backupTree version created settings split)=true := by
    have hfirst := writable_exportedValues hsettings
    have hsecond := writable_exportedValues hsplit
    have houter : (["app".toList,"format".toList,"version".toList,"created".toList,
      "prefs".toList] : List Text).Nodup := by decide
    have hinner : ([FileName.settings.text,FileName.splitTunneling.text] : List Text).Nodup := by
      decide
    simp only [backupTree,writable,writableMembers,List.map_cons,List.map_nil,houter,hinner,
      decide_true,Bool.true_and,Bool.and_true,Bool.and_eq_true] at hfirst hsecond ⊢
    exact ⟨hfirst,hsecond⟩
  unfold accepted
  rw [lib.parse_render _ hwritable]
  rfl

/-- What restoring a backup into empty files leaves. -/
theorem restore_backup {text : τ} (h : exportText lib walk files version created=some text)
    (name : FileName) (k : Text) :
    ((restore lib (fun _ => ∅) text).1 name).lookup k=
      if isLeftOut name k then none else ((files name).lookup k).map (returned lib) := by
  obtain ⟨settings,split,hsettings,hsplit,rfl⟩ := (exportText_eq_some_iff lib).mp h
  have haccepted := accepted_backup lib hsettings hsplit version created
  rw [(restore_of_accepted lib haccepted _).1]
  simp only [fileNames,List.foldl_cons,List.foldl_nil]
  cases name with
  | settings =>
    rw [restoreFile_other lib (by decide)]
    exact restoreFile_exported lib hsettings rfl _ k
  | splitTunneling => exact restoreFile_exported lib hsplit rfl _ k

/-- There is a backup exactly if every value can be encoded. -/
theorem exists_exportedValues_iff :
    (∃ values, exportedValues walk files name=some values) ↔
      ∀ k v, (files name).lookup k=some v → isLeftOut name k=false →
        (encode walk v).isSome=true := by
  constructor
  · rintro ⟨values,hvalues⟩ k v hlook hleft
    obtain ⟨j,hj,-⟩ := (exportable_values hvalues).2.1 ⟨k,v⟩ (mem_exportable.mpr ⟨hlook,hleft⟩)
    rw [hj]
    rfl
  · intro h
    apply exists_mapM_eq_some
    rintro ⟨k,v⟩ he
    obtain ⟨hlook,hleft⟩ := mem_exportable.mp he
    simpa using h k v hlook hleft

/-- A backup brings everything that is not left out back into empty files exactly if every such
value is kept: no number that is infinite, not a number or the negative zero, and no set with the
empty text. -/
theorem backup_brings_back_iff (walk : Walk) (files : Files) (version : Text) (created : Int64) :
    (∃ text, exportText lib walk files version created=some text ∧
        ∀ name k, ((restore lib (fun _ => ∅) text).1 name).lookup k=
          if isLeftOut name k then none else (files name).lookup k) ↔
      ∀ name k v, (files name).lookup k=some v → isLeftOut name k=false → keeps v=true := by
  constructor
  · rintro ⟨text,htext,hback⟩ name k v hlook hleft
    obtain ⟨settings,split,hsettings,hsplit,-⟩ := (exportText_eq_some_iff lib).mp htext
    have hvalues : ∃ values, exportedValues walk files name=some values := by
      cases name with
      | settings => exact ⟨settings,hsettings⟩
      | splitTunneling => exact ⟨split,hsplit⟩
    have hreturned := hback name k
    rw [restore_backup lib htext,hleft,hlook] at hreturned
    rw [keeps_iff lib walk]
    exact ⟨exists_exportedValues_iff.mp hvalues k v hlook hleft,by simpa using hreturned⟩
  · intro h
    have hvalues : ∀ name, ∃ values, exportedValues walk files name=some values := by
      intro name
      rw [exists_exportedValues_iff]
      intro k v hlook hleft
      exact ((keeps_iff lib walk v).mp (h name k v hlook hleft)).1
    obtain ⟨settings,hsettings⟩ := hvalues .settings
    obtain ⟨split,hsplit⟩ := hvalues .splitTunneling
    have htext := (exportText_eq_some_iff lib).mpr
      ⟨settings,split,hsettings,hsplit,(rfl : lib.render (backupTree version created _ _)=_)⟩
    refine ⟨_,htext,?_⟩
    intro name k
    rw [restore_backup lib htext]
    cases hleft : isLeftOut name k with
    | true => rfl
    | false =>
      cases hlook : (files name).lookup k with
      | none => rfl
      | some v =>
        have hsame := ((keeps_iff lib walk v).mp (h name k v hlook hleft)).2
        simp [hsame]

/-- Sets are walked in the order of their texts. -/
def Walk.sorted : Walk where
  items s := s.sort (·≤·)
  mem_items _ _ := Finset.mem_sort (·≤·)

/-- A set with the empty text comes back without it, the negative zero comes back as the
positive one, and with an infinite number there is no backup at all. -/
theorem backup_loses_values :
    (∃ text, exportText Library.ofTrees Walk.sorted (oneSetting (.stringSet {[]})) [] 0=some text ∧
      ((restore Library.ofTrees (fun _ => ∅) text).1 .settings).lookup "kill_switch".toList=
        some (.stringSet ∅)) ∧
    (∃ text, exportText Library.ofTrees Walk.sorted
        (oneSetting (.float (Binary.zero true))) [] 0=some text ∧
      ((restore Library.ofTrees (fun _ => ∅) text).1 .settings).lookup "kill_switch".toList=
        some (.float (Binary.zero false))) ∧
    exportText Library.ofTrees Walk.sorted (oneSetting (.float (Binary.infinity false))) [] 0=
      none := by
  have hset : (exportText Library.ofTrees Walk.sorted (oneSetting (.stringSet {[]})) [] 0).isSome=
      true := by decide +kernel
  have hzero : (exportText Library.ofTrees Walk.sorted
      (oneSetting (.float (Binary.zero true))) [] 0).isSome=true := by decide +kernel
  have hnone : (exportText Library.ofTrees Walk.sorted
      (oneSetting (.float (Binary.infinity false))) [] 0).isNone=true := by decide +kernel
  obtain ⟨first,hfirst⟩ := Option.isSome_iff_exists.mp hset
  obtain ⟨second,hsecond⟩ := Option.isSome_iff_exists.mp hzero
  refine ⟨⟨first,hfirst,?_⟩,⟨second,hsecond,?_⟩,Option.isNone_iff_eq_none.mp hnone⟩
  · rw [restore_backup Library.ofTrees hfirst]
    decide +kernel
  · rw [restore_backup Library.ofTrees hsecond]
    decide +kernel

/-- The equivalence at a file with the largest 64-bit integer. -/
theorem backup_brings_back_long :
    ∃ text, exportText Library.ofTrees Walk.sorted
        (oneSetting (.long (Int64.ofInt (2^63-1)))) [] 0=some text ∧
      ∀ name k, ((restore Library.ofTrees (fun _ => ∅) text).1 name).lookup k=
        if isLeftOut name k then none
        else (oneSetting (.long (Int64.ofInt (2^63-1))) name).lookup k := by
  refine (backup_brings_back_iff Library.ofTrees Walk.sorted _ [] 0).mpr ?_
  intro name k v hlook _
  cases name with
  | splitTunneling => cases hlook
  | settings =>
    simp only [oneSetting,lookup_insert_eq] at hlook
    split at hlook
    · cases hlook
      rfl
    · cases hlook

end RoundTrip

end MsnGuard.SettingsBackups
