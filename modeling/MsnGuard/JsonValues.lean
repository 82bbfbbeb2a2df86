import MsnGuard.FloatFormats
import MsnGuard.KotlinText

/-!
# Trees of the JSON library

The numbers of a tree are of three types, and an object lists its members in the order in which
they were put. A number is written as an integer where it is one and read with the smallest type
that holds it. A library is a writer and a reader that agree on the trees they exchange.
-/

namespace MsnGuard.JsonValues

open FloatFormats KotlinText
open RustText hiding trim isWhitespace

/-- A tree in memory. -/
inductive Json where
  | null
  | boolean (b : Bool)
  | integer (n : Int32)
  | long (n : Int64)
  | double (x : Double)
  | string (s : Text)
  | array (items : List Json)
  | object (members : List (Text × Json))

/-- The members of an object. -/
abbrev Members := List (Text × Json)

section Reading

/-- The whole part of a number as a 64-bit integer. -/
def longValue (x : Double) : Int64 := Int64.ofInt (truncate (-2^63) (2^63-1) x)

/-- The whole part of a number as a 32-bit integer. -/
def intValue (x : Double) : Int32 := Int32.ofInt (truncate (-2^31) (2^31-1) x)

/-- An integer is read with the smaller of the two types that hold it. -/
def rereadLong (n : Int64) : Json :=
  if -2^31≤n.toInt ∧ n.toInt≤2^31-1 then .integer n.toInt32 else .long n

/-- A number is written as an integer if it is one, a negative zero as one too. -/
def rereadDouble (x : Double) : Json :=
  if x=Binary.zero true then .integer 0
  else if numericEq x (ofInt (longValue x).toInt) then rereadLong (longValue x)
  else .double x

mutual

/-- What comes back when a tree is written and read. -/
def reread : Json → Json
  | .null => .null
  | .boolean b => .boolean b
  | .integer n => .integer n
  | .long n => rereadLong n
  | .double x => rereadDouble x
  | .string s => .string s
  | .array items => .array (rereadItems items)
  | .object members => .object (rereadMembers members)

def rereadItems : List Json → List Json
  | [] => []
  | j::rest => reread j::rereadItems rest

def rereadMembers : List (Text × Json) → List (Text × Json)
  | [] => []
  | (name,j)::rest => (name,reread j)::rereadMembers rest

end

mutual

/-- Can the tree be written: is every number one, and has every object different names? -/
def writable : Json → Bool
  | .double x => x.isFinite
  | .array items => writableItems items
  | .object members => decide (members.map Prod.fst).Nodup && writableMembers members
  | _ => true

def writableItems : List Json → Bool
  | [] => true
  | j::rest => writable j && writableItems rest

def writableMembers : List (Text × Json) → Bool
  | [] => true
  | (_,j)::rest => writable j && writableMembers rest

end

theorem rereadItems_eq_map (items : List Json) : rereadItems items=items.map reread := by
  induction items with
  | nil => rfl
  | cons j rest ih => rw [rereadItems,ih,List.map_cons]

theorem rereadMembers_eq_map (members : Members) :
    rereadMembers members=members.map fun m => (m.1,reread m.2) := by
  induction members with
  | nil => rfl
  | cons m rest ih =>
    obtain ⟨name,j⟩ := m
    rw [rereadMembers,ih,List.map_cons]

theorem writableItems_eq_all (items : List Json) : writableItems items=items.all writable := by
  induction items with
  | nil => rfl
  | cons j rest ih => rw [writableItems,ih,List.all_cons]

theorem writableMembers_eq_all (members : Members) :
    writableMembers members=members.all fun m => writable m.2 := by
  induction members with
  | nil => rfl
  | cons m rest ih =>
    obtain ⟨name,j⟩ := m
    rw [writableMembers,ih,List.all_cons]

end Reading

/-- A writer and a reader of trees, with the conversions between numbers and texts. What is
written can be read, and gives the tree that was written up to the types of its numbers. -/
structure Library (τ : Type) where
  /-- The first value of a text; nothing if it is malformed. -/
  parse : τ → Option Json
  /-- The text of a tree. -/
  render : Json → τ
  /-- The text of a value that is not a text. -/
  textOf : Json → Text
  /-- The number that a text spells. -/
  parseDouble : Text → Option Double
  /-- What is written can be read. -/
  parse_render : ∀ j, writable j=true → parse (render j)=some (reread j)

/-- The library whose texts are the trees themselves, as they come back. -/
def Library.ofTrees : Library Json where
  parse j := some (reread j)
  render j := j
  textOf _ := []
  parseDouble _ := none
  parse_render _ _ := rfl

section Members

/-- The value of a name. -/
def opt (members : Members) (name : Text) : Option Json :=
  (members.find? fun m => m.1 == name).map Prod.snd

/-- Is there a value of the name? -/
def has (members : Members) (name : Text) : Bool := members.any fun m => m.1 == name

/-- The object of a name. -/
def optJSONObject (members : Members) (name : Text) : Option Members :=
  match opt members name with
  | some (.object inner) => some inner
  | _ => none

/-- The array of a name. -/
def optJSONArray (members : Members) (name : Text) : Option (List Json) :=
  match opt members name with
  | some (.array items) => some items
  | _ => none

variable {τ : Type} (lib : Library τ)

/-- A value as a text. -/
def asString : Json → Text
  | .string s => s
  | j => lib.textOf j

/-- A value as a 32-bit integer. -/
def asInt : Json → Option Int32
  | .integer n => some n
  | .long n => some n.toInt32
  | .double x => some (intValue x)
  | .string s => (lib.parseDouble s).map intValue
  | _ => none

/-- A value as a 64-bit integer. -/
def asLong : Json → Option Int64
  | .integer n => some n.toInt64
  | .long n => some n
  | .double x => some (longValue x)
  | .string s => (lib.parseDouble s).map longValue
  | _ => none

/-- A value as a number. -/
def asDouble : Json → Option Double
  | .integer n => some (ofInt n.toInt)
  | .long n => some (ofInt n.toInt)
  | .double x => some x
  | .string s => lib.parseDouble s
  | _ => none

/-- A value as a switch. -/
def asBoolean : Json → Option Bool
  | .boolean b => some b
  | .string s =>
    if s.map foldCase = "true".toList then some true
    else if s.map foldCase = "false".toList then some false
    else none
  | _ => none

def optString (members : Members) (name fallback : Text) : Text :=
  ((opt members name).map (asString lib)).getD fallback

def optInt (members : Members) (name : Text) (fallback : Int32) : Int32 :=
  ((opt members name).bind (asInt lib)).getD fallback

def optLong (members : Members) (name : Text) (fallback : Int64) : Int64 :=
  ((opt members name).bind (asLong lib)).getD fallback

def optDouble (members : Members) (name : Text) (fallback : Double) : Double :=
  ((opt members name).bind (asDouble lib)).getD fallback

def optBoolean (members : Members) (name : Text) (fallback : Bool) : Bool :=
  ((opt members name).bind asBoolean).getD fallback

end Members

section Rereading

variable {τ : Type} (lib : Library τ)

/-- Reading again keeps the names and rereads the values. -/
theorem opt_reread (members : Members) (name : Text) :
    opt (rereadMembers members) name=(opt members name).map reread := by
  rw [rereadMembers_eq_map]
  unfold opt
  rw [List.find?_map,Option.map_map,Option.map_map]
  rfl

/-- A 64-bit integer that fits 32 bits is not changed by the smaller type. -/
theorem toInt_toInt32 {n : Int64} (h : -2^31≤n.toInt ∧ n.toInt≤2^31-1) :
    n.toInt32.toInt=n.toInt := by
  rw [Int64.toInt_toInt32,Int.bmod_eq_of_le]
  · norm_num
    omega
  · norm_num
    omega

theorem asLong_rereadLong (n : Int64) : asLong lib (rereadLong n)=some n := by
  unfold rereadLong
  split
  case isTrue h =>
    have hback : n.toInt32.toInt64=n := by
      apply Int64.toInt_inj.mp
      rw [Int32.toInt_toInt64,toInt_toInt32 h]
    simp only [asLong,hback]
  case isFalse => rfl

theorem asDouble_rereadLong (n : Int64) : asDouble lib (rereadLong n)=some (ofInt n.toInt) := by
  unfold rereadLong
  split
  case isTrue h => simp only [asDouble,toInt_toInt32 h]
  case isFalse => rfl

/-- A number other than the negative zero comes back unchanged. -/
theorem asDouble_rereadDouble {x : Double} (hzero : x≠Binary.zero true) :
    asDouble lib (rereadDouble x)=some x := by
  unfold rereadDouble
  rw [if_neg hzero]
  split
  case isFalse => rfl
  case isTrue heq =>
    rw [asDouble_rereadLong]
    rcases eq_of_numericEq heq with hsame | ⟨hfin,hunits⟩
    · rw [←hsame]
    · have hx := Binary.eq_zero_of_units (by decide) hfin hunits
      cases hsign : x.negative with
      | true =>
        rw [hsign] at hx
        exact absurd hx hzero
      | false =>
        rw [hx,hsign]
        decide +kernel

end Rereading

end MsnGuard.JsonValues
