import Mathlib.Tactic

/-! JSON values as `serde_json` holds them, with the accessors and integer conversions a reader of
messages needs. An object is its entries in key order, each key once. -/

namespace Arcen.Json

/-- A JSON number: negative integers are kept apart from the others, and a float is finite, given by the
bits of its binary64 format. -/
inductive Number where
  | posInt (value : UInt64)
  | negInt (value : Int64) (negative : value < 0)
  | float (bits : UInt64) (finite : (bits >>> 52) &&& 0x7ff ≠ 0x7ff)

inductive Value where
  | null
  | bool (value : Bool)
  | number (value : Number)
  | string (value : String)
  | array (items : List Value)
  | object (entries : List (String × Value))

namespace Number

/-- Floats compare as numbers: the two zeros are equal. -/
def beq : Number → Number → Bool
  | .posInt a, .posInt b => a == b
  | .negInt a _, .negInt b _ => a == b
  | .float a _, .float b _ => a == b || (a <<< 1 == 0 && b <<< 1 == 0)
  | _, _ => false

def ofI64 (value : Int64) : Number :=
  if h : value < 0 then .negInt value h else .posInt (UInt64.ofNat value.toInt.toNat)

def integer : Number → Option Int
  | .posInt value => some value.toNat
  | .negInt value _ => some value.toInt
  | .float _ _ => none

theorem integer_ofI64 (value : Int64) : (ofI64 value).integer = some value.toInt := by
  unfold ofI64
  split
  · rfl
  · next h =>
      have hnonn : 0 ≤ value.toInt := by
        rw [Int64.lt_iff_toInt_lt] at h
        exact Int.not_lt.mp h
      have hlt : value.toInt.toNat < UInt64.size := by
        have := value.toInt_lt
        have hsize : UInt64.size = 2 ^ 64 := rfl
        omega
      rw [integer, UInt64.toNat_ofNat_of_lt' hlt, Int.toNat_of_nonneg hnonn]

end Number

/-! ### Equality -/

mutual

def Value.beq : Value → Value → Bool
  | .null, .null => true
  | .bool a, .bool b => a == b
  | .number a, .number b => a.beq b
  | .string a, .string b => a == b
  | .array a, .array b => itemsBeq a b
  | .object a, .object b => entriesBeq a b
  | _, _ => false
termination_by structural a => a

def itemsBeq : List Value → List Value → Bool
  | [], [] => true
  | a :: as, b :: bs => a.beq b && itemsBeq as bs
  | _, _ => false
termination_by structural a => a

def entriesBeq : List (String × Value) → List (String × Value) → Bool
  | [], [] => true
  | a :: as, b :: bs => entryBeq a b && entriesBeq as bs
  | _, _ => false
termination_by structural a => a

def entryBeq : String × Value → String × Value → Bool
  | (key, a), (other, b) => key == other && a.beq b
termination_by structural a => a

end

instance : BEq Value := ⟨Value.beq⟩

/-! ### Access -/

/-- A checked conversion to `i32`. -/
def i32TryFrom (value : Int) : Option Int32 :=
  if -2 ^ 31 ≤ value ∧ value < 2 ^ 31 then some (Int32.ofInt value) else none

theorem i32TryFrom_toInt (value : Int32) : i32TryFrom value.toInt = some value := by
  rw [i32TryFrom, if_pos ⟨value.le_toInt, value.toInt_lt⟩, Int32.ofInt_toInt]

theorem toInt_of_i32TryFrom (h : i32TryFrom value = some result) : result.toInt = value := by
  unfold i32TryFrom at h
  split at h
  · next hrng =>
      cases h
      exact Int32.toInt_ofInt_of_le hrng.1 hrng.2
  · cases h

namespace Value

def get (value : Value) (key : String) : Option Value :=
  match value with
  | .object entries => entries.lookup key
  | _ => none

def asStr : Value → Option String
  | .string value => some value
  | _ => none

theorem asStr_eq_some {value : Value} : value.asStr = some text ↔ value = .string text := by
  cases value <;> simp [asStr]

def asBool : Value → Option Bool
  | .bool value => some value
  | _ => none

/-- Deserialises an `i32`. -/
def toI32 : Value → Option Int32
  | .number value => value.integer.bind i32TryFrom
  | _ => none

/-- Deserialises a `u64`. -/
def toU64 : Value → Option UInt64
  | .number (.posInt value) => some value
  | _ => none

/-- Serialises an `i32`. -/
def ofI32 (value : Int32) : Value := .number (.ofI64 value.toInt64)

/-- Serialises a `u64`. -/
def ofU64 (value : UInt64) : Value := .number (.posInt value)

@[simp] theorem toI32_ofI32 (value : Int32) : (ofI32 value).toI32 = some value := by
  rw [ofI32, toI32, Number.integer_ofI64, Int32.toInt_toInt64, Option.bind_some, i32TryFrom_toInt]

@[simp] theorem toU64_ofU64 (value : UInt64) : (ofU64 value).toU64 = some value := rfl

/-- The field of a struct that is serialised as an object, or as an array in field order. -/
def field (value : Value) (index : Nat) (name : String) : Option Value :=
  match value with
  | .array items => items[index]?
  | _ => value.get name

/-- A struct of so many fields, all of them with defaults: an object, or an array no longer than that. -/
def isStruct (value : Value) (fields : Nat) : Bool :=
  match value with
  | .array items => items.length ≤ fields
  | .object _ => true
  | _ => false

end Value

/-- A field with a default: only a missing field takes it. -/
def orDefault {α : Type} (decode : Value → Option α) (default : α) : Option Value → Option α
  | none => some default
  | some value => decode value

@[simp] theorem orDefault_some (decode : Value → Option α) (default : α) (value : Value) :
    orDefault decode default (some value) = decode value := rfl

end Arcen.Json
