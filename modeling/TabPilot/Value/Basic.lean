import TabPilot.Value.Record
import TabPilot.Decimal.Binary64

set_option autoImplicit false

/-! # Values

The values of scripts and of protocol messages. Integers are those of 64 bits, signed or
unsigned; a float is a finite binary64 number. An integer and a float are different values
even when they are the same number, which is why scripts keep whole floats of moderate size
as integers (`ofFloat`, `normalize`).
-/

namespace TabPilot

/-- A value: what variables hold and what messages carry. -/
inductive Value
  | null
  | bool (b : Bool)
  | int (i : Int)
  | float (f : Float)
  | string (s : String)
  | array (items : List Value)
  | object (members : Record Value)

namespace Value

instance : Inhabited Value := ⟨.null⟩

def typeName : Value → String
  | .null => "null"
  | .bool _ => "bool"
  | .int _ => "int"
  | .float _ => "float"
  | .string _ => "string"
  | .array _ => "array"
  | .object _ => "object"

/-- The object with the given members; of two with one name the later counts. -/
def ofMembers (members : List (String × Value)) : Value := .object (Record.ofList members)

def isNull : Value → Bool
  | .null => true
  | _ => false

/-! ## Whole numbers -/

/-- The value of a number computed in binary64: an integer when the number is whole and of
magnitude at most `2 ^ 53`, `null` when it is not finite. -/
def ofFloat (f : Float) : Value :=
  match Binary64.exactInt? f with
  | some i => .int i
  | none => if Binary64.isFinite f then .float f else .null

mutual

/-- Turns every whole float of moderate size, at any depth, into an integer. -/
def normalize : Value → Value
  | .float f => ofFloat f
  | .array items => .array (normalizeItems items)
  | .object ⟨entries⟩ => .object ⟨normalizeEntries entries⟩
  | v => v

def normalizeItems : List Value → List Value
  | [] => []
  | v :: rest => normalize v :: normalizeItems rest

def normalizeEntries : List (String × Value) → List (String × Value)
  | [] => []
  | (name, v) :: rest => (name, normalize v) :: normalizeEntries rest

end

/-! ## Identity -/

mutual

/-- Whether two values are the same value. No integer is the same as a float. -/
def same : Value → Value → Bool
  | .null, .null => true
  | .bool a, .bool b => a == b
  | .int a, .int b => a == b
  | .float a, .float b => a == b
  | .string a, .string b => a == b
  | .array a, .array b => sameItems a b
  | .object ⟨a⟩, .object ⟨b⟩ => sameEntries a b
  | _, _ => false

def sameItems : List Value → List Value → Bool
  | [], [] => true
  | a :: as, b :: bs => same a b && sameItems as bs
  | _, _ => false

def sameEntries : List (String × Value) → List (String × Value) → Bool
  | [], [] => true
  | (m, a) :: as, (n, b) :: bs => m == n && same a b && sameEntries as bs
  | _, _ => false

end

/-! ## Numbers as arithmetic sees them -/

/-- An integer of the signed 64-bit range, or a float. -/
inductive Numeric
  | int (i : Int)
  | float (f : Float)

def signed? : Value → Option Int
  | .int i => if i < Word.signedLimit then some i else none
  | _ => none

def unsigned? : Value → Option Nat
  | .int i => if 0 ≤ i then some i.toNat else none
  | _ => none

theorem signed?_eq_some_iff {v : Value} {i : Int} :
    v.signed? = some i ↔ v = .int i ∧ i < Word.signedLimit := by
  cases v with
  | int j =>
      rw [signed?, Option.ite_none_right_eq_some, Option.some.injEq, Value.int.injEq]
      constructor
      · rintro ⟨hsmall, rfl⟩
        exact ⟨rfl, hsmall⟩
      · rintro ⟨rfl, hsmall⟩
        exact ⟨hsmall, rfl⟩
  | _ => simp [signed?]

theorem unsigned?_eq_some_iff {v : Value} {n : Nat} : v.unsigned? = some n ↔ v = .int n := by
  cases v with
  | int j =>
      rw [unsigned?, Option.ite_none_right_eq_some, Option.some.injEq, Value.int.injEq]
      omega
  | _ => simp [unsigned?]

def toFloat? : Value → Option Float
  | .int i => some (Binary64.ofInt i)
  | .float f => some f
  | _ => none

/-- How arithmetic takes a value: integers beyond the signed range count as floats. -/
def numeric? (v : Value) : Option Numeric :=
  match v.signed?, v.toFloat? with
  | some i, _ => some (.int i)
  | none, some f => some (.float f)
  | none, none => none

def Numeric.toFloat : Numeric → Float
  | .int i => Binary64.ofInt i
  | .float f => f

def truthy : Value → Bool
  | .null => false
  | .bool b => b
  | .int i => i != 0
  | .float f => !(f == 0.0)
  | .string s => !s.isEmpty
  | .array items => !items.isEmpty
  | .object members => !members.isEmpty

end Value

end TabPilot
