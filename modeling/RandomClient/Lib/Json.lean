import RandomClient.Lib.Text

/-!
# JSON values

A parsed JSON document, and the lookups and conversions by which a client reads
it. A parser keeps one entry per key, so the first entry of a key is its value.
-/

namespace Json

/-- The largest `u32`. -/
abbrev u32Limit : Nat := 4294967295

/-- The largest `u64`. -/
abbrev u64Limit : Nat := 18446744073709551615

/-- The largest `i64`. -/
abbrev i64Limit : Nat := 9223372036854775807

/-- A number as the parser keeps it. Neither integer form holds a fraction or
more than 64 bits. -/
inductive Number where
  | posInt (n : UInt64)
  | negInt (n : Int64)
  | float

inductive Value where
  | null
  | bool (b : Bool)
  | number (n : Number)
  | string (text : List Char)
  | array (items : List Value)
  | object (fields : List (String × Value))

namespace Number

def asU64 : Number → Option Nat
  | .posInt n => some n.toNat
  | .negInt _ | .float => none

def asI64 : Number → Option Int
  | .posInt n => if n.toNat ≤ i64Limit then some n.toNat else none
  | .negInt n => some n.toInt
  | .float => none

end Number

namespace Value

/-- The value of a key. Only an object has keys. -/
def get (value : Value) (key : String) : Option Value :=
  match value with
  | .object fields => fields.lookup key
  | .null | .bool _ | .number _ | .string _ | .array _ => none

def isNull : Value → Bool
  | .null => true
  | _ => false

def asStr : Value → Option (List Char)
  | .string text => some text
  | _ => none

def asArray : Value → Option (List Value)
  | .array items => some items
  | _ => none

def asU64 : Value → Option Nat
  | .number n => n.asU64
  | _ => none

def asI64 : Value → Option Int
  | .number n => n.asI64
  | _ => none

/-- The number as a parser keeps it. -/
def ofNat (n : Nat) : Value := .number (.posInt (UInt64.ofNat n))

/-- A decimal number below the limit, read from a text. -/
def parseText (limit : Nat) (text : List Char) : Option Nat :=
  (Text.fromStrRadix limit 10 (Text.utf8 text)).toOption

theorem asU64_ofNat {n : Nat} (h : n ≤ u64Limit) : (ofNat n).asU64 = some n := by
  have hfits : n < UInt64.size := Nat.lt_succ_of_le h
  exact congrArg some (UInt64.toNat_ofNat_of_lt' hfits)

theorem isNull_iff {value : Value} : value.isNull = true ↔ value = .null := by
  cases value with
  | null => simp [isNull]
  | _ => simp [isNull]

/-- Only an object answers a lookup. -/
theorem exists_object_of_get {value found : Value} {key : String}
    (h : value.get key = some found) : ∃ fields, value = .object fields := by
  cases value with
  | object fields => exact ⟨fields, rfl⟩
  | _ => cases h

end Value

end Json
