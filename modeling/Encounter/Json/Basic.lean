import Encounter.Number.Binary64

/-!
# JSON values

Records keep their entries sorted by key, each key once, so that two records with the same entries
are the same value. A number is either whole or a `Binary64`; `1` and `1.0` differ.
-/

set_option autoImplicit false

namespace Encounter

/-- A JSON value. Whole numbers range from `-2 ^ 63` to `2 ^ 64 - 1`. -/
inductive Json where
  | null
  | bool (value : Bool)
  | int (value : Int)
  | float (value : Binary64)
  | string (value : String)
  | list (items : List Json)
  | record (entries : List (String × Json))
  deriving Inhabited

namespace Json

/-- Puts an entry in its place by key; an entry of that key is replaced. -/
def putEntry (key : String) (value : Json) : List (String × Json) → List (String × Json)
  | [] => [(key, value)]
  | (k, v) :: rest =>
    if key < k then (key, value) :: (k, v) :: rest
    else if key = k then (key, value) :: rest
    else (k, v) :: putEntry key value rest

/-- The record with the given entries; of two with one key the later counts. -/
def ofEntries (entries : List (String × Json)) : Json :=
  .record (entries.foldl (fun sorted (k, v) => putEntry k v sorted) [])

/-- The value under `key` in a list of entries. -/
def lookup (key : String) : List (String × Json) → Option Json
  | [] => none
  | (k, v) :: rest => if k = key then some v else lookup key rest

/-- The value under `key`; only records have one. -/
def get? : Json → String → Option Json
  | .record entries, key => lookup key entries
  | _, _ => none

/-- The text, if the value is one. -/
def asString? : Json → Option String
  | .string s => some s
  | _ => none

/-- The value as an unsigned 64-bit integer, if it is a whole number in range. -/
def asUInt64? : Json → Option UInt64
  | .int i => if 0 ≤ i ∧ i < 0x10000000000000000 then some (UInt64.ofNat i.toNat) else none
  | _ => none

/-- Is the value `null`? -/
def isNull : Json → Bool
  | .null => true
  | _ => false

mutual

/-- Equality of values: that of numbers goes by what they stand for, so both zeros are equal. -/
def sameValue : Json → Json → Bool
  | .null, .null => true
  | .bool a, .bool b => a == b
  | .int a, .int b => a == b
  | .float a, .float b => a.sameValue b
  | .string a, .string b => a == b
  | .list a, .list b => sameItems a b
  | .record a, .record b => sameEntries a b
  | _, _ => false

/-- Item by item equality of two lists. -/
def sameItems : List Json → List Json → Bool
  | [], [] => true
  | a :: as, b :: bs => sameValue a b && sameItems as bs
  | _, _ => false

/-- Entry by entry equality of two records. -/
def sameEntries : List (String × Json) → List (String × Json) → Bool
  | [], [] => true
  | (k, a) :: as, (l, b) :: bs => k == l && sameValue a b && sameEntries as bs
  | _, _ => false

end

end Json

end Encounter
