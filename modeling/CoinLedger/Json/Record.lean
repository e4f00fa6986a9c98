import CoinLedger.Json.Basic
import CoinLedger.Json.Text

/-!
Values out of documents. A record is an object, in which every known key stands once and other
keys are passed over, or an array of exactly its fields in order. What is passed over is not looked
at again; only inside the members of an input are unknown values asked to be readable.
-/

namespace CoinLedger.Json

/-- How many arrays and objects may be open around a value that is read in full. -/
def depthLimit : Nat := 127

def ofFields (fields : List (String × Json)) : Json :=
  .object (fields.map fun (name, v) => (rawText name, v))

def ofText (s : String) : Json := .string (rawText s)

def ofInt (n : Int) : Json := .number (.ofInt n)

def asText? : Json → Option String
  | .string raw => text? raw
  | _ => none

/-- The integer of a number document, if it lies between two bounds. -/
def asInt? (least greatest : Int) : Json → Option Int
  | .number n => n.integer?.filter fun i => least ≤ i && i ≤ greatest
  | _ => none

def asUInt64? (v : Json) : Option UInt64 :=
  (v.asInt? 0 (UInt64.size - 1)).map fun i => UInt64.ofNat i.toNat

def asUInt32? (v : Json) : Option UInt32 :=
  (v.asInt? 0 (UInt32.size - 1)).map fun i => UInt32.ofNat i.toNat

def asInt64? (v : Json) : Option Int64 :=
  (v.asInt? Int64.minValue.toInt Int64.maxValue.toInt).map Int64.ofInt

def asArray? : Json → Option (List Json)
  | .array items => some items
  | _ => none

/-- The members of an object document, all of whose keys must be texts. -/
def asMembers? : Json → Option (List (String × Json))
  | .object members => members.mapM fun (k, v) => (text? k).map (·, v)
  | _ => none

def valuesOf (name : String) (members : List (String × Json)) : List Json :=
  members.filterMap fun (k, v) => if k = name then some v else none

/-- The value under a key that must stand exactly once. -/
def required? (name : String) (members : List (String × Json)) : Option Json :=
  match valuesOf name members with
  | [v] => some v
  | _ => none

/-- The value under a key that may be missing, in which case it is null, but not be repeated. -/
def optional? (name : String) (members : List (String × Json)) : Option Json :=
  match valuesOf name members with
  | [] => some .null
  | [v] => some v
  | _ => none

/-- The fields of a record, in order. -/
def record? (names : List String) : Json → Option (List Json)
  | .array items => if items.length = names.length then some items else none
  | v => do names.mapM (required? · (← v.asMembers?))

/-- A one-word choice: the word, or an object whose only member has the word as key and null as
value. -/
def asWord? : Json → Option String
  | .string raw => text? raw
  | .object [(k, .null)] => text? k
  | _ => none

mutual

/-- Strings and keys are texts, numbers lie in the range of a double, and no more than `levels`
arrays and objects are open around one another. -/
def isReadable (levels : Nat) : Json → Bool
  | .null => true
  | .bool _ => true
  | .number n => !n.exceedsDouble
  | .string raw => (text? raw).isSome
  | .array items => 0 < levels && areReadable (levels - 1) items
  | .object members => 0 < levels && areMembersReadable (levels - 1) members

def areReadable (levels : Nat) : List Json → Bool
  | [] => true
  | v :: items => isReadable levels v && areReadable levels items

def areMembersReadable (levels : Nat) : List (List UInt8 × Json) → Bool
  | [] => true
  | (k, v) :: members =>
    (text? k).isSome && isReadable levels v && areMembersReadable levels members

end

end CoinLedger.Json
