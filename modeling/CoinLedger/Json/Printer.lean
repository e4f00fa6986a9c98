import CoinLedger.Json.Text
import CoinLedger.Json.Basic

/-!
The two written forms of a document: compact, without white space, and indented by two spaces with
one item or member on each line. Empty arrays and objects are a pair of brackets in both.
-/

namespace CoinLedger.Json

def quote (raw : List UInt8) : List UInt8 := 0x22 :: raw ++ [0x22]

def scalarBytes : Json → List UInt8
  | .null => Text.utf8 "null"
  | .bool true => Text.utf8 "true"
  | .bool false => Text.utf8 "false"
  | .number n => n.bytes
  | .string raw => quote raw
  | _ => []

mutual

def compact : Json → List UInt8
  | .array [] => [0x5b, 0x5d]
  | .array (v :: items) => 0x5b :: compact v ++ compactItems items ++ [0x5d]
  | .object [] => [0x7b, 0x7d]
  | .object ((k, v) :: members) =>
    0x7b :: quote k ++ 0x3a :: compact v ++ compactMembers members ++ [0x7d]
  | v => scalarBytes v

def compactItems : List Json → List UInt8
  | [] => []
  | v :: items => 0x2c :: compact v ++ compactItems items

def compactMembers : List (List UInt8 × Json) → List UInt8
  | [] => []
  | (k, v) :: members => 0x2c :: quote k ++ 0x3a :: compact v ++ compactMembers members

end

def newline (level : Nat) : List UInt8 := 0x0a :: List.replicate (2 * level) 0x20

mutual

def indented (level : Nat) : Json → List UInt8
  | .array [] => [0x5b, 0x5d]
  | .array (v :: items) =>
    0x5b :: newline (level + 1) ++ indented (level + 1) v ++ indentedItems (level + 1) items ++
      newline level ++ [0x5d]
  | .object [] => [0x7b, 0x7d]
  | .object ((k, v) :: members) =>
    0x7b :: newline (level + 1) ++ quote k ++ 0x3a :: 0x20 :: indented (level + 1) v ++
      indentedMembers (level + 1) members ++ newline level ++ [0x7d]
  | v => scalarBytes v

def indentedItems (level : Nat) : List Json → List UInt8
  | [] => []
  | v :: items => 0x2c :: newline level ++ indented level v ++ indentedItems level items

def indentedMembers (level : Nat) : List (List UInt8 × Json) → List UInt8
  | [] => []
  | (k, v) :: members =>
    0x2c :: newline level ++ quote k ++ 0x3a :: 0x20 :: indented level v ++
      indentedMembers level members

end

def pretty (v : Json) : List UInt8 := indented 0 v

end CoinLedger.Json
