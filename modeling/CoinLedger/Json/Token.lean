import CoinLedger.Json.Basic

/-!
The tokens of a JSON text. White space is the space, the tab and the two line ends, and nothing
else. A string token keeps its bytes as written: they are checked for the shape of their escapes
only, and need not be a text.
-/

namespace CoinLedger.Json

/-- A punctuation mark, a string, or any other scalar. -/
inductive Token where
  | beginObject
  | endObject
  | beginArray
  | endArray
  | comma
  | colon
  | string (raw : List UInt8)
  | atom (value : Json)

def isSpace (b : UInt8) : Bool := b == 0x20 || b == 0x09 || b == 0x0a || b == 0x0d

/-- A byte of a number, of `null`, `true` or `false`. -/
def isWordByte (b : UInt8) : Bool :=
  (0x30 ≤ b && b ≤ 0x39) || (0x61 ≤ b && b ≤ 0x7a) || (0x41 ≤ b && b ≤ 0x5a) ||
    b == 0x2b || b == 0x2d || b == 0x2e

def isHexByte (b : UInt8) : Bool :=
  (0x30 ≤ b && b ≤ 0x39) || (0x61 ≤ b && b ≤ 0x66) || (0x41 ≤ b && b ≤ 0x46)

/-- A byte that may follow a backslash, other than the `u` of a code unit. -/
def isShortEscape (b : UInt8) : Bool :=
  b == 0x22 || b == 0x5c || b == 0x2f || b == 0x62 || b == 0x66 || b == 0x6e || b == 0x72 ||
    b == 0x74

def punctuation? (b : UInt8) : Option Token :=
  if b = 0x7b then some .beginObject
  else if b = 0x7d then some .endObject
  else if b = 0x5b then some .beginArray
  else if b = 0x5d then some .endArray
  else if b = 0x2c then some .comma
  else if b = 0x3a then some .colon
  else none

def atom? (word : List UInt8) : Option Json :=
  if word = Text.utf8 "null" then some .null
  else if word = Text.utf8 "true" then some (.bool true)
  else if word = Text.utf8 "false" then some (.bool false)
  else (Numeral.ofBytes? word).map .number

/-- Where a string's bytes stand with respect to escapes. -/
inductive Escaping where
  | plain
  | backslash
  | hex (left : Nat)

/-- What the bytes read last belong to; the bytes themselves are kept in reverse. -/
inductive Mode where
  | between
  | word (rev : List UInt8)
  | string (rev : List UInt8) (escaping : Escaping)

/-- The tokens so far, in reverse, and the mode. -/
structure Lexer where
  tokens : List Token
  mode : Mode

namespace Lexer

def start (tokens : List Token) (b : UInt8) : Option Lexer :=
  if isSpace b then some ⟨tokens, .between⟩
  else if b = 0x22 then some ⟨tokens, .string [] .plain⟩
  else if isWordByte b then some ⟨tokens, .word [b]⟩
  else (punctuation? b).map fun t => ⟨t :: tokens, .between⟩

def inString (tokens : List Token) (rev : List UInt8) (b : UInt8) : Escaping → Option Lexer
  | .plain =>
    if b = 0x22 then some ⟨.string rev.reverse :: tokens, .between⟩
    else if b = 0x5c then some ⟨tokens, .string (b :: rev) .backslash⟩
    else if b < 0x20 then none
    else some ⟨tokens, .string (b :: rev) .plain⟩
  | .backslash =>
    if b = 0x75 then some ⟨tokens, .string (b :: rev) (.hex 3)⟩
    else if isShortEscape b then some ⟨tokens, .string (b :: rev) .plain⟩
    else none
  | .hex left =>
    if isHexByte b then
      some ⟨tokens, .string (b :: rev) (match left with | 0 => .plain | n + 1 => .hex n)⟩
    else none

/-- One more byte. A word ends at the first byte that cannot belong to it. -/
def step (l : Lexer) (b : UInt8) : Option Lexer :=
  match l.mode with
  | .between => start l.tokens b
  | .word rev =>
    if isWordByte b then some ⟨l.tokens, .word (b :: rev)⟩
    else (atom? rev.reverse).bind fun value => start (.atom value :: l.tokens) b
  | .string rev escaping => inString l.tokens rev b escaping

def finish (l : Lexer) : Option (List Token) :=
  match l.mode with
  | .between => some l.tokens.reverse
  | .word rev => (atom? rev.reverse).map fun value => (Token.atom value :: l.tokens).reverse
  | .string _ _ => none

end Lexer

def tokens? (bytes : List UInt8) : Option (List Token) :=
  (bytes.foldlM Lexer.step ⟨[], .between⟩).bind Lexer.finish

end CoinLedger.Json
