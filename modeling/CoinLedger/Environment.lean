import CoinLedger.EnvFile.Lines
import CoinLedger.EnvFile.Value

/-!
Variables by name, and how a file adds to them: an assignment counts only for a variable that is
not set yet, and everything from the first faulty line on is passed over. A value with a NUL in it
cannot be held.
-/

namespace CoinLedger

/-- Variables as texts of a name, an equals sign and a value. -/
structure Environment where
  entries : List String

namespace Environment

def entry (name value : String) : String := name ++ "=" ++ value

def ofBindings (bindings : List (String × String)) : Environment :=
  ⟨bindings.map fun (name, value) => entry name value⟩

/-- What follows a name and an equals sign in the first text that starts with them. A name with an
equals sign in it can thus reach into a value. -/
def get? (e : Environment) (name : String) : Option String :=
  if name = "" then none
  else e.entries.findSome? fun text =>
    ((entry name "").toList.isPrefixOf? text.toList).map String.ofList

/-- The environment with a variable unless it is set. A NUL ends a text, and so none can be set to a
value that holds one. -/
def setNew? (e : Environment) (name value : String) : Option Environment :=
  if (e.get? name).isSome then some e
  else if '\x00' ∈ value.toList then none
  else some ⟨e.entries ++ [entry name value]⟩

end Environment

namespace EnvFile

def isNameChar (c : Char) : Bool := c.isAlphanum || c == '_' || c == '.'

def name? (cs : List Char) : Option (List Char × List Char) :=
  match cs with
  | c :: _ =>
    if c.isAlpha || c == '_' then
      some (cs.takeWhile isNameChar, Text.trimLeft (cs.dropWhile isNameChar))
    else none
  | [] => none

/-- The name and the text after the sign of an assignment. The word `export` may stand in front,
and may be a name itself. -/
def target? (cs : List Char) : Option (List Char × List Char) := do
  match ← name? cs with
  | (name, '=' :: rest) => return (name, Text.trimLeft rest)
  | (name, rest) =>
    if name = "export".toList then
      match ← name? rest with
      | (name, '=' :: rest) => return (name, Text.trimLeft rest)
      | _ => none
    else none

/-- Nothing more is said by a text. -/
def isVoid (cs : List Char) : Bool := cs.isEmpty || cs.head? == some '#'

inductive Line where
  | void
  | assignment (name value : String)
  | faulty
  deriving DecidableEq, Repr

def assignment? (lookup : String → Option String) (cs : List Char) : Option (String × String) := do
  let (name, rest) ← target? cs
  let value ← if isVoid rest then some [] else value lookup rest
  return (String.ofList name, String.ofList value)

def Line.ofText (lookup : String → Option String) (line : List Char) : Line :=
  let cs := Text.trimLeft (Text.trimRight line)
  if isVoid cs then .void
  else
    match assignment? lookup cs with
    | some (name, value) => .assignment name value
    | none => .faulty

/-- The environment after the lines before the first faulty one, unless a value cannot be held. -/
def assignAll? (e : Environment) : List (Option (List Char)) → Option Environment
  | some text :: lines =>
    match Line.ofText e.get? text with
    | .void => assignAll? e lines
    | .assignment name value => (e.setNew? name value).bind fun e => assignAll? e lines
    | .faulty => some e
  | _ => some e

end EnvFile

/-- The environment with what a file adds, unless a value cannot be held. -/
def Environment.load? (e : Environment) (bytes : List UInt8) : Option Environment :=
  EnvFile.assignAll? e (EnvFile.lines bytes)

end CoinLedger
