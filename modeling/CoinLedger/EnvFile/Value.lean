import CoinLedger.Text.Alphanumeric

/-!
The value on the right of an assignment. Strong quotations are taken as they are; elsewhere a
backslash escapes, and a dollar sign before a name, or before a name in braces, puts in the value
of a variable. After white space outside quotations only a comment may follow.
-/

namespace CoinLedger.EnvFile

/-- Where in a value a reader is; `weak` says whether a weak quotation is open. -/
inductive Reading where
  | text (weak : Bool)
  | escape (weak : Bool)
  | strong
  /-- After a dollar sign, with the name so far. -/
  | name (weak : Bool) (name : List Char)
  /-- After a dollar sign and a brace, with the name so far. -/
  | braced (weak : Bool) (name : List Char)
  /-- After white space outside quotations. -/
  | tail
  deriving DecidableEq, Repr

def escaped? (c : Char) : Option Char :=
  if c = 'n' then some '\n'
  else if c ∈ ['\\', '\'', '"', '$', ' '] then some c
  else none

variable (lookup : String → Option String)

/-- The value of a variable, empty if it has none. -/
def substitute (name : List Char) : List Char :=
  ((lookup (String.ofList name)).getD "").toList

/-- One character of a text outside strong quotations: what it adds, and where it leads. -/
def textStep (weak : Bool) (c : Char) : List Char × Reading :=
  if c = '$' then ([], .name weak [])
  else if c = '\\' then ([], .escape weak)
  else if weak then if c = '"' then ([], .text false) else ([c], .text true)
  else if c = '\'' then ([], .strong)
  else if c = '"' then ([], .text true)
  else if c = ' ' ∨ c = '\t' then ([], .tail)
  else ([c], .text false)

/-- The value that the rest of a text spells. A character that ends a name without braces stands
for itself. -/
def valueFrom : Reading → List Char → Option (List Char)
  | .text false, [] | .escape false, [] | .tail, [] => some []
  | .name false name, [] => some (substitute lookup name)
  | _, [] => none
  | .text weak, c :: rest =>
    let (added, r) := textStep weak c
    (valueFrom r rest).map (added ++ ·)
  | .escape weak, c :: rest => do
    let d ← escaped? c
    (valueFrom (.text weak) rest).map (d :: ·)
  | .strong, c :: rest =>
    if c = '\'' then valueFrom (.text false) rest else (valueFrom .strong rest).map (c :: ·)
  | .name weak name, c :: rest =>
    if Text.isAlphanumeric c then valueFrom (.name weak (name ++ [c])) rest
    else if c = '\x7b' ∧ name = [] then valueFrom (.braced weak []) rest
    else
      let put := substitute lookup name
      if c = '$' then (valueFrom (.name weak []) rest).map (put ++ ·)
      else (valueFrom (.text weak) rest).map (put ++ c :: ·)
  | .braced weak name, c :: rest =>
    if c = '\x7d' then (valueFrom (.text weak) rest).map (substitute lookup name ++ ·)
    else valueFrom (.braced weak (name ++ [c])) rest
  | .tail, c :: rest =>
    if c = ' ' ∨ c = '\t' then valueFrom .tail rest
    else if c = '#' then some []
    else none

def value (cs : List Char) : Option (List Char) := valueFrom lookup (.text false) cs

end CoinLedger.EnvFile
