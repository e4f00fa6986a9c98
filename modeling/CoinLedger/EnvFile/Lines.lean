import CoinLedger.Text.Basic

/-!
The lines of a file of variables. A quotation or a backslash that is open at the end of a line
carries it on to the next one, and a comment after white space ends it. A line that is no text, or
that the end of the file leaves open, is the last one that is looked at.
-/

namespace CoinLedger.EnvFile

inductive Openness where
  | closed
  | blank
  | escape
  | strong
  | strongEscape
  | weak
  | weakEscape
  deriving DecidableEq, Repr

namespace Openness

/-- Outside quotations, what a character that is no white space leads to. -/
def outside (c : Char) : Openness :=
  if c = '\\' then .escape
  else if c = '"' then .weak
  else if c = '\'' then .strong
  else .closed

/-- One more character of a line; a comment is looked for elsewhere. -/
def next (o : Openness) (c : Char) : Openness :=
  match o with
  | .closed => if Text.isBlank c ∧ c ≠ '\n' ∧ c ≠ '\r' then .blank else outside c
  | .blank => outside c
  | .escape => .closed
  | .strong => if c = '\\' then .strongEscape else if c = '\'' then .closed else .strong
  | .strongEscape => .strong
  | .weak => if c = '\\' then .weakEscape else if c = '"' then .closed else .weak
  | .weakEscape => .weak

end Openness

/-- The characters of a line before a comment, and where they end; nothing for the end if a
comment follows. -/
def beforeComment (o : Openness) : List Char → List Char × Option Openness
  | [] => ([], some o)
  | c :: rest =>
    if o = .blank ∧ c = '#' then ([], none)
    else
      let (kept, last) := beforeComment (o.next c) rest
      (c :: kept, last)

def withoutEnd (line : List Char) : List Char :=
  match line.reverse with
  | '\n' :: '\r' :: rest => rest.reverse
  | '\n' :: rest => rest.reverse
  | _ => line

/-- The lines that some rows of bytes make, `text` being open in front of them. Nothing stands for a
line that cannot be read. -/
def joined (text : List Char) (o : Openness) : List (List UInt8) → List (Option (List Char))
  | [] => if text = [] then [] else [none]
  | row :: rows =>
    match Text.ofUtf8? row with
    | none => [none]
    | some line =>
      let whole := text ++ line.toList
      if (Text.trimLeft whole).head? = some '#' then some [] :: joined [] .closed rows
      else
        match beforeComment o line.toList with
        | (kept, none) => some (text ++ kept) :: joined [] .closed rows
        | (_, some .closed) => some (withoutEnd whole) :: joined [] .closed rows
        | (_, some o) => joined whole o rows

/-- The bytes up to each line feed, it included. -/
def rowsOf : List UInt8 → List (List UInt8)
  | [] => []
  | b :: rest =>
    if b = 0x0a then [b] :: rowsOf rest
    else
      match rowsOf rest with
      | row :: rows => (b :: row) :: rows
      | [] => [[b]]

/-- The bytes after a byte order mark, if there is one in front. -/
def withoutMark : List UInt8 → List UInt8
  | 0xef :: 0xbb :: 0xbf :: rest => rest
  | bytes => bytes

def lines (bytes : List UInt8) : List (Option (List Char)) :=
  joined [] .closed (rowsOf (withoutMark bytes))

end CoinLedger.EnvFile
