/-!
Options on a command line. An option is told by its long name, stands at most once unless it takes
several values, and takes them from the words after it or from behind an equals sign. A word that
starts with a dash can only be given behind an equals sign. Scanning stops at the first word that
belongs to no option.
-/

namespace CoinLedger.Options

/-- What an option takes. A path is a text that is not empty. -/
inductive Takes where
  | nothing
  | text
  | path
  | texts
  deriving DecidableEq, Repr

inductive Refusal where
  | usage
  | help
  deriving DecidableEq, Repr

/-- The long names of options with what they take, and the short names of flags. -/
structure Grammar where
  long : List (String × Takes)
  short : List (Char × String)

/-- The options that were given, with their values in order. -/
abbrev Found := List (String × List String)

/-- The options so far, and one that may still take words. -/
structure Scan where
  found : Found
  waiting : Option (String × Takes × List String)

inductive Token where
  | separator
  | long (name : String) (value : Option String)
  | short (letters : List Char)
  | word (text : String)
  deriving DecidableEq, Repr

/-- A single dash is a word. -/
def Token.ofText (text : String) : Token :=
  match text.toList with
  | ['-', '-'] => .separator
  | '-' :: '-' :: cs =>
    match cs.dropWhile (· ≠ '=') with
    | _ :: value => .long (String.ofList (cs.takeWhile (· ≠ '='))) (some (String.ofList value))
    | [] => .long (String.ofList cs) none
  | '-' :: c :: cs => .short (c :: cs)
  | _ => .word text

def add (found : Found) (name : String) (takes : Takes) (values : List String) :
    Except Refusal Found :=
  match takes, found.lookup name, values with
  | .nothing, none, [] | .text, none, [_] => .ok ((name, values) :: found)
  | .path, none, [path] => if path = "" then .error .usage else .ok ((name, values) :: found)
  | .texts, none, _ :: _ => .ok ((name, values) :: found)
  | .texts, some earlier, _ :: _ => .ok ((name, earlier ++ values) :: found)
  | _, _, _ => .error .usage

/-- The options with the one that was waiting. -/
def Scan.close (s : Scan) : Except Refusal Found :=
  match s.waiting with
  | none => .ok s.found
  | some (name, takes, values) => add s.found name takes values

/-- What becomes of the waiting option when a word follows, if it takes the word. -/
def Scan.take? (s : Scan) (word : String) : Option Scan :=
  match s.waiting with
  | some (name, .texts, values) => some { s with waiting := some (name, .texts, values ++ [word]) }
  | some (name, takes, []) => some { s with waiting := some (name, takes, [word]) }
  | _ => none

def Grammar.addLong (g : Grammar) (found : Found) (name : String) (value : Option String) :
    Except Refusal Scan :=
  match g.long.lookup name, value with
  | some .nothing, none => (add found name .nothing []).map (⟨·, none⟩)
  | some .nothing, some _ => .error .usage
  | some takes, none => .ok ⟨found, some (name, takes, [])⟩
  | some takes, some value => (add found name takes [value]).map (⟨·, none⟩)
  | none, none => .error (if name = "help" then .help else .usage)
  | none, some _ => .error .usage

def Grammar.addShort (g : Grammar) (found : Found) (letter : Char) : Except Refusal Found :=
  match g.short.lookup letter with
  | some name => add found name .nothing []
  | none => .error (if letter = 'h' then .help else .usage)

/-- The options in front of the first word that belongs to none, that word, and what follows it.
The last option may still be waiting. -/
def Grammar.scan (g : Grammar) (s : Scan) :
    List String → Except Refusal (Scan × Option (String × List String))
  | [] => .ok (s, none)
  | text :: rest => do
    match Token.ofText text with
    | .separator => if rest = [] then return (s, none) else .error .usage
    | .long name value => g.scan (← g.addLong (← s.close) name value) rest
    | .short letters => g.scan ⟨← letters.foldlM g.addShort (← s.close), none⟩ rest
    | .word word =>
      match s.take? word with
      | some s => g.scan s rest
      | none => return (s, some (word, rest))

def value? (found : Found) (name : String) : Option String :=
  (found.lookup name).bind List.head?

end CoinLedger.Options
