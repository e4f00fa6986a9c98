/-!
Paths as texts. A path is its components between slashes; slashes in a row and a component that is
a single dot stand for nothing, except a dot in front. What remains after a component is taken off
keeps its spelling. Main statement: a parent is shorter than its path, so that going up ends.
-/

namespace CoinLedger.Path

/-- How many characters at the start of a path are no component to take off by name: the root, or
the dot of the working directory. -/
def leadSize : List Char → Nat
  | '/' :: _ => 1
  | ['.'] => 1
  | '.' :: '/' :: _ => 1
  | _ => 0

/-- The rest of a reversed path after trailing slashes and dots that stand for nothing. -/
def dropIdle : List Char → List Char
  | '/' :: rest => dropIdle rest
  | ['.'] => []
  | '.' :: '/' :: rest => dropIdle rest
  | cs => cs

theorem length_dropIdle_le (cs : List Char) : (dropIdle cs).length ≤ cs.length := by
  fun_induction dropIdle cs with
  | case1 rest ih => exact Nat.le_succ_of_le ih
  | case2 => exact Nat.zero_le _
  | case3 rest ih => exact Nat.le_succ_of_le (Nat.le_succ_of_le ih)
  | case4 => exact Nat.le_refl _

/-- The rest of a reversed path after its last component and the slash in front of it. -/
def dropName (cs : List Char) : List Char := (cs.dropWhile (· ≠ '/')).drop 1

def lead (cs : List Char) : List Char := cs.take (leadSize cs)

/-- The components of a path after its lead, in one reversed text. -/
def reversedBody (cs : List Char) : List Char := dropIdle (cs.drop (leadSize cs)).reverse

/-- The directory that holds what a path names: none for a root, and the empty path for a single
component. -/
def parentOf? (cs : List Char) : Option (List Char) :=
  match reversedBody cs with
  | [] => if lead cs = ['.'] then some [] else none
  | c :: body => some (lead cs ++ (dropIdle (dropName (c :: body))).reverse)

theorem length_dropName_lt {c : Char} {body : List Char} :
    (dropName (c :: body)).length < (c :: body).length := by
  have h : ((c :: body).dropWhile (· ≠ '/')).length ≤ (c :: body).length :=
    (List.dropWhile_sublist _).length_le
  rw [dropName, List.length_drop]
  simp only [List.length_cons] at h ⊢
  omega

theorem length_parentOf?_lt {cs parent : List Char} (h : parentOf? cs = some parent) :
    parent.length < cs.length := by
  unfold parentOf? at h
  split at h
  · split at h
    · next hl =>
      cases h
      cases cs with
      | nil => simp [lead] at hl
      | cons => simp
    · exact nomatch h
  · next c body hb =>
    cases h
    have h₁ := length_dropIdle_le (dropName (c :: body))
    have h₂ : (dropName (c :: body)).length < (c :: body).length := length_dropName_lt
    have h₃ := length_dropIdle_le (cs.drop (leadSize cs)).reverse
    rw [← reversedBody, hb] at h₃
    simp only [lead, List.length_append, List.length_take, List.length_reverse,
      List.length_drop] at *
    omega

def parent? (path : String) : Option String := (parentOf? path.toList).map String.ofList

/-- A path and the directories around it, from the inside out, without the empty path. -/
def lineageOf (cs : List Char) : List (List Char) :=
  if cs = [] then []
  else cs :: match _h : parentOf? cs with
    | some parent => lineageOf parent
    | none => []
termination_by cs.length
decreasing_by exact length_parentOf?_lt _h

def lineage (path : String) : List String := (lineageOf path.toList).map String.ofList

/-- A name inside a directory; the empty path is the working directory. -/
def join (directory name : String) : String :=
  if directory = "" ∨ directory.toList.getLast? = some '/' then directory ++ name
  else directory ++ "/" ++ name

/-- The name of a component without what follows its last dot. A dot in front begins no
extension. -/
def stem (name : List Char) : List Char :=
  match name.reverse.dropWhile (· ≠ '.') with
  | _ :: c :: rest => (c :: rest).reverse
  | _ => name

/-- The path whose last component ends in the extension given, in place of any it had. A path
without a last name stays as it is. When a name at the very end is two dots and an extension, the
extension goes and none takes its place, since the dots alone lead to the directory above. -/
def withExtension (path extension : String) : String :=
  let body := reversedBody path.toList
  let name := (body.takeWhile (· ≠ '/')).reverse
  let before := lead path.toList ++ (body.dropWhile (· ≠ '/')).reverse
  if name = [] ∨ name = ['.', '.'] then path
  else if stem name = ['.'] ∧ before ++ name = path.toList then
    String.ofList (before ++ ['.', '.'])
  else String.ofList (before ++ stem name ++ '.' :: extension.toList)

def trimSlashes (path : String) : String :=
  match path.toList.reverse.dropWhile (· = '/') with
  | [] => if path = "" then "" else "/"
  | cs => String.ofList cs.reverse

/-- The components of a path, empty ones included. -/
def componentsOf : List Char → List (List Char)
  | [] => [[]]
  | '/' :: rest => [] :: componentsOf rest
  | c :: rest =>
    match componentsOf rest with
    | name :: names => (c :: name) :: names
    | [] => [[c]]

def components (path : String) : List String := (componentsOf path.toList).map String.ofList

/-- The last component is a name, and neither a root nor dots that lead elsewhere. -/
def isNamed (path : String) : Bool :=
  match (components (trimSlashes path)).getLast? with
  | some name => name ∉ ["", ".", ".."]
  | none => false

end CoinLedger.Path
