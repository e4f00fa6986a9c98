import CoinLedger.Files.Tree
import CoinLedger.Proofs.Files.Disk

/-!
Files of the working directory in a tree of directories and files. Main statement: at such places, the
tree returns what was written.
-/

namespace CoinLedger

namespace FileTree

theorem lookup_filter_ne {α β : Type} [BEq α] [LawfulBEq α] [DecidableEq α] {key other : α}
    (ne : other ≠ key) (entries : List (α × β)) :
    (entries.filter fun old => old.1 ≠ key).lookup other = entries.lookup other := by
  induction entries with
  | nil => rfl
  | cons entry rest ih =>
    obtain ⟨name, value⟩ := entry
    rw [List.filter_cons]
    split
    · rw [List.lookup_cons, List.lookup_cons, ih]
    · next same =>
      have apart : (other == name) = false := beq_false_of_ne fun equal => by
        simp [← equal, ne] at same
      rw [ih, List.lookup_cons, apart]

variable (t : FileTree) {place other : List String} (e : Entry)

theorem slot?_set (inner : place ≠ []) : (t.set place e).slot? place = some e := by
  rw [slot?, if_neg inner, set, List.lookup_cons, beq_self_eq_true]

theorem slot?_set_other (ne : other ≠ place) :
    (t.set place e).slot? other = t.slot? other := by
  rw [slot?, slot?, set, List.lookup_cons, beq_false_of_ne ne, lookup_filter_ne ne]

theorem slot?_erase_other (ne : other ≠ place) :
    (t.erase place).slot? other = t.slot? other := by
  rw [slot?, slot?, erase, lookup_filter_ne ne]

theorem step_dot {t : FileTree} {place : List String} (inside : t.slot? place = some .directory) :
    t.step place "." = .ok place := by
  rw [step, inside]
  rfl

theorem step_outside {t : FileTree} {place : List String} (outside : t.slot? place ≠ some .directory)
    (name : String) : ∃ fault, t.step place name = .error fault := by
  unfold step
  split
  · exact ⟨_, rfl⟩
  · exact ⟨_, rfl⟩
  · next inside => exact absurd inside outside

theorem checkPath_eq {path : String} (some : path ≠ "") (fits : path.utf8ByteSize < pathLimit) :
    checkPath path = .ok () := by
  rw [checkPath, if_neg some, if_neg (Nat.not_le_of_lt fits)]

/-- The path to a name in the working directory, with a dot in front. -/
def inWorking (name : String) : String := Path.join "." name

/-- The name is no more than a name, and is found by its path. -/
structure IsLocal (name : String) : Prop where
  components : Path.components (inWorking name) = [".", name]
  relative : (inWorking name).front ≠ '/'
  trimmed : Path.trimSlashes (inWorking name) = inWorking name
  nonempty : inWorking name ≠ ""
  fits : (inWorking name).utf8ByteSize < pathLimit
  named : Path.isNamed (inWorking name) = true
  around : Path.lineage ((Path.parent? (inWorking name)).getD "") = ["."]
  plain : name ∉ ["", ".", ".."]
  short : name.utf8ByteSize ≤ nameLimit

namespace IsLocal

instance (name : String) : Decidable (IsLocal name) :=
  decidable_of_iff
    (Path.components (inWorking name) = [".", name] ∧ (inWorking name).front ≠ '/' ∧
      Path.trimSlashes (inWorking name) = inWorking name ∧ inWorking name ≠ "" ∧
      (inWorking name).utf8ByteSize < pathLimit ∧ Path.isNamed (inWorking name) = true ∧
      Path.lineage ((Path.parent? (inWorking name)).getD "") = ["."] ∧ name ∉ ["", ".", ".."] ∧
      name.utf8ByteSize ≤ nameLimit)
    ⟨fun ⟨components, relative, trimmed, nonempty, fits, named, around, plain, short⟩ =>
        ⟨components, relative, trimmed, nonempty, fits, named, around, plain, short⟩,
      fun h => ⟨h.components, h.relative, h.trimmed, h.nonempty, h.fits, h.named, h.around, h.plain,
        h.short⟩⟩

variable {name : String} (h : IsLocal name)

include h

theorem walk_inside (inside : t.slot? t.working = some .directory) :
    t.walk (inWorking name) = .ok (t.working ++ [name]) := by
  have plain := h.plain
  simp only [List.mem_cons, List.not_mem_nil, or_false, not_or] at plain
  obtain ⟨some, dot, dots⟩ := plain
  have there : t.step t.working name = .ok (t.working ++ [name]) := by
    rw [step, inside]
    dsimp only
    rw [if_neg (not_or.2 ⟨some, dot⟩), if_neg dots, if_neg (Nat.not_lt_of_le h.short)]
  rw [walk, h.components, if_neg h.relative]
  simp only [List.foldlM, step_dot inside, there, bind, Except.bind]
  rfl

/-- A working directory that is none has no names in it. -/
theorem walk_outside (outside : t.slot? t.working ≠ some .directory) :
    ∃ fault, t.walk (inWorking name) = .error fault := by
  obtain ⟨fault, here⟩ := step_outside outside "."
  refine ⟨fault, ?_⟩
  rw [walk, h.components, if_neg h.relative]
  simp only [List.foldlM, here, bind, Except.bind]

theorem locate_eq : t.locate (inWorking name) = t.walk (inWorking name) := by
  rw [locate, checkPath_eq h.nonempty h.fits]
  rfl

theorem locateName_inside (inside : t.slot? t.working = some .directory) :
    t.locateName (inWorking name) = .ok (t.working ++ [name], false) := by
  rw [locateName, checkPath_eq h.nonempty h.fits]
  simp only [h.trimmed, h.walk_inside t inside, bind, Except.bind, ne_eq, not_true_eq_false,
    decide_false]
  rfl

theorem locateName_outside (outside : t.slot? t.working ≠ some .directory) :
    ∃ fault, t.locateName (inWorking name) = .error fault := by
  obtain ⟨fault, walk⟩ := h.walk_outside t outside
  refine ⟨fault, ?_⟩
  rw [locateName, checkPath_eq h.nonempty h.fits]
  simp only [h.trimmed, walk, bind, Except.bind]

end IsLocal

/-- What reading an entry gives. -/
def reading : Entry → Except FileFault (List UInt8)
  | .directory => .error .directory
  | .file bytes => .ok bytes

theorem look_eq (path : String) :
    disk.look t path = if t.isThere path = true then some (t.read path) else none := by
  unfold Disk.look Disk.find?
  rw [Disk.run_bind]
  change ((if t.isThere path = true then _ else _ : StateM FileTree _) t).1 = _
  split <;> rfl

namespace IsLocal

variable {name : String} (h : IsLocal name)

include h

theorem look_inside (inside : t.slot? t.working = some .directory) :
    disk.look t (inWorking name) = (t.slot? (t.working ++ [name])).map reading := by
  have found : t.at? (inWorking name) =
      (t.slot? (t.working ++ [name])).elim (.error .missing) .ok := by
    rw [at?, h.locate_eq, h.walk_inside t inside]
    simp only [bind, Except.bind]
    cases t.slot? (t.working ++ [name]) <;> rfl
  rw [look_eq, isThere, read, found]
  cases t.slot? (t.working ++ [name]) with
  | none => rfl
  | some e => cases e <;> rfl

theorem look_outside (outside : t.slot? t.working ≠ some .directory) :
    disk.look t (inWorking name) = none := by
  obtain ⟨fault, walk⟩ := h.walk_outside t outside
  rw [look_eq, isThere, at?, h.locate_eq, walk]
  rfl

/-- What is found at the path is settled by the working directory and the entry at the name. -/
theorem look_congr {t next : FileTree} (working : next.working = t.working)
    (around : next.slot? t.working = t.slot? t.working)
    (entry : next.slot? (t.working ++ [name]) = t.slot? (t.working ++ [name])) :
    disk.look next (inWorking name) = disk.look t (inWorking name) := by
  by_cases inside : t.slot? t.working = some .directory
  · have still : next.slot? next.working = some .directory := by rw [working, around, inside]
    rw [h.look_inside t inside, h.look_inside next still, working, entry]
  · have still : next.slot? next.working ≠ some .directory := by rwa [working, around]
    rw [h.look_outside t inside, h.look_outside next still]

end IsLocal

theorem look_of_read {t : FileTree} {path : String} {bytes : List UInt8}
    (ok : t.read path = .ok bytes) : disk.look t path = some (.ok bytes) := by
  have found : t.isThere path = true := by
    unfold read at ok
    rw [isThere]
    cases found : t.at? path with
    | error fault =>
      rw [found] at ok
      exact nomatch ok
    | ok e => rfl
  rw [look_eq, if_pos found, ok]

/-- A change that is refused is none. -/
theorem attempt_cases (change : FileTree → Except FileFault FileTree) (t : FileTree) :
    (∃ fault, attempt change t = (.error fault, t)) ∨
      ∃ next, change t = .ok next ∧ attempt change t = (.ok (), next) := by
  unfold attempt
  cases change t with
  | error fault => exact .inl ⟨fault, rfl⟩
  | ok next => exact .inr ⟨next, rfl, rfl⟩

theorem put_cases (path : String) (bytes : List UInt8) (t : FileTree) :
    (∃ fault, disk.put path bytes t = (.error fault, t)) ∨
      ∃ next, t.put path bytes = .ok next ∧ disk.put path bytes t = (.ok (), next) :=
  attempt_cases (·.put path bytes) t

theorem rename_cases (source target : String) (t : FileTree) :
    (∃ fault, disk.rename source target t = (.error fault, t)) ∨
      ∃ next, t.rename source target = .ok next ∧ disk.rename source target t = (.ok (), next) :=
  attempt_cases (·.rename source target) t

theorem append_ne_self (place : List String) (name : String) : place ≠ place ++ [name] := by
  intro same
  have sizes := congrArg List.length same
  simp at sizes

section Changes

variable {t next : FileTree} {name : String} (h : IsLocal name)

include h

theorem put_eq_ok {bytes : List UInt8} (ok : t.put (inWorking name) bytes = .ok next) :
    t.slot? t.working = some .directory ∧ next = t.set (t.working ++ [name]) (.file bytes) := by
  unfold put at ok
  by_cases inside : t.slot? t.working = some .directory
  · rw [h.locateName_inside t inside] at ok
    simp only [bind, Except.bind] at ok
    split at ok
    · exact nomatch ok
    · cases ok
      exact ⟨inside, rfl⟩
  · obtain ⟨fault, refused⟩ := h.locateName_outside t inside
    rw [refused] at ok
    exact nomatch ok

theorem rename_eq_ok {source : String} (k : IsLocal source)
    (ok : t.rename (inWorking source) (inWorking name) = .ok next) :
    t.slot? t.working = some .directory ∧ ∃ bytes, t.read (inWorking source) = .ok bytes ∧
      next = (t.erase (t.working ++ [source])).set (t.working ++ [name]) (.file bytes) := by
  unfold rename at ok
  cases found : t.read (inWorking source) with
  | error fault =>
    rw [found] at ok
    exact nomatch ok
  | ok bytes =>
    rw [found] at ok
    by_cases inside : t.slot? t.working = some .directory
    · rw [k.locate_eq, k.walk_inside t inside, h.locateName_inside t inside] at ok
      simp only [bind, Except.bind, h.named, Bool.true_eq_false, Bool.false_eq_true,
        if_false] at ok
      split at ok
      · exact nomatch ok
      · cases ok
        exact ⟨inside, bytes, rfl, rfl⟩
    · obtain ⟨fault, refused⟩ := k.walk_outside t inside
      rw [k.locate_eq, refused] at ok
      exact nomatch ok

end Changes

/-- The working directory is there already, or cannot be made. -/
theorem makeDirectory_dot (t : FileTree) : (disk.makeDirectory "." t).2 = t := by
  have dot : t.locateName "." = (t.step t.working ".").map (·, false) := by
    have trimmed : Path.trimSlashes "." = "." := by decide
    have parts : t.walk "." = t.step t.working "." := by
      have parts : Path.components "." = ["."] := by decide
      unfold walk
      rw [parts, if_neg (by decide), List.foldlM_cons]
      cases t.step t.working "." <;> rfl
    have checked : checkPath "." = .ok () := checkPath_eq (by decide) (by decide)
    rw [locateName, trimmed, checked]
    simp only [parts, bind, Except.bind]
    cases t.step t.working "." <;> rfl
  rcases attempt_cases (·.makeDirectory ".") t with ⟨fault, run⟩ | ⟨next, ok, _⟩
  · exact congrArg Prod.snd run
  · rw [makeDirectory, dot] at ok
    by_cases inside : t.slot? t.working = some .directory
    · rw [step_dot inside] at ok
      simp only [Except.map, bind, Except.bind, inside] at ok
      exact nomatch ok
    · obtain ⟨fault, refused⟩ := step_outside inside "."
      rw [refused] at ok
      exact nomatch ok

section Looks

variable {t : FileTree} {name other : String}

theorem append_ne_append {place : List String} (ne : name ≠ other) :
    place ++ [name] ≠ place ++ [other] := fun same =>
  ne (List.singleton_inj.1 (List.append_cancel_left same))

/-- A file that is set under a name is found there. -/
theorem look_set (h : IsLocal name) (inside : t.slot? t.working = some .directory)
    (bytes : List UInt8) :
    disk.look (t.set (t.working ++ [name]) (.file bytes)) (inWorking name) = some (.ok bytes) := by
  have still := (slot?_set_other t (.file bytes) (append_ne_self t.working name)).trans inside
  have inner : t.working ++ [name] ≠ [] := by simp
  have named := slot?_set t (.file bytes) inner
  exact (h.look_inside _ still).trans (congrArg (Option.map reading) named)

theorem look_set_other (h : IsLocal other) (ne : other ≠ name) (e : Entry) :
    disk.look (t.set (t.working ++ [name]) e) (inWorking other) = disk.look t (inWorking other) :=
  h.look_congr rfl (slot?_set_other t e (append_ne_self _ _))
    (slot?_set_other t e (append_ne_append ne))

theorem look_erase_other (h : IsLocal other) (ne : other ≠ name) :
    disk.look (t.erase (t.working ++ [name])) (inWorking other) = disk.look t (inWorking other) :=
  h.look_congr rfl (slot?_erase_other t (append_ne_self _ _))
    (slot?_erase_other t (append_ne_append ne))

theorem look_put (h : IsLocal name) {bytes : List UInt8}
    (done : (disk.put (inWorking name) bytes t).1 = .ok ()) :
    disk.look (disk.put (inWorking name) bytes t).2 (inWorking name) = some (.ok bytes) := by
  rcases put_cases (inWorking name) bytes t with ⟨fault, run⟩ | ⟨next, ok, run⟩
  · rw [run] at done
    exact nomatch done
  · obtain ⟨inside, rfl⟩ := put_eq_ok h ok
    rw [run, look_set h inside]

theorem look_put_other (h : IsLocal name) (k : IsLocal other) (ne : other ≠ name)
    (bytes : List UInt8) :
    disk.look (disk.put (inWorking name) bytes t).2 (inWorking other) =
      disk.look t (inWorking other) := by
  rcases put_cases (inWorking name) bytes t with ⟨fault, run⟩ | ⟨next, ok, run⟩
  · rw [run]
  · obtain ⟨_, rfl⟩ := put_eq_ok h ok
    rw [run, look_set_other k ne]

variable {source : String}

/-- A file that was moved is found under its new name. -/
theorem look_rename (h : IsLocal name) (k : IsLocal source)
    (done : (disk.rename (inWorking source) (inWorking name) t).1 = .ok ()) :
    disk.look (disk.rename (inWorking source) (inWorking name) t).2 (inWorking name) =
      disk.look t (inWorking source) := by
  rcases rename_cases (inWorking source) (inWorking name) t with ⟨fault, run⟩ | ⟨next, ok, run⟩
  · rw [run] at done
    exact nomatch done
  · obtain ⟨inside, bytes, found, rfl⟩ := rename_eq_ok h k ok
    have still := (slot?_erase_other t (append_ne_self t.working source)).trans inside
    rw [run, look_of_read found]
    exact look_set h still bytes

theorem look_rename_other (h : IsLocal name) (k : IsLocal source) (g : IsLocal other)
    (ne : other ≠ source) (apart : other ≠ name) :
    disk.look (disk.rename (inWorking source) (inWorking name) t).2 (inWorking other) =
      disk.look t (inWorking other) := by
  rcases rename_cases (inWorking source) (inWorking name) t with ⟨fault, run⟩ | ⟨next, ok, run⟩
  · rw [run]
  · obtain ⟨_, bytes, _, rfl⟩ := rename_eq_ok h k ok
    rw [run]
    exact (look_set_other g apart _).trans (look_erase_other g ne)

end Looks

theorem ne_of_inWorking_ne {name other : String} (ne : inWorking name ≠ inWorking other) :
    name ≠ other := fun same => ne (congrArg inWorking same)

/-- Whatever is done to files of the working directory, each of them returns what was written. -/
theorem returns {names : List String} (h : ∀ name ∈ names, IsLocal name) :
    disk.Returns (names.map inWorking) where
  isThere _ _ := rfl
  isDirectory _ _ := rfl
  read _ _ := rfl
  directory := by
    simp only [List.forall_mem_map]
    intro name named _ _ around lineage t
    rw [(h name named).around, List.mem_singleton] at lineage
    rw [lineage, makeDirectory_dot]
  put := by
    simp only [List.forall_mem_map]
    exact fun name named bytes t => look_put (h name named)
  put_other := by
    simp only [List.forall_mem_map]
    exact fun name named other known ne bytes t =>
      look_put_other (h name named) (h other known) (ne_of_inWorking_ne ne) bytes
  rename := by
    simp only [List.forall_mem_map]
    exact fun source drafted name named t => look_rename (h name named) (h source drafted)
  rename_error := by
    intro source _ target _ t fault refused
    rcases rename_cases source target t with ⟨fault, run⟩ | ⟨next, _, run⟩
    · rw [run]
    · rw [run] at refused
      exact nomatch refused
  rename_other := by
    simp only [List.forall_mem_map]
    exact fun source drafted name named other known ne apart t =>
      look_rename_other (h name named) (h source drafted) (h other known) (ne_of_inWorking_ne ne)
        (ne_of_inWorking_ne apart)

end FileTree

end CoinLedger
