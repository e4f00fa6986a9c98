import CoinLedger.Text.Basic

/-!
White space around a text. Main statement: what trimming leaves is the one part of the text that has
only white space around it and none at its own ends.
-/

namespace CoinLedger.Text

def Blank (cs : List Char) : Prop := ∀ c ∈ cs, isBlank c = true

/-- The text is `middle` with any white space around it. -/
def InBlanks (s : String) (middle : List Char) : Prop :=
  ∃ before after, Blank before ∧ Blank after ∧ s.toList = before ++ middle ++ after

/-- There is no white space at either end. -/
structure BareEnds (cs : List Char) : Prop where
  first : ∀ c, cs.head? = some c → isBlank c = false
  last : ∀ c, cs.getLast? = some c → isBlank c = false

section Lists

variable {cs before after : List Char}

theorem trimLeft_append (h : Blank before) (cs : List Char) :
    trimLeft (before ++ cs) = trimLeft cs := List.dropWhile_append_of_pos h

theorem trimLeft_eq_nil (h : Blank cs) : trimLeft cs = [] := by
  rw [← List.append_nil cs, trimLeft_append h]
  rfl

theorem trimLeft_eq_self (first : ∀ c, cs.head? = some c → isBlank c = false) :
    trimLeft cs = cs := by
  cases cs with
  | nil => rfl
  | cons c cs => exact List.dropWhile_cons_of_neg (by simp [first c rfl])

theorem exists_blank_append_trimLeft (cs : List Char) :
    ∃ before, Blank before ∧ cs = before ++ trimLeft cs :=
  ⟨cs.takeWhile isBlank, List.all_eq_true.1 List.all_takeWhile,
    List.takeWhile_append_dropWhile.symm⟩

theorem isBlank_eq_false_of_head?_trimLeft {c : Char} (h : (trimLeft cs).head? = some c) :
    isBlank c = false := by
  have bare := List.head?_dropWhile_not isBlank cs
  rwa [← trimLeft, h] at bare

/-! The end of a list is the start of its reverse. -/

theorem trimRight_eq_reverse (cs : List Char) : trimRight cs = (trimLeft cs.reverse).reverse := rfl

theorem Blank.reverse (h : Blank cs) : Blank cs.reverse := fun c member => h c (List.mem_reverse.1 member)

theorem trimRight_append (h : Blank after) (cs : List Char) :
    trimRight (cs ++ after) = trimRight cs := by
  rw [trimRight_eq_reverse, List.reverse_append, trimLeft_append h.reverse, ← trimRight_eq_reverse]

theorem trimRight_eq_self (last : ∀ c, cs.getLast? = some c → isBlank c = false) :
    trimRight cs = cs := by
  rw [trimRight_eq_reverse, trimLeft_eq_self, List.reverse_reverse]
  intro c h
  exact last c (List.head?_reverse.symm.trans h)

theorem exists_trimRight_append_blank (cs : List Char) :
    ∃ after, Blank after ∧ cs = trimRight cs ++ after := by
  obtain ⟨before, blank, split⟩ := exists_blank_append_trimLeft cs.reverse
  refine ⟨before.reverse, blank.reverse, ?_⟩
  rw [trimRight_eq_reverse, ← List.reverse_append, ← split, List.reverse_reverse]

theorem isBlank_eq_false_of_getLast?_trimRight {c : Char} (h : (trimRight cs).getLast? = some c) :
    isBlank c = false := by
  rw [trimRight_eq_reverse, List.getLast?_reverse] at h
  exact isBlank_eq_false_of_head?_trimLeft h

/-- What is trimmed on the right still starts as it did. -/
theorem head?_of_head?_trimRight {c : Char} (h : (trimRight cs).head? = some c) :
    cs.head? = some c := by
  obtain ⟨after, _, split⟩ := exists_trimRight_append_blank cs
  obtain ⟨rest, start⟩ := List.head?_eq_some_iff.1 h
  rw [split, start]
  rfl

end Lists

variable {s : String} {middle : List Char}

theorem toList_trim (s : String) : (trim s).toList = trimRight (trimLeft s.toList) :=
  String.toList_ofList

theorem inBlanks_trim (s : String) : InBlanks s (trim s).toList := by
  obtain ⟨before, left, start⟩ := exists_blank_append_trimLeft s.toList
  obtain ⟨after, right, rest⟩ := exists_trimRight_append_blank (trimLeft s.toList)
  refine ⟨before, after, left, right, ?_⟩
  rw [toList_trim, List.append_assoc, ← rest]
  exact start

theorem bareEnds_trim (s : String) : BareEnds (trim s).toList := by
  rw [toList_trim]
  exact
    { first := fun _ h => isBlank_eq_false_of_head?_trimLeft (head?_of_head?_trimRight h)
      last := fun _ h => isBlank_eq_false_of_getLast?_trimRight h }

theorem toList_trim_of_inBlanks (h : InBlanks s middle) (bare : BareEnds middle) :
    (trim s).toList = middle := by
  obtain ⟨before, after, left, right, split⟩ := h
  rw [toList_trim, split, List.append_assoc, trimLeft_append left]
  cases middle with
  | nil =>
    rw [List.nil_append, trimLeft_eq_nil right]
    rfl
  | cons c cs =>
    have start : trimLeft (c :: cs ++ after) = c :: cs ++ after :=
      trimLeft_eq_self fun d h => bare.first d h
    rw [start, trimRight_append right, trimRight_eq_self bare.last]

theorem toList_trim_eq_iff : (trim s).toList = middle ↔ InBlanks s middle ∧ BareEnds middle := by
  constructor
  · rintro rfl
    exact ⟨inBlanks_trim s, bareEnds_trim s⟩
  · rintro ⟨around, bare⟩
    exact toList_trim_of_inBlanks around bare

theorem bareEnds_of_forall (h : ∀ c ∈ middle, isBlank c = false) : BareEnds middle where
  first c start := h c (List.mem_of_head? start)
  last c finish := h c (List.mem_of_getLast? finish)

end CoinLedger.Text
