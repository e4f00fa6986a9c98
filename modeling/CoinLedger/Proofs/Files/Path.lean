import CoinLedger.Files.Path

/-!
Names inside a directory. Main statement: changing the extension of a name inside a directory gives
another name inside it.
-/

namespace CoinLedger.Path

/-- What stands before every name inside a directory: nothing, or a text that ends in a slash. -/
theorem toList_join (directory : String) :
    ∃ front : List Char, (front = [] ∨ front.getLast? = some '/') ∧
      ∀ name, (join directory name).toList = front ++ name.toList := by
  unfold join
  by_cases closed : directory = "" ∨ directory.toList.getLast? = some '/'
  · refine ⟨directory.toList, closed.imp (fun empty => by rw [empty]; rfl) id, fun name => ?_⟩
    rw [if_pos closed, String.toList_append]
  · refine ⟨directory.toList ++ ['/'], .inr (by simp), fun name => ?_⟩
    rw [if_neg closed, String.toList_append, String.toList_append]
    rfl

theorem join_injective {directory name other : String}
    (same : join directory name = join directory other) : name = other := by
  obtain ⟨front, _, names⟩ := toList_join directory
  have lists := congrArg String.toList same
  rw [names, names] at lists
  exact String.toList_inj.1 (List.append_cancel_left lists)

theorem leadSize_le_one (cs : List Char) : leadSize cs ≤ 1 := by
  unfold leadSize
  split <;> decide

/-- A name that is no more than a name: no slash in it, and no dot at its end. -/
structure Plain (name : List Char) : Prop where
  slashless : '/' ∉ name
  ends : ∃ c rest, name.reverse = c :: rest ∧ c ≠ '.'

namespace Plain

variable {name : List Char} (h : Plain name)

include h

theorem ne_nil : name ≠ [] := by
  rintro rfl
  obtain ⟨c, rest, none, _⟩ := h.ends
  exact nomatch none

theorem ne_dots (before : List Char) : name ≠ before ++ ['.'] := by
  rintro rfl
  obtain ⟨c, rest, same, apart⟩ := h.ends
  rw [List.reverse_append] at same
  exact apart (List.cons.inj same).1.symm

/-- A plain name is no part of the lead of a path. -/
theorem leadSize_le (front : List Char) : leadSize (front ++ name) ≤ front.length := by
  cases front with
  | cons c front => exact Nat.le_trans (leadSize_le_one _) (by simp)
  | nil =>
    have slashless := h.slashless
    have single := h.ne_dots []
    rw [List.nil_append]
    unfold leadSize
    split
    · simp at slashless
    · exact absurd rfl single
    · simp at slashless
    · exact Nat.le_refl 0

/-- What is read backwards after the lead is the name and the rest of what stands before it. -/
theorem reversedBody_append (front : List Char) :
    reversedBody (front ++ name) =
      name.reverse ++ (front.drop (leadSize (front ++ name))).reverse := by
  have lead := h.leadSize_le front
  obtain ⟨c, rest, backwards, dotless⟩ := h.ends
  have slashless : c ≠ '/' := by
    rintro rfl
    apply h.slashless
    rw [← List.mem_reverse, backwards]
    exact List.mem_cons_self
  rw [reversedBody, List.drop_append_of_le_length lead, List.reverse_append, backwards,
    List.cons_append]
  unfold dropIdle
  split
  · next same => exact absurd (List.cons.inj same).1 slashless
  · next same => exact absurd (List.cons.inj same).1 dotless
  · next same => exact absurd (List.cons.inj same).1 dotless
  · rfl

end Plain

/-- Read up to a slash, a text without one is all of itself. -/
theorem span_slash {name rest : List Char} (slashless : '/' ∉ name)
    (closed : rest = [] ∨ ∃ more, rest = '/' :: more) :
    (name ++ rest).takeWhile (· ≠ '/') = name ∧ (name ++ rest).dropWhile (· ≠ '/') = rest := by
  have letters : ∀ c ∈ name, (decide (c ≠ '/')) = true := by
    intro c member
    refine decide_eq_true fun slash => slashless ?_
    rw [← slash]
    exact member
  rw [List.takeWhile_append_of_pos letters, List.dropWhile_append_of_pos letters]
  rcases closed with rfl | ⟨more, rfl⟩ <;> simp

/-- The extension of a name inside a directory changes with the name. -/
theorem withExtension_join {name : String} (plain : Plain name.toList)
    (stemmed : stem name.toList ≠ ['.']) (directory extension : String) :
    withExtension (join directory name) extension =
      join directory (String.ofList (stem name.toList ++ '.' :: extension.toList)) := by
  obtain ⟨front, closed, names⟩ := toList_join directory
  have body := plain.reversedBody_append front
  have leading := plain.leadSize_le front
  generalize size : leadSize (front ++ name.toList) = k at body leading
  -- backwards, what stands before the name begins with its slash
  have slash : (front.drop k).reverse = [] ∨ ∃ more, (front.drop k).reverse = '/' :: more := by
    cases backwards : (front.drop k).reverse with
    | nil => exact .inl rfl
    | cons c more =>
      have first := congrArg List.head? backwards
      rw [List.head?_reverse, List.getLast?_drop] at first
      rcases closed with rfl | ends
      · simp at first
      · rw [ends] at first
        split at first
        · exact nomatch first
        · exact .inr ⟨more, by rw [Option.some.inj first]⟩
  have backwards : '/' ∉ name.toList.reverse := fun member =>
    plain.slashless (List.mem_reverse.1 member)
  obtain ⟨word, before⟩ := span_slash backwards slash
  have leads : lead (front ++ name.toList) ++ front.drop k = front := by
    rw [lead, size, List.take_append_of_le_length leading, List.take_append_drop]
  have named : ¬ (name.toList = [] ∨ name.toList = ['.', '.']) :=
    fun none => none.elim plain.ne_nil (plain.ne_dots ['.'])
  rw [withExtension, names]
  simp only [body, word, before, List.reverse_reverse, leads, if_neg named, stemmed, false_and,
    if_false]
  rw [← String.toList_inj, names, String.toList_ofList, String.toList_ofList, List.append_assoc]

end CoinLedger.Path
