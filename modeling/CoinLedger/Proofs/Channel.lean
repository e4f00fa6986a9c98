import CoinLedger.Message

/-!
Main statements: a text is read as a channel exactly if it consists of the start of channels, an
organization that is neither empty nor contains a slash, and their end, and then it names this
organization and no other; and the organization of any channel is found in its text by the sizes of
start and end alone.
-/

namespace CoinLedger.Channel

/-- An organization that has a channel of its own. -/
structure Nameable (organization : String) : Prop where
  nonempty : organization ≠ ""
  plain : '/' ∉ organization.toList

theorem inner?_append (organization : List Char) :
    inner? (lead ++ organization ++ tail) = some organization := by
  have starts : lead.isPrefixOf (lead ++ organization ++ tail) = true := by
    rw [List.isPrefixOf_iff_prefix, List.append_assoc]
    exact List.prefix_append _ _
  have rest : (lead ++ organization ++ tail).drop lead.length = organization ++ tail := by
    rw [List.append_assoc, List.drop_left]
  have ends : tail.isSuffixOf (organization ++ tail) = true :=
    List.isSuffixOf_iff_suffix.2 (List.suffix_append _ _)
  simp only [inner?, starts, rest, ends, if_true]
  rw [List.length_append, Nat.add_sub_cancel, List.take_left]

/-- The end is looked for behind the start, so that the two never share a slash. -/
theorem inner?_eq_some_iff {cs organization : List Char} :
    inner? cs = some organization ↔ cs = lead ++ organization ++ tail := by
  constructor
  · intro h
    unfold inner? at h
    split at h
    · next starts =>
      obtain ⟨rest, rfl⟩ := List.isPrefixOf_iff_prefix.1 starts
      rw [List.drop_left] at h
      dsimp only at h
      split at h
      · next ends =>
        obtain ⟨inner, rfl⟩ := List.isSuffixOf_iff_suffix.1 ends
        rw [List.length_append, Nat.add_sub_cancel, List.take_left] at h
        rw [Option.some.inj h, List.append_assoc]
      · exact nomatch h
    · exact nomatch h
  · rintro rfl
    exact inner?_append organization

theorem toList_text (c : Channel) : c.text.toList = lead ++ c.organization.toList ++ tail :=
  String.toList_ofList

theorem text_eq (organization : String) :
    text ⟨organization⟩ = "/root/" ++ organization ++ "/coin" := by
  rw [← String.toList_inj, toList_text, String.toList_append, String.toList_append]
  rfl

theorem eq_of_text_eq {c d : Channel} (h : c.text = d.text) : c = d := by
  have same := inner?_append c.organization.toList
  rw [← toList_text, h, toList_text, inner?_append, Option.some.injEq, String.toList_inj] at same
  exact congrArg mk same.symm

theorem nameable_iff {organization : String} :
    Nameable organization ↔ ¬(organization.toList = [] ∨ '/' ∈ organization.toList) := by
  rw [not_or, String.toList_eq_nil_iff]
  exact ⟨fun h => ⟨h.nonempty, h.plain⟩, fun h => ⟨h.1, h.2⟩⟩

theorem ofText_eq_ok_iff {text : String} {c : Channel} :
    ofText text = .ok c ↔ Nameable c.organization ∧ text = c.text := by
  constructor
  · intro h
    unfold ofText at h
    split at h
    · next organization found =>
      split at h
      · exact nomatch h
      · next sound =>
        cases h
        refine ⟨nameable_iff.2 (by rwa [String.toList_ofList]), ?_⟩
        rw [← String.toList_inj, toList_text, String.toList_ofList]
        exact inner?_eq_some_iff.1 found
    · exact nomatch h
  · rintro ⟨nameable, rfl⟩
    simp only [ofText, toList_text, inner?_append, if_neg (nameable_iff.1 nameable),
      String.ofList_toList]

theorem eq_channelText_of_ofText {text : String} {cause : Malformed}
    (h : ofText text = .error cause) : cause = .channelText text := by
  unfold ofText at h
  split at h
  · split at h
    · cases h
      rfl
    · exact nomatch h
  · cases h
    rfl

theorem ofText_text {organization : String} (h : Nameable organization) :
    ofText (text ⟨organization⟩) = .ok ⟨organization⟩ := ofText_eq_ok_iff.2 ⟨h, rfl⟩

theorem ofText_text_of_not {organization : String} (h : ¬Nameable organization) :
    ofText (text ⟨organization⟩) = .error (.channelText (text ⟨organization⟩)) := by
  cases answer : ofText (text ⟨organization⟩) with
  | ok c =>
    obtain ⟨nameable, same⟩ := ofText_eq_ok_iff.1 answer
    rw [← eq_of_text_eq same] at nameable
    exact absurd nameable h
  | error cause => rw [eq_channelText_of_ofText answer]

/-- What a row of bytes has between the sizes of a channel's start and end, whatever stands there. -/
def between (bytes : List UInt8) : List UInt8 :=
  (bytes.drop lead.length).take (bytes.length - tail.length - lead.length)

theorem between_utf8_text (c : Channel) :
    between (Text.utf8 c.text) = Text.utf8 c.organization := by
  have start : (Text.utf8 "/root/").length = lead.length := by decide
  have finish : (Text.utf8 "/coin").length = tail.length := by decide
  rw [between, text_eq, Text.utf8_append, Text.utf8_append, List.append_assoc, ← start, List.drop_left]
  apply List.take_left'
  rw [List.length_append, List.length_append]
  omega

example : ofText "/root/coin" = .error (.channelText "/root/coin") := rfl

end CoinLedger.Channel
