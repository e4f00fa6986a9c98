import CoinLedger.Proofs.Transaction.Fields

/-!
How far an id determines its transaction. Each text is digested after its size in decimal digits,
and nothing marks where the digits end. Main statement: two bodies whose texts are digested as the
same bytes are one body, unless at the first text in which they differ the start of a text reads as a
further digit of its size. That this happens to bodies of the right form is shown by two of them.
-/

namespace CoinLedger

namespace Hash

/-- The digits that stand before a field: its size in bytes. -/
def sizeBytes (field : String) : List UInt8 := Text.utf8 (toString (Text.utf8 field).length)

/-- What is digested of one field. -/
def fieldCode (field : String) : List UInt8 := sizeBytes field ++ Text.utf8 field

theorem fieldCode_ne_nil (field : String) : fieldCode field ≠ [] := fun empty =>
  Text.utf8_ne_nil (Text.toString_nat_ne_empty _) (List.append_eq_nil_iff.1 empty).1

theorem length_eq_of_sizeBytes {f g : String} (h : sizeBytes f = sizeBytes g) :
    (Text.utf8 f).length = (Text.utf8 g).length :=
  Text.toString_nat_injective (Text.utf8_injective h)

/-- The size of `f` and the first byte of `f`, one after the other, start the size of `g`. -/
def Mistakable (f g : String) : Prop :=
  ∃ byte rest, Text.utf8 f = byte :: rest ∧ sizeBytes f ++ [byte] <+: sizeBytes g

theorem eq_of_starts {f g : String} (size : sizeBytes f = sizeBytes g)
    (starts : fieldCode f <+: fieldCode g) : f = g := by
  rw [fieldCode, fieldCode, size, List.prefix_append_right_inj] at starts
  exact Text.utf8_injective (starts.eq_of_length (length_eq_of_sizeBytes size))

theorem eq_or_mistakable {f g : String} (filled : f ≠ "") (starts : fieldCode f <+: fieldCode g) :
    f = g ∨ Mistakable f g ∨ Mistakable g f := by
  have sizeF : sizeBytes f <+: fieldCode g := (List.prefix_append _ _).trans starts
  have sizeG : sizeBytes g <+: fieldCode g := List.prefix_append _ _
  rcases List.prefix_or_prefix_of_prefix sizeF sizeG with ⟨more, longer⟩ | ⟨more, longer⟩
  · cases more with
    | nil => exact .inl (eq_of_starts (by simpa using longer) starts)
    | cons digit more =>
      rw [fieldCode, fieldCode, ← longer, List.append_assoc, List.prefix_append_right_inj] at starts
      cases bytes : Text.utf8 f with
      | nil => exact absurd bytes (Text.utf8_ne_nil filled)
      | cons byte rest =>
        rw [bytes, List.cons_append, List.cons_prefix_cons] at starts
        refine .inr (.inl ⟨byte, rest, bytes, more, ?_⟩)
        rw [← longer, starts.1, List.append_assoc]
        rfl
  · cases more with
    | nil => exact .inl (eq_of_starts (by simpa using longer.symm) starts)
    | cons digit more =>
      rw [fieldCode, fieldCode, ← longer, List.append_assoc, List.prefix_append_right_inj] at starts
      obtain ⟨rest, bytes⟩ := starts
      refine .inr (.inr ⟨digit, _, bytes.symm, more, ?_⟩)
      rw [← longer, List.append_assoc]
      rfl

end Hash

namespace Body

/-- At the first text in which the two bodies differ, the start of one text reads as a digit of a
longer size. -/
def Confusable (a b : Body) : Prop :=
  ∃ f g, FirstDiffer a.idFields b.idFields f g ∧ (Hash.Mistakable f g ∨ Hash.Mistakable g f)

theorem eq_or_confusable {a b : Body}
    (same : Hash.fieldBytes a.idFields = Hash.fieldBytes b.idFields) : a = b ∨ a.Confusable b := by
  have fields := eq_or_firstDiffer (fun f _ => Hash.fieldCode_ne_nil f)
    (fun g _ => Hash.fieldCode_ne_nil g) same
  rcases fields with equal | ⟨f, g, first, starts⟩
  · exact .inl (idFields_injective equal)
  · refine .inr ⟨f, g, first, ?_⟩
    rcases starts with starts | starts
    · have filled := a.idFields_ne_empty f first.mem_left
      exact (Hash.eq_or_mistakable filled starts).resolve_left first.apart
    · have filled := b.idFields_ne_empty g first.mem_right
      exact ((Hash.eq_or_mistakable filled starts).resolve_left first.apart.symm).symm

/-- How far ids are content addresses. Equal digested bytes come from one body, or from two whose
fields can be mistaken for each other; so equal ids come from one body, from two such bodies, or
from a collision of the digest. -/
theorem content_address (a b : Body) :
    (Hash.fieldBytes a.idFields = Hash.fieldBytes b.idFields → a = b ∨ a.Confusable b) ∧
    (a.id.bytes = b.id.bytes → a = b ∨ a.Confusable b ∨
      (Hash.fieldBytes a.idFields ≠ Hash.fieldBytes b.idFields ∧
        Sha256.digest (Hash.fieldBytes a.idFields) =
          Sha256.digest (Hash.fieldBytes b.idFields))) := by
  refine ⟨eq_or_confusable, ?_⟩
  intro digest
  by_cases same : Hash.fieldBytes a.idFields = Hash.fieldBytes b.idFields
  · rcases eq_or_confusable same with equal | confusable
    · exact .inl equal
    · exact .inr (.inl confusable)
  · exact .inr (.inr ⟨same, digest⟩)

/-- New money for two owners, whose spellings have 4 and 31 symbols. -/
def twoPayments : Body where
  version := protocolVersion
  inputs := [.coinbase]
  outputs :=
    [⟨7, ⟨"4xyz", [0xe3, 0x1c, 0xb3], rfl, by decide⟩⟩,
      ⟨9, ⟨"AAAAAAAAAAAAAAAAAAAAAAAAAAAAAAA", List.replicate 23 0, rfl, by decide⟩⟩]
  lockTime := 0
  outputs_fit := by decide

/-- New money for one owner, whose spelling has 44 symbols: what the two payments have from the
second symbol of their first owner to the end of their second, with the sizes and the first value. -/
def onePayment : Body where
  version := protocolVersion
  inputs := [.coinbase]
  outputs :=
    [⟨9, ⟨"xyz5P2PKH1731AAAAAAAAAAAAAAAAAAAAAAAAAAAAAAA",
      [199, 44, 249, 63, 99, 202, 31, 94, 247, 212] ++ List.replicate 23 0, rfl, by decide⟩⟩]
  lockTime := 0
  outputs_fit := by decide

/-- Two bodies of the right form that are not the same are digested as the same bytes, and so they
share an id although the digest does not collide. -/
theorem payments_share_id :
    twoPayments.checkSchema = .ok () ∧ onePayment.checkSchema = .ok () ∧
      twoPayments ≠ onePayment ∧
      Hash.fieldBytes twoPayments.idFields = Hash.fieldBytes onePayment.idFields ∧
      twoPayments.id = onePayment.id := by
  have same : Hash.fieldBytes twoPayments.idFields = Hash.fieldBytes onePayment.idFields := by
    decide +kernel
  have id : twoPayments.id = onePayment.id := by
    simp only [Body.id, Hash.ofFields, same]
  exact ⟨rfl, rfl, by decide, same, id⟩

end Body

end CoinLedger
