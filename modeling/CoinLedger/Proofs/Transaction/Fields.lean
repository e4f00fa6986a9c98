import CoinLedger.Proofs.Text.Decimal
import CoinLedger.Transaction.Basic

/-!
What the texts of a body say of it, item by item. Main statements: the list of texts that the id is
made of determines the whole body, and the list of texts that a signature covers determines what is
spent and what is paid. Both are about the lists: what becomes of them when the texts are joined is
another matter.
-/

namespace CoinLedger

theorem PublicKey.text_injective {key other : PublicKey} (h : key.text = other.text) :
    key = other := by
  obtain ⟨bytes, _⟩ := key
  obtain ⟨bytes', _⟩ := other
  cases Base64Url.text_injective h
  rfl

theorem Signature.text_injective {signature other : Signature}
    (h : signature.text = other.text) : signature = other := by
  obtain ⟨bytes, _⟩ := signature
  obtain ⟨bytes', _⟩ := other
  cases Base64Url.text_injective h
  rfl

theorem PublicKey.text_ne_empty (key : PublicKey) : key.text ≠ "" := by
  refine Base64Url.text_ne_empty fun empty => ?_
  have size := key.size
  rw [empty] at size
  exact nomatch size

theorem Signature.text_ne_empty (signature : Signature) : signature.text ≠ "" := by
  refine Base64Url.text_ne_empty fun empty => ?_
  have size := signature.size
  rw [empty] at size
  exact nomatch size

theorem index_text_injective {i j : Int64} (h : toString i.toInt = toString j.toInt) : i = j :=
  Int64.toInt_inj.1 (Text.toString_int_injective h)

theorem value_text_injective {v w : UInt64} (h : toString v.toNat = toString w.toNat) : v = w :=
  UInt64.toNat_inj.1 (Text.toString_nat_injective h)

theorem int_ne_scriptType (i : Int) : toString i ≠ scriptType := by
  intro same
  have first : (0x50 : UInt8) ∈ Text.utf8 (toString i) := by
    rw [same]
    decide
  rcases Text.mem_utf8_int first with digit | minus
  · exact absurd digit.2 (by decide)
  · exact absurd minus (by decide)

/-- The text of 64 bytes ends in padding, which tells it from every number and from the script
type. -/
theorem Signature.padByte_mem_text (signature : Signature) :
    Base64Url.padByte ∈ Text.utf8 signature.text := by
  rw [text, Base64Url.utf8_text, Base64Url.encode, signature.size]
  exact List.mem_append_right _ (by decide)

theorem padByte_notMem_int (i : Int) : Base64Url.padByte ∉ Text.utf8 (toString i) := by
  intro member
  rcases Text.mem_utf8_int member with digit | minus
  · exact absurd digit.2 (by decide)
  · exact absurd minus (by decide)

theorem Signature.text_ne_int (signature : Signature) (i : Int) : signature.text ≠ toString i :=
  fun same => padByte_notMem_int i (same ▸ signature.padByte_mem_text)

theorem Signature.text_ne_scriptType (signature : Signature) : signature.text ≠ scriptType :=
  fun same => absurd (same ▸ signature.padByte_mem_text) (by decide)

/-- Rows of codes that can each be cut off at the front of what may follow them, before something that
starts with none of them, can be told apart. -/
theorem flatMap_cut {α β : Type} {code : α → List β} {P : α → Prop} {F : List β → Prop}
    (cut : ∀ a b r s, P a → P b → F r → F s → code a ++ r = code b ++ s → a = b ∧ r = s)
    (starts : ∀ a r, P a → F (code a ++ r)) {l m : List α} (left : ∀ a ∈ l, P a)
    (right : ∀ b ∈ m, P b) {r s : List β} (followsR : F r) (followsS : F s)
    (noneR : ∀ a t, P a → r ≠ code a ++ t) (noneS : ∀ a t, P a → s ≠ code a ++ t)
    (same : l.flatMap code ++ r = m.flatMap code ++ s) : l = m ∧ r = s := by
  have next : ∀ (k : List α) (t : List β), (∀ a ∈ k, P a) → F t →
      F (k.flatMap code ++ t) := by
    intro k t all follows
    cases k with
    | nil => exact follows
    | cons a k =>
      rw [List.flatMap_cons, List.append_assoc]
      exact starts a _ (all a List.mem_cons_self)
  induction l generalizing m with
  | nil =>
    cases m with
    | nil => exact ⟨rfl, same⟩
    | cons b m =>
      exact absurd (by simpa using same) (noneR b (m.flatMap code ++ s) (right b List.mem_cons_self))
  | cons a l ih =>
    cases m with
    | nil =>
      exact absurd (by simpa using same.symm)
        (noneS a (l.flatMap code ++ r) (left a List.mem_cons_self))
    | cons b m =>
      obtain ⟨first, rest⟩ := List.forall_mem_cons.1 left
      obtain ⟨first', rest'⟩ := List.forall_mem_cons.1 right
      simp only [List.flatMap_cons, List.append_assoc] at same
      obtain ⟨rfl, tails⟩ :=
        cut a b _ _ first first' (next l r rest followsR) (next m s rest' followsS) same
      obtain ⟨rfl, rfl⟩ := ih rest rest' tails
      exact ⟨rfl, rfl⟩

theorem flatMap_append_inj {α β : Type} {code : α → List β} {l m : List α} {r s : List β}
    (cut : ∀ a b r s, code a ++ r = code b ++ s → a = b ∧ r = s)
    (noneR : ∀ a t, r ≠ code a ++ t) (noneS : ∀ a t, s ≠ code a ++ t)
    (same : l.flatMap code ++ r = m.flatMap code ++ s) : l = m ∧ r = s :=
  flatMap_cut (P := fun _ => True) (F := fun _ => True)
    (fun a b r s _ _ _ _ => cut a b r s) (fun _ _ _ => trivial) (fun _ _ => trivial)
    (fun _ _ => trivial) trivial trivial (fun a t _ => noneR a t) (fun a t _ => noneS a t) same

/-- The two lists agree up to these two items, and these are not the same. -/
structure FirstDiffer {α : Type} (l m : List α) (a b : α) : Prop where
  apart : a ≠ b
  split : ∃ before rest rest', l = before ++ a :: rest ∧ m = before ++ b :: rest'

theorem FirstDiffer.mem_left {α : Type} {l m : List α} {a b : α} (h : FirstDiffer l m a b) :
    a ∈ l := by
  obtain ⟨before, rest, _, left, _⟩ := h.split
  simp [left]

theorem FirstDiffer.mem_right {α : Type} {l m : List α} {a b : α} (h : FirstDiffer l m a b) :
    b ∈ m := by
  obtain ⟨before, _, rest', _, right⟩ := h.split
  simp [right]

theorem FirstDiffer.cons {α : Type} {l m : List α} {a b : α} (h : FirstDiffer l m a b) (c : α) :
    FirstDiffer (c :: l) (c :: m) a b := by
  obtain ⟨before, rest, rest', left, right⟩ := h.split
  exact ⟨h.apart, c :: before, rest, rest', by rw [left]; rfl, by rw [right]; rfl⟩

/-- Where two lists with the same joined codes first differ, one code starts the other. -/
theorem eq_or_firstDiffer {α β : Type} [DecidableEq α] {code : α → List β} {l m : List α}
    (left : ∀ a ∈ l, code a ≠ []) (right : ∀ b ∈ m, code b ≠ [])
    (same : l.flatMap code = m.flatMap code) :
    l = m ∨ ∃ a b, FirstDiffer l m a b ∧ (code a <+: code b ∨ code b <+: code a) := by
  induction l generalizing m with
  | nil =>
    cases m with
    | nil => exact .inl rfl
    | cons b m =>
      have empty := List.append_eq_nil_iff.1 same.symm
      exact absurd empty.1 (right b List.mem_cons_self)
  | cons a l ih =>
    cases m with
    | nil =>
      have empty := List.append_eq_nil_iff.1 same
      exact absurd empty.1 (left a List.mem_cons_self)
    | cons b m =>
      rw [List.flatMap_cons, List.flatMap_cons] at same
      by_cases head : a = b
      · rw [← head] at same ⊢
        have rest := ih (fun c member => left c (List.mem_cons_of_mem a member))
          (fun c member => right c (List.mem_cons_of_mem b member)) (List.append_cancel_left same)
        rcases rest with rfl | ⟨c, d, first, starts⟩
        · exact .inl rfl
        · exact .inr ⟨c, d, first.cons a, starts⟩
      · have starts := List.prefix_or_prefix_of_prefix (List.prefix_append (code a) _)
          (same ▸ List.prefix_append (code b) _)
        exact .inr ⟨a, b, ⟨head, [], l, m, rfl, rfl⟩, starts⟩

namespace OutPoint

/-- The texts of an outpoint, in the id as under a signature. -/
def fields (o : OutPoint) : List String := [o.hash.spelling, toString o.index.toInt]

theorem fields_ne_empty (o : OutPoint) : ∀ f ∈ o.fields, f ≠ "" := by
  simpa [fields, o.hash.spelled] using Text.toString_int_ne_empty o.index.toInt

theorem fields_cut (o p : OutPoint) (r s : List String) (same : o.fields ++ r = p.fields ++ s) :
    o = p ∧ r = s := by
  obtain ⟨h, i⟩ := o
  obtain ⟨k, j⟩ := p
  simp only [fields, List.cons_append, List.nil_append, List.cons.injEq] at same
  obtain ⟨hash, index, rest⟩ := same
  cases Hash.eq_of_spelling hash
  cases index_text_injective index
  exact ⟨rfl, rest⟩

end OutPoint

namespace Input

/-- The texts of one input in the id. -/
def idFields (i : Input) : List String :=
  (match i.unlock with
    | some u => [u.key.text, u.signature.text, scriptType]
    | none => []) ++ i.outpoint.fields

theorem idFields_some (o : OutPoint) (u : Unlock) :
    idFields ⟨o, some u⟩ = u.key.text :: u.signature.text :: scriptType :: o.fields := rfl

theorem idFields_cut (i j : Input) (r s : List String)
    (same : i.idFields ++ r = j.idFields ++ s) : i = j ∧ r = s := by
  obtain ⟨o, unlock⟩ := i
  obtain ⟨p, unlock'⟩ := j
  cases unlock with
  | none =>
    cases unlock' with
    | none =>
      obtain ⟨rfl, rest⟩ := o.fields_cut p r s same
      exact ⟨rfl, rest⟩
    | some u =>
      have second := (List.cons.inj (List.cons.inj same).2).1
      exact absurd second.symm (u.signature.text_ne_int _)
  | some u =>
    cases unlock' with
    | none =>
      have second := (List.cons.inj (List.cons.inj same).2).1
      exact absurd second (u.signature.text_ne_int _)
    | some u' =>
      simp only [idFields_some, List.cons_append, List.cons.injEq] at same
      obtain ⟨key, signature, _, same⟩ := same
      obtain ⟨rfl, rest⟩ := o.fields_cut p r s same
      obtain ⟨k, sig⟩ := u
      obtain ⟨k', sig'⟩ := u'
      cases PublicKey.text_injective key
      cases Signature.text_injective signature
      exact ⟨rfl, rest⟩

theorem idFields_ne_empty (i : Input) : ∀ f ∈ i.idFields, f ≠ "" := by
  obtain ⟨o, unlock⟩ := i
  cases unlock with
  | none => exact o.fields_ne_empty
  | some u =>
    simp only [idFields_some, List.forall_mem_cons]
    exact ⟨u.key.text_ne_empty, u.signature.text_ne_empty, by decide, o.fields_ne_empty⟩

/-- The second text of an input is a number or a signature. -/
theorem second_idFields (i : Input) (r : List String) :
    ∃ first second rest, i.idFields ++ r = first :: second :: rest ∧ second ≠ scriptType := by
  obtain ⟨o, unlock⟩ := i
  cases unlock with
  | none => exact ⟨_, _, _, rfl, int_ne_scriptType _⟩
  | some u => exact ⟨_, _, _, rfl, u.signature.text_ne_scriptType⟩

end Input

namespace Output

/-- The texts of one output in the id. -/
def idFields (o : Output) : List String := [o.owner.spelling, scriptType, toString o.value.toNat]

/-- The texts of one output under a signature, in another order. -/
def signingFields (o : Output) : List String :=
  [toString o.value.toNat, scriptType, o.owner.spelling]

theorem eq_of_texts {o p : Output} (value : toString o.value.toNat = toString p.value.toNat)
    (owner : o.owner.spelling = p.owner.spelling) : o = p := by
  obtain ⟨v, w⟩ := o
  obtain ⟨v', w'⟩ := p
  cases Hash.eq_of_spelling owner
  cases value_text_injective value
  rfl

theorem idFields_cut (o p : Output) (r s : List String)
    (same : o.idFields ++ r = p.idFields ++ s) : o = p ∧ r = s := by
  simp only [idFields, List.cons_append, List.nil_append, List.cons.injEq] at same
  obtain ⟨owner, _, value, rest⟩ := same
  exact ⟨eq_of_texts value owner, rest⟩

theorem idFields_ne_empty (o : Output) : ∀ f ∈ o.idFields, f ≠ "" := by
  simp [idFields, scriptType, o.owner.spelled]

theorem signingFields_ne_empty (o : Output) : ∀ f ∈ o.signingFields, f ≠ "" := by
  simp [signingFields, scriptType, o.owner.spelled]

theorem version_ne_output (version : String) (o : Output) (r : List String) :
    [version] ≠ o.idFields ++ r := by
  simp [idFields]

theorem signingFields_cut (o p : Output) (r s : List String)
    (same : o.signingFields ++ r = p.signingFields ++ s) : o = p ∧ r = s := by
  simp only [signingFields, List.cons_append, List.nil_append, List.cons.injEq] at same
  obtain ⟨value, _, owner, rest⟩ := same
  exact ⟨eq_of_texts value owner, rest⟩

end Output

namespace Body

theorem idFields_eq (b : Body) :
    b.idFields = toString b.lockTime.toNat ::
      (b.inputs.flatMap Input.idFields ++
        (b.outputs.flatMap Output.idFields ++ [toString b.version.toNat])) := by
  rw [← List.append_assoc]
  rfl

/-- After the inputs no further input can be read. -/
theorem outputs_ne_input (outputs : List Output) (version : String) (i : Input) (r : List String) :
    outputs.flatMap Output.idFields ++ [version] ≠ i.idFields ++ r := by
  obtain ⟨first, second, rest, texts, other⟩ := i.second_idFields r
  rw [texts]
  intro same
  cases outputs with
  | nil => exact nomatch same
  | cons o outputs =>
    simp only [List.flatMap_cons, Output.idFields, List.cons_append, List.cons.injEq] at same
    exact other same.2.1.symm

theorem idFields_ne_empty (b : Body) : ∀ f ∈ b.idFields, f ≠ "" := by
  rw [idFields_eq]
  intro f member
  simp only [List.mem_cons, List.mem_append, List.mem_flatMap, List.not_mem_nil, or_false] at member
  rcases member with rfl | ⟨i, _, member⟩ | ⟨o, _, member⟩ | rfl
  · exact Text.toString_nat_ne_empty _
  · exact i.idFields_ne_empty f member
  · exact o.idFields_ne_empty f member
  · exact Text.toString_nat_ne_empty _

theorem idFields_injective {a b : Body} (same : a.idFields = b.idFields) : a = b := by
  rw [idFields_eq, idFields_eq] at same
  obtain ⟨lockTime, items⟩ := List.cons.inj same
  obtain ⟨inputs, items⟩ := flatMap_append_inj Input.idFields_cut
    (outputs_ne_input _ _) (outputs_ne_input _ _) items
  obtain ⟨outputs, version⟩ := flatMap_append_inj Output.idFields_cut
    (Output.version_ne_output _) (Output.version_ne_output _) items
  have version := Text.toString_nat_injective (List.cons.inj version).1
  obtain ⟨v, is, os, t, fit⟩ := a
  obtain ⟨v', is', os', t', fit'⟩ := b
  cases inputs
  cases outputs
  cases value_text_injective lockTime
  cases UInt32.toNat_inj.1 version
  rfl

end Body

theorem signingFields_eq (outpoints : List OutPoint) (outputs : List Output) :
    signingFields outpoints outputs =
      outpoints.flatMap OutPoint.fields ++ outputs.flatMap Output.signingFields := rfl

theorem outputs_ne_outpoint (outputs : List Output) (o : OutPoint) (r : List String) :
    outputs.flatMap Output.signingFields ≠ o.fields ++ r := by
  intro same
  cases outputs with
  | nil => exact nomatch same
  | cons p outputs =>
    simp only [List.flatMap_cons, Output.signingFields, OutPoint.fields, List.cons_append,
      List.cons.injEq] at same
    exact int_ne_scriptType _ same.2.1.symm

theorem signingFields_ne_empty (outpoints : List OutPoint) (outputs : List Output) :
    ∀ f ∈ signingFields outpoints outputs, f ≠ "" := by
  rw [signingFields_eq]
  intro f member
  simp only [List.mem_append, List.mem_flatMap] at member
  rcases member with ⟨o, _, member⟩ | ⟨o, _, member⟩
  · exact o.fields_ne_empty f member
  · exact o.signingFields_ne_empty f member

theorem signingFields_injective {os os' : List OutPoint} {ps ps' : List Output}
    (same : signingFields os ps = signingFields os' ps') : os = os' ∧ ps = ps' := by
  rw [signingFields_eq, signingFields_eq] at same
  obtain ⟨outpoints, items⟩ := flatMap_append_inj OutPoint.fields_cut
    (outputs_ne_outpoint ps) (outputs_ne_outpoint ps') same
  obtain ⟨outputs, _⟩ := flatMap_append_inj (r := []) (s := []) Output.signingFields_cut
    (fun _ _ e => nomatch e) (fun _ _ e => nomatch e) (by simpa using items)
  exact ⟨outpoints, outputs⟩

end CoinLedger
