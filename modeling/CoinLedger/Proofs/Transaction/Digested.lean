import Mathlib.Data.List.Basic
import Mathlib.Data.Nat.Digits.Defs
import CoinLedger.Proofs.Transaction.Authorization
import CoinLedger.Proofs.Transaction.ContentAddress

/-!
Reading digested bytes back. A number of one digit may look like the start of one with ten digits or
more, since nothing marks where its size ends; what comes next tells them apart, by the place of the
next equals sign and by the byte behind it. Main statement: bodies in which every id and every address
is spelled in full are digested as the same bytes only if they are the same.
-/

namespace CoinLedger

namespace Hash

variable {r s : List UInt8}

theorem field_cut {f g : String} (size : (Text.utf8 f).length = (Text.utf8 g).length)
    (same : fieldCode f ++ r = fieldCode g ++ s) : f = g ∧ r = s := by
  rw [fieldCode, fieldCode, sizeBytes, sizeBytes, size, List.append_assoc, List.append_assoc] at same
  obtain ⟨texts, rest⟩ := List.append_inj (List.append_cancel_left same) size
  exact ⟨Text.utf8_injective texts, rest⟩

/-- What is digested of a number: its digits after how many they are. -/
def numberCode (n : Nat) : List UInt8 := fieldCode (toString n)

/-- No index and no value has more digits than this. -/
def mostDigits : Nat := 20

theorem numberCode_cases {n : Nat} (bound : n < 10 ^ mostDigits) :
    (∃ size < 10, (Text.utf8 (toString n)).length = size ∧
      numberCode n = .ofNat (48 + size) :: Text.utf8 (toString n)) ∨
    (∃ more < 10, (Text.utf8 (toString n)).length = 10 + more ∧
      numberCode n = 0x31 :: .ofNat (48 + more) :: Text.utf8 (toString n)) ∨
    ((Text.utf8 (toString n)).length = 20 ∧
      numberCode n = 0x32 :: 0x30 :: Text.utf8 (toString n)) := by
  have most : (Text.utf8 (toString n)).length ≤ 20 := by
    rw [Text.length_utf8_toString_nat]
    exact Nat.toDigits_length 10 n mostDigits (by decide) bound
  have one : ∀ size < 10, Text.utf8 (toString size) = [.ofNat (48 + size)] := by decide
  have two : ∀ more < 10, Text.utf8 (toString (10 + more)) = [0x31, .ofNat (48 + more)] := by decide
  rw [numberCode, fieldCode, sizeBytes]
  generalize (Text.utf8 (toString n)).length = size at *
  obtain short | ⟨more, long, rfl⟩ | rfl :
      size < 10 ∨ (∃ more < 10, size = 10 + more) ∨ size = 20 := by
    by_cases short : size < 10
    · exact .inl short
    · by_cases long : size < 20
      · exact .inr (.inl ⟨size - 10, by omega, by omega⟩)
      · exact .inr (.inr (by omega))
  · exact .inl ⟨size, short, rfl, by rw [one size short]; rfl⟩
  · exact .inr (.inl ⟨more, long, rfl, by rw [two more long]; rfl⟩)
  · exact .inr (.inr ⟨rfl, rfl⟩)

/-- A shorter number can only start a longer one if its one digit is the second of the longer size. -/
theorem shorter_number_cut {m n : Nat} (boundM : m < 10 ^ mostDigits) (boundN : n < 10 ^ mostDigits)
    (shorter : (Text.utf8 (toString m)).length < (Text.utf8 (toString n)).length)
    (same : numberCode m ++ r = numberCode n ++ s) : r = Text.utf8 (toString n) ++ s := by
  have digit : ∀ a < 10, ∀ b < 10, UInt8.ofNat (48 + a) = UInt8.ofNat (48 + b) → a = b := by decide
  rcases numberCode_cases boundM with ⟨a, smallA, sizeA, codeA⟩ | ⟨a, smallA, sizeA, codeA⟩ |
    ⟨sizeA, codeA⟩ <;>
  rcases numberCode_cases boundN with ⟨b, smallB, sizeB, codeB⟩ | ⟨b, smallB, sizeB, codeB⟩ |
    ⟨sizeB, codeB⟩ <;>
  rw [codeA, codeB] at same <;>
  simp only [List.cons_append, List.cons.injEq] at same
  · have := digit a smallA b smallB same.1
    omega
  · have one : a = 1 := digit a smallA 1 (by decide) same.1
    obtain ⟨d, text⟩ := List.length_eq_one_iff.1 (sizeA.trans one)
    rw [text] at same
    exact (List.cons.inj same.2).2
  · have two : a = 2 := digit a smallA 2 (by decide) same.1
    obtain ⟨d, e, text⟩ := List.length_eq_two.1 (sizeA.trans two)
    rw [text] at same
    obtain ⟨rfl, _⟩ := List.cons.inj same.2
    exact absurd text (Text.utf8_toString_nat_ne_zero_cons m _ _)
  · omega
  · have := digit a smallA b smallB same.2.1
    omega
  · exact absurd same.1 (by decide)
  · omega
  · omega
  · omega

theorem number_cut {m n : Nat} (boundM : m < 10 ^ mostDigits) (boundN : n < 10 ^ mostDigits)
    (same : numberCode m ++ r = numberCode n ++ s) :
    (m = n ∧ r = s) ∨ ∃ digits ≠ [], Digits digits ∧ (r = digits ++ s ∨ s = digits ++ r) := by
  have digits : ∀ k : Nat, Digits (Text.utf8 (toString k)) := fun _ _ => Text.isDigitByte_of_mem_nat
  have filled : ∀ k : Nat, Text.utf8 (toString k) ≠ [] := fun k =>
    Text.utf8_ne_nil (Text.toString_nat_ne_empty k)
  rcases Nat.lt_trichotomy (Text.utf8 (toString m)).length (Text.utf8 (toString n)).length with
    shorter | equal | longer
  · exact .inr ⟨_, filled n, digits n, .inl (shorter_number_cut boundM boundN shorter same)⟩
  · obtain ⟨texts, rest⟩ := field_cut equal same
    exact .inl ⟨Text.toString_nat_injective texts, rest⟩
  · exact .inr ⟨_, filled m, digits m, .inr (shorter_number_cut boundN boundM longer same.symm)⟩

end Hash

/-- The first equals sign of a row stands at this place, and this byte comes after it. -/
structure FirstPad (place : Nat) (next : UInt8) (bytes : List UInt8) : Prop where
  split : ∃ front rest, bytes = front ++ Base64Url.padByte :: next :: rest ∧
    front.length = place ∧ Base64Url.padByte ∉ front

namespace FirstPad

variable {place place' : Nat} {next next' : UInt8} {bytes : List UInt8}

theorem unique (h : FirstPad place next bytes) (k : FirstPad place' next' bytes) :
    place = place' ∧ next = next' := by
  obtain ⟨front, rest, rfl, rfl, plain⟩ := h.split
  obtain ⟨front', rest', same, rfl, plain'⟩ := k.split
  obtain ⟨fronts, rests⟩ := cut_at plain plain' same
  exact ⟨congrArg List.length fronts, (List.cons.inj rests).1⟩

theorem digits (h : FirstPad place next bytes) {c : List UInt8} (row : Digits c) :
    FirstPad (c.length + place) next (c ++ bytes) := by
  obtain ⟨front, rest, rfl, rfl, plain⟩ := h.split
  refine ⟨c ++ front, rest, by rw [List.append_assoc], List.length_append, ?_⟩
  simp [row.unpadded, plain]

theorem mem (h : FirstPad place next bytes) : Base64Url.padByte ∈ bytes := by
  obtain ⟨front, rest, rfl, _, _⟩ := h.split
  simp

end FirstPad

namespace Hash

variable {count : Nat} {h k : Hash} {symbols symbols' : List UInt8}

theorem Spells.length_spelling (spells : h.Spells count symbols [Base64Url.padByte]) :
    (Text.utf8 h.spelling).length = count + 1 := by
  rw [spells.spelling, List.length_append, spells.length]
  rfl

/-- The equals sign of a padded text, when it is digested with something behind it. -/
theorem Spells.firstPad (spells : h.Spells count symbols [Base64Url.padByte]) (next : UInt8)
    (rest : List UInt8) :
    FirstPad ((Text.utf8 (toString (count + 1))).length + count) next
      (fieldCode h.spelling ++ next :: rest) := by
  have text : FirstPad count next (Text.utf8 h.spelling ++ next :: rest) := by
    refine ⟨symbols, rest, ?_, spells.length, spells.unpadded⟩
    rw [spells.spelling, List.append_assoc]
    rfl
  rw [fieldCode, sizeBytes, spells.length_spelling, List.append_assoc]
  exact text.digits fun _ => Text.isDigitByte_of_mem_nat

theorem Spells.cut (left : h.Spells count symbols [Base64Url.padByte])
    (right : k.Spells count symbols' [Base64Url.padByte]) {r s : List UInt8}
    (same : fieldCode h.spelling ++ r = fieldCode k.spelling ++ s) : h = k ∧ r = s := by
  have size := left.length_spelling.trans right.length_spelling.symm
  obtain ⟨spellings, rest⟩ := field_cut size same
  exact ⟨eq_of_spelling spellings, rest⟩

end Hash

/-- A public key as a hash: the text is the same. -/
def PublicKey.asHash (key : PublicKey) : Hash :=
  .ofBytes key.bytes (List.ne_nil_of_length_pos (by rw [key.size]; decide))

theorem PublicKey.padded (key : PublicKey) : key.asHash.Padded Hash.idSize := ⟨key.size, rfl⟩

theorem Signature.length_text (signature : Signature) : (Text.utf8 signature.text).length = 88 := by
  rw [text, Base64Url.utf8_text, Base64Url.length_encode, signature.size]

/-- What is digested of an input. -/
def Input.idBytes (i : Input) : List UInt8 := i.idFields.flatMap Hash.fieldCode

/-- What is digested of an output. -/
def Output.idBytes (o : Output) : List UInt8 := o.idFields.flatMap Hash.fieldCode

/-- The input shows a proof, and names a place and an id that is spelled in full. -/
structure Input.InFull (i : Input) : Prop where
  shown : ∃ u, i.unlock = some u
  nonneg : 0 ≤ i.outpoint.index
  padded : i.outpoint.hash.Padded Hash.idSize

def Output.InFull (o : Output) : Prop := o.owner.Padded Hash.addressSize

/-- What follows the index of an input: the key of the next one, or the address of an output. -/
def FollowsIndex (bytes : List UInt8) : Prop := FirstPad 45 0x38 bytes ∨ FirstPad 29 0x35 bytes

/-- What follows the value of an output: the address of the next one, or the version. -/
def FollowsValue (bytes : List UInt8) : Prop := FirstPad 29 0x35 bytes ∨ bytes = [0x31, 0x31]

section Numbers

variable {m n : Nat} {r s : List UInt8}

theorem FollowsIndex.ne_digits_append (left : FollowsIndex r) (right : FollowsIndex s)
    {digits : List UInt8} (filled : digits ≠ []) (row : Digits digits) : r ≠ digits ++ s := by
  rintro rfl
  have some := List.length_pos_iff.2 filled
  -- an address after 16 digits has its equals sign where a key has its own, but not the same behind it
  rcases left with key | address <;> rcases right with key' | address'
  · have := (key.unique (key'.digits row)).1
    omega
  · exact absurd (key.unique (address'.digits row)).2 (by decide)
  · have := (address.unique (key'.digits row)).1
    omega
  · have := (address.unique (address'.digits row)).1
    omega

theorem FollowsValue.ne_digits_append (left : FollowsValue r) (right : FollowsValue s)
    {digits : List UInt8} (filled : digits ≠ []) (row : Digits digits) : r ≠ digits ++ s := by
  intro same
  have some := List.length_pos_iff.2 filled
  rcases left with address | version <;> rcases right with address' | version'
  · have := (address.unique (same ▸ address'.digits row)).1
    omega
  · have member := address.mem
    rw [same, version', List.mem_append] at member
    rcases member with member | member
    · exact row.unpadded member
    · exact absurd member (by decide)
  · have member := List.mem_append_right digits address'.mem
    rw [← same, version] at member
    exact absurd member (by decide)
  · have length := congrArg List.length same
    rw [version, version', List.length_append] at length
    omega

/-- Whatever may follow two numbers tells them apart, if no digits in front make it look like it. -/
theorem number_cut_of_follows {Follows : List UInt8 → Prop}
    (telling : ∀ {r s : List UInt8}, Follows r → Follows s → ∀ {digits : List UInt8}, digits ≠ [] →
      Digits digits → r ≠ digits ++ s)
    (boundM : m < 10 ^ Hash.mostDigits) (boundN : n < 10 ^ Hash.mostDigits)
    (followsR : Follows r) (followsS : Follows s)
    (same : Hash.numberCode m ++ r = Hash.numberCode n ++ s) : m = n ∧ r = s := by
  rcases Hash.number_cut boundM boundN same with equal | ⟨digits, filled, row, split | split⟩
  · exact equal
  · exact absurd split (telling followsR followsS filled row)
  · exact absurd split (telling followsS followsR filled row)

end Numbers

section Items

variable {i j : Input} {p q : Output} {r s : List UInt8}

theorem Input.idBytes_append (o : OutPoint) (u : Unlock) (nonneg : 0 ≤ o.index) (r : List UInt8) :
    Input.idBytes ⟨o, some u⟩ ++ r =
      Hash.fieldCode u.key.asHash.spelling ++ (Hash.fieldCode u.signature.text ++
        (Hash.fieldCode scriptType ++ (Hash.fieldCode o.hash.spelling ++
          (Hash.numberCode o.index.toInt.toNat ++ r)))) := by
  have index := Text.toString_int_of_nonneg (Int64.le_iff_toInt_le.1 nonneg)
  simp only [idBytes, idFields_some, OutPoint.fields, List.flatMap_cons, List.flatMap_nil,
    List.append_nil, List.append_assoc, index, Hash.numberCode]
  rfl

theorem Output.idBytes_append (o : Output) (r : List UInt8) :
    o.idBytes ++ r = Hash.fieldCode o.owner.spelling ++ (Hash.fieldCode scriptType ++
      (Hash.numberCode o.value.toNat ++ r)) := by
  simp only [idBytes, idFields, List.flatMap_cons, List.flatMap_nil, List.append_nil,
    List.append_assoc, Hash.numberCode]

theorem Input.InFull.firstPad (full : i.InFull) (r : List UInt8) :
    FirstPad 45 0x38 (i.idBytes ++ r) := by
  obtain ⟨o, unlock⟩ := i
  obtain ⟨u, rfl⟩ := full.shown
  obtain ⟨symbols, spells⟩ := u.key.padded.spells rfl
  have signature : Hash.fieldCode u.signature.text =
      0x38 :: 0x38 :: Text.utf8 u.signature.text := by
    rw [Hash.fieldCode, Hash.sizeBytes, u.signature.length_text]
    rfl
  rw [Input.idBytes_append o u full.nonneg, signature]
  exact spells.firstPad 0x38 _

theorem Output.InFull.firstPad (full : p.InFull) (r : List UInt8) :
    FirstPad 29 0x35 (p.idBytes ++ r) := by
  obtain ⟨symbols, spells⟩ := Hash.Padded.spells full rfl
  rw [Output.idBytes_append]
  exact spells.firstPad 0x35 _

theorem index_lt_ten_pow (i : Int64) : i.toInt.toNat < 10 ^ Hash.mostDigits := by
  have bound := i.toInt_lt
  have wide : (10 : Nat) ^ Hash.mostDigits = 100000000000000000000 := rfl
  omega

theorem value_lt_ten_pow (v : UInt64) : v.toNat < 10 ^ Hash.mostDigits := by
  have bound := v.toNat_lt
  have wide : (10 : Nat) ^ Hash.mostDigits = 100000000000000000000 := rfl
  omega

theorem Input.InFull.cut (left : i.InFull) (right : j.InFull) (followsR : FollowsIndex r)
    (followsS : FollowsIndex s) (same : i.idBytes ++ r = j.idBytes ++ s) : i = j ∧ r = s := by
  obtain ⟨⟨h, n⟩, unlock⟩ := i
  obtain ⟨⟨h', n'⟩, unlock'⟩ := j
  obtain ⟨⟨key, signature⟩, rfl⟩ := left.shown
  obtain ⟨⟨key', signature'⟩, rfl⟩ := right.shown
  obtain ⟨_, keySpells⟩ := key.padded.spells rfl
  obtain ⟨_, keySpells'⟩ := key'.padded.spells rfl
  obtain ⟨_, idSpells⟩ := left.padded.spells rfl
  obtain ⟨_, idSpells'⟩ := right.padded.spells rfl
  rw [Input.idBytes_append _ _ left.nonneg, Input.idBytes_append _ _ right.nonneg] at same
  obtain ⟨keys, same⟩ := keySpells.cut keySpells' same
  obtain ⟨signatures, same⟩ :=
    Hash.field_cut (signature.length_text.trans signature'.length_text.symm) same
  obtain ⟨hashes, same⟩ := idSpells.cut idSpells' (List.append_cancel_left same)
  obtain ⟨indices, rest⟩ := number_cut_of_follows FollowsIndex.ne_digits_append
    (index_lt_ten_pow n) (index_lt_ten_pow n') followsR followsS same
  cases PublicKey.text_injective (congrArg Hash.spelling keys)
  cases Signature.text_injective signatures
  cases hashes
  have nonneg := Int64.le_iff_toInt_le.1 left.nonneg
  have nonneg' := Int64.le_iff_toInt_le.1 right.nonneg
  have index : n = n' := Int64.toInt_inj.1 (by simp at nonneg nonneg'; omega)
  exact ⟨by rw [index], rest⟩

theorem Output.InFull.cut (left : p.InFull) (right : q.InFull) (followsR : FollowsValue r)
    (followsS : FollowsValue s) (same : p.idBytes ++ r = q.idBytes ++ s) : p = q ∧ r = s := by
  obtain ⟨v, w⟩ := p
  obtain ⟨v', w'⟩ := q
  obtain ⟨_, spells⟩ := Hash.Padded.spells left rfl
  obtain ⟨_, spells'⟩ := Hash.Padded.spells right rfl
  rw [Output.idBytes_append, Output.idBytes_append] at same
  obtain ⟨owners, same⟩ := spells.cut spells' same
  obtain ⟨values, rest⟩ := number_cut_of_follows FollowsValue.ne_digits_append
    (value_lt_ten_pow v) (value_lt_ten_pow v') followsR followsS (List.append_cancel_left same)
  cases owners
  cases UInt64.toNat_inj.1 values
  exact ⟨rfl, rest⟩

end Items

theorem Output.version_ne_idBytes {p : Output} (full : p.InFull) (t : List UInt8) :
    [0x31, 0x31] ≠ p.idBytes ++ t := by
  intro same
  have member := (full.firstPad t).mem
  rw [← same] at member
  exact absurd member (by decide)

theorem outputs_cut {ps qs : List Output} (left : ∀ p ∈ ps, p.InFull) (right : ∀ q ∈ qs, q.InFull)
    (same : ps.flatMap Output.idBytes ++ [0x31, 0x31] = qs.flatMap Output.idBytes ++ [0x31, 0x31]) :
    ps = qs :=
  (flatMap_cut (fun _ _ _ _ full full' follows follows' => full.cut full' follows follows')
    (fun _ r full => .inl (full.firstPad r)) left right (.inr rfl) (.inr rfl)
    (fun _ t full => Output.version_ne_idBytes full t)
    (fun _ t full => Output.version_ne_idBytes full t) same).1

/-- An address is never taken for the key of one more input. -/
theorem FirstPad.ne_input {r : List UInt8} (address : FirstPad 29 0x35 r) {i : Input} (full : i.InFull)
    (t : List UInt8) : r ≠ i.idBytes ++ t := by
  rintro rfl
  exact absurd (address.unique (full.firstPad t)).1 (by decide)

theorem inputs_cut {is js : List Input} (left : ∀ i ∈ is, i.InFull) (right : ∀ j ∈ js, j.InFull)
    {r s : List UInt8} (addressR : FirstPad 29 0x35 r) (addressS : FirstPad 29 0x35 s)
    (same : is.flatMap Input.idBytes ++ r = js.flatMap Input.idBytes ++ s) : is = js ∧ r = s :=
  flatMap_cut (fun _ _ _ _ full full' follows follows' => full.cut full' follows follows')
    (fun _ r full => .inl (full.firstPad r)) left right (.inr addressR) (.inr addressS)
    (fun _ t full => addressR.ne_input full t) (fun _ t full => addressS.ne_input full t) same

namespace Body

/-- Every id that the body names and every address that it pays is spelled with all its padding, as
ids and addresses are when they are made. -/
structure InFull (b : Body) : Prop where
  ids : ∀ o ∈ b.outpoints, o.isCoinbase = false → o.hash.Padded Hash.idSize
  owners : ∀ p ∈ b.outputs, p.owner.Padded Hash.addressSize

variable {a b : Body}

theorem fieldBytes_idFields (b : Body) :
    Hash.fieldBytes b.idFields = Hash.numberCode b.lockTime.toNat ++
      (b.inputs.flatMap Input.idBytes ++
        (b.outputs.flatMap Output.idBytes ++ Hash.numberCode b.version.toNat)) := by
  have joined : Hash.fieldBytes b.idFields = b.idFields.flatMap Hash.fieldCode := rfl
  rw [joined, idFields_eq]
  simp only [List.flatMap_cons, List.flatMap_append, List.flatMap_assoc, List.flatMap_nil,
    List.append_nil, Hash.numberCode]
  rfl

theorem InFull.inputs_of_spend (full : b.InFull) (schema : b.checkSchema = .ok ())
    (spend : b.isCoinbase = false) : ∀ i ∈ b.inputs, i.InFull := by
  intro i member
  obtain ⟨nonneg, shown⟩ := index_nonneg_of_spend schema spend member
  refine ⟨Option.ne_none_iff_exists'.1 shown, nonneg, ?_⟩
  refine full.ids i.outpoint (List.mem_map_of_mem member) (Bool.eq_false_iff.2 fun coinbase => ?_)
  rw [index_of_coinbase coinbase] at nonneg
  exact absurd nonneg (by decide)

theorem firstPad_outputs {ps : List Output} (some : ps ≠ []) (owners : ∀ p ∈ ps, p.InFull)
    (r : List UInt8) : FirstPad 29 0x35 (ps.flatMap Output.idBytes ++ r) := by
  obtain ⟨p, ps, rfl⟩ := List.exists_cons_of_ne_nil some
  rw [List.flatMap_cons, List.append_assoc]
  exact (owners p List.mem_cons_self).firstPad _

/-- The digested size of the coinbase hash starts with another digit than that of a key. -/
theorem coinbase_ne_inputs {o : OutPoint} (coinbase : o.isCoinbase = true) {is : List Input}
    (some : is ≠ []) (spends : ∀ i ∈ is, i.InFull) (r s : List UInt8) :
    [⟨o, none⟩].flatMap Input.idBytes ++ r ≠ is.flatMap Input.idBytes ++ s := by
  intro same
  obtain ⟨⟨p, unlock⟩, is, rfl⟩ := List.exists_cons_of_ne_nil some
  have full := spends _ List.mem_cons_self
  obtain ⟨u, rfl⟩ := full.shown
  obtain ⟨_, spells⟩ := u.key.padded.spells rfl
  have key : Hash.sizeBytes u.key.asHash.spelling = [0x34, 0x34] := by
    rw [Hash.sizeBytes, spells.length_spelling]
    rfl
  have spelling : o.hash.spelling = coinbaseSpelling := eq_of_beq (Bool.and_eq_true_iff.1 coinbase).2
  have zeros : Hash.fieldCode coinbaseSpelling = 0x36 :: 0x34 :: Text.utf8 coinbaseSpelling := by
    decide +kernel
  rw [List.flatMap_singleton, List.flatMap_cons, List.append_assoc,
    Input.idBytes_append p u full.nonneg, Hash.fieldCode, key, Input.idBytes, Input.idFields,
    OutPoint.fields, spelling, List.nil_append, List.flatMap_cons, zeros] at same
  exact absurd (List.cons.inj same).1 (by decide)

theorem InFull.inputs_eq (fullA : a.InFull) (fullB : b.InFull) (schemaA : a.checkSchema = .ok ())
    (schemaB : b.checkSchema = .ok ()) {r s : List UInt8} (addressR : FirstPad 29 0x35 r)
    (addressS : FirstPad 29 0x35 s)
    (same : a.inputs.flatMap Input.idBytes ++ r = b.inputs.flatMap Input.idBytes ++ s) :
    a.inputs = b.inputs ∧ r = s := by
  have someA := (checkSchema_eq_ok_iff.1 schemaA).2.2.1
  have someB := (checkSchema_eq_ok_iff.1 schemaB).2.2.1
  cases makesA : a.isCoinbase with
  | true =>
    obtain ⟨o, inputsA, coinbaseA⟩ := (isCoinbase_iff schemaA).1 makesA
    cases makesB : b.isCoinbase with
    | true =>
      obtain ⟨p, inputsB, coinbaseB⟩ := (isCoinbase_iff schemaB).1 makesB
      cases OutPoint.eq_of_coinbase coinbaseA coinbaseB
      rw [inputsA, inputsB] at same ⊢
      exact ⟨rfl, List.append_cancel_left same⟩
    | false =>
      rw [inputsA] at same
      have spends := fullB.inputs_of_spend schemaB makesB
      exact absurd same (coinbase_ne_inputs coinbaseA someB spends r s)
  | false =>
    have spends := fullA.inputs_of_spend schemaA makesA
    cases makesB : b.isCoinbase with
    | true =>
      obtain ⟨p, inputsB, coinbaseB⟩ := (isCoinbase_iff schemaB).1 makesB
      rw [inputsB] at same
      exact absurd same.symm (coinbase_ne_inputs coinbaseB someA spends s r)
    | false =>
      exact inputs_cut spends (fullB.inputs_of_spend schemaB makesB) addressR addressS same

/-- Bodies of the right form in which every id and every address is spelled in full, with whatever
counts, indices and values, are told apart by what is digested of them. So equal ids come from one
body, or from a collision of the digest. -/
theorem id_determines_body (schemaA : a.checkSchema = .ok ()) (schemaB : b.checkSchema = .ok ())
    (fullA : a.InFull) (fullB : b.InFull) :
    (Hash.fieldBytes a.idFields = Hash.fieldBytes b.idFields → a = b) ∧
    (a.id.bytes = b.id.bytes → a = b ∨
      (Hash.fieldBytes a.idFields ≠ Hash.fieldBytes b.idFields ∧
        Sha256.digest (Hash.fieldBytes a.idFields) =
          Sha256.digest (Hash.fieldBytes b.idFields))) := by
  have determined : Hash.fieldBytes a.idFields = Hash.fieldBytes b.idFields → a = b := by
    intro same
    obtain ⟨versionA, lockA, _, outputsA, _⟩ := checkSchema_eq_ok_iff.1 schemaA
    obtain ⟨versionB, lockB, _, outputsB, _⟩ := checkSchema_eq_ok_iff.1 schemaB
    have version : Hash.numberCode protocolVersion.toNat = [0x31, 0x31] := by decide
    rw [fieldBytes_idFields, fieldBytes_idFields, versionA, versionB, lockA, lockB, version] at same
    obtain ⟨inputs, rest⟩ := fullA.inputs_eq fullB schemaA schemaB
      (firstPad_outputs outputsA fullA.owners _) (firstPad_outputs outputsB fullB.owners _)
      (List.append_cancel_left same)
    have outputs := outputs_cut fullA.owners fullB.owners rest
    obtain ⟨v, is, ps, t, fit⟩ := a
    obtain ⟨v', is', ps', t', fit'⟩ := b
    cases inputs
    cases outputs
    cases versionA.trans versionB.symm
    cases lockA.trans lockB.symm
    rfl
  refine ⟨determined, fun ids => ?_⟩
  by_cases same : Hash.fieldBytes a.idFields = Hash.fieldBytes b.idFields
  · exact .inl (determined same)
  · exact .inr ⟨same, ids⟩

/-- A key whose text is 14 zeros, then 28, and then the text of an address. -/
def addressLikeKey : PublicKey :=
  ⟨[211, 77, 52, 211, 77, 52, 211, 77, 52, 211, 77, 188] ++ List.replicate 20 0, rfl⟩

theorem length_singleton_lt (p : Output) : [p].length < placeBound :=
  (by decide : 1 < placeBound)

/-- A spend of one place, whose 16 digits are the size of a key and 14 zeros. -/
def placeOfSixteenDigits : Body :=
  unlockedByZeros [⟨zeroId, 4400000000000000⟩] [⟨9, zeroAddress⟩] (length_singleton_lt _)

/-- A spend of places 6 and 0, the second one with that key. -/
def placesSixAndZero : Body :=
  let first := unlockedByZeros [⟨zeroId, 6⟩] [⟨9, zeroAddress⟩] (length_singleton_lt _)
  { first with
    inputs := first.inputs ++ [⟨⟨zeroId, 0⟩, some ⟨addressLikeKey, ⟨List.replicate 64 1, rfl⟩⟩⟩] }

theorem inFull_of_zeros {b : Body} (ids : ∀ o ∈ b.outpoints, o.hash = zeroId)
    (owners : ∀ p ∈ b.outputs, p.owner = zeroAddress) : b.InFull := by
  refine ⟨fun o member _ => ?_, fun p member => ?_⟩
  · rw [ids o member]
    exact Hash.padded_ofBytes (List.replicate 32 0) (by decide)
  · rw [owners p member]
    exact Hash.padded_ofBytes (List.replicate 20 0) (by decide)

/-- The size 1 and the digit 6 of one index read as the size 16 of the other, and so on up to the
equals sign of a key or an address: 238 bytes are the same, and the next is not. -/
theorem id_determines_near_bodies :
    placesSixAndZero.checkSchema = .ok () ∧ placeOfSixteenDigits.checkSchema = .ok () ∧
      placesSixAndZero.InFull ∧ placeOfSixteenDigits.InFull ∧
      (Hash.fieldBytes placesSixAndZero.idFields).take 238 =
        (Hash.fieldBytes placeOfSixteenDigits.idFields).take 238 ∧
      Hash.fieldBytes placesSixAndZero.idFields ≠
        Hash.fieldBytes placeOfSixteenDigits.idFields := by
  have fullTwo : placesSixAndZero.InFull := inFull_of_zeros (by decide) (by decide)
  have fullOne : placeOfSixteenDigits.InFull := inFull_of_zeros (by decide) (by decide)
  refine ⟨rfl, rfl, fullTwo, fullOne, by decide +kernel, ?_⟩
  intro same
  have equal := (id_determines_body rfl rfl fullTwo fullOne).1 same
  exact absurd (congrArg (fun b => b.inputs.length) equal) (by decide)

end Body

end CoinLedger
