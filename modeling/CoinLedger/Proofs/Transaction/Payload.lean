import CoinLedger.Proofs.Hash
import CoinLedger.Proofs.Transaction.Fields
import CoinLedger.Proofs.Transaction.Schema

/-!
Reading signed bytes back. The covered texts are joined with nothing between them, so what can be
found again are the equals signs at the ends of padded ids and the script types after values. Main
statement: outpoints and outputs of one row of bytes agree, except that the digits of the last index
and those of the first value may be shared out in another way.
-/

namespace CoinLedger

/-- What stands before a byte goes on from any start without that byte. -/
theorem split_at {b : UInt8} {start rest z t : List UInt8} (absent : b ∉ start)
    (same : start ++ rest = z ++ b :: t) : ∃ more, z = start ++ more ∧ rest = more ++ b :: t := by
  rcases List.append_eq_append_iff.1 same with ⟨more, longer, rest⟩ | ⟨more, longer, rest⟩
  · exact ⟨more, longer, rest⟩
  · cases more with
    | nil => exact ⟨[], by simpa using longer.symm, by simpa using rest.symm⟩
    | cons byte more =>
      obtain ⟨rfl, _⟩ := List.cons.inj rest
      exact absurd (by simp [longer]) absent

/-- Two texts agree up to the first place of a byte in each, and after it. -/
theorem cut_at {b : UInt8} {x y r s : List UInt8} (left : b ∉ x) (right : b ∉ y)
    (same : x ++ b :: r = y ++ b :: s) : x = y ∧ r = s := by
  obtain ⟨more, rfl, rest⟩ := split_at left same
  cases more with
  | nil => exact ⟨by simp, (List.cons.inj rest).2⟩
  | cons byte more =>
    obtain ⟨rfl, _⟩ := List.cons.inj rest
    exact absurd (by simp) right

/-- A row of decimal digits, which may be empty. -/
def Digits (bytes : List UInt8) : Prop := ∀ byte ∈ bytes, Numeral.IsDigitByte byte

namespace Digits

theorem nil : Digits [] := fun _ member => nomatch member

theorem append {c d : List UInt8} (left : Digits c) (right : Digits d) : Digits (c ++ d) :=
  List.forall_mem_append.2 ⟨left, right⟩

theorem unpadded {c : List UInt8} (digits : Digits c) : Base64Url.padByte ∉ c := fun member =>
  absurd (digits _ member).2 (by decide)

/-- The script type does not start with a digit. -/
theorem untyped {c : List UInt8} (digits : Digits c) : (0x50 : UInt8) ∉ c := fun member =>
  absurd (digits _ member).2 (by decide)

theorem value (v : UInt64) : Digits (Text.utf8 (toString v.toNat)) :=
  fun _ => Text.isDigitByte_of_mem_nat

theorem index {i : Int64} (nonneg : 0 ≤ i) : Digits (Text.utf8 (toString i.toInt)) := by
  rw [Text.toString_int_of_nonneg (Int64.le_iff_toInt_le.1 nonneg)]
  exact fun _ => Text.isDigitByte_of_mem_nat

end Digits

/-- The size of an id. -/
def Hash.idSize : Nat := 32

/-- The hash can be taken for a value and the start of its payment: 11 digits and then the script
type. A padded id has just so many symbols more than a script type and an address. -/
def Hash.ReadsAsPayment (h : Hash) : Prop :=
  ∃ digits rest, Text.utf8 h.spelling = digits ++ (Text.utf8 scriptType ++ rest) ∧
    digits.length = 11 ∧ Digits digits

theorem scriptType_bytes : Text.utf8 scriptType = [0x50, 0x32, 0x50, 0x4b, 0x48] := by decide

/-- The bytes that are signed of one outpoint. -/
def OutPoint.signedBytes (o : OutPoint) : List UInt8 :=
  Text.utf8 o.hash.spelling ++ Text.utf8 (toString o.index.toInt)

/-- The bytes that are signed of one output. -/
def Output.signedBytes (p : Output) : List UInt8 :=
  Text.utf8 (toString p.value.toNat) ++ (Text.utf8 scriptType ++ Text.utf8 p.owner.spelling)

theorem signingPayload_eq (outpoints : List OutPoint) (outputs : List Output) :
    signingPayload outpoints outputs =
      outpoints.flatMap OutPoint.signedBytes ++ outputs.flatMap Output.signedBytes := by
  simp [signingPayload, signingFields, List.flatMap_assoc]
  rfl

/-- What the outpoints are read from: an id up to its equals sign. -/
theorem OutPoint.spells_id {o : OutPoint} (padded : o.hash.Padded Hash.idSize) :
    ∃ symbols, o.hash.Spells 43 symbols [Base64Url.padByte] := padded.spells rfl

/-- What the outputs are read from: an address, padded or not. -/
theorem Output.spells_address {p : Output} (sized : p.owner.Sized Hash.addressSize) :
    ∃ symbols pads, p.owner.Spells 27 symbols pads ∧ (pads = [] ∨ pads = [Base64Url.padByte]) :=
  sized.spells rfl

theorem OutPoint.signedBytes_append {o : OutPoint} {symbols : List UInt8}
    (spells : o.hash.Spells 43 symbols [Base64Url.padByte]) (c r : List UInt8) :
    c ++ (o.signedBytes ++ r) =
      (c ++ symbols) ++ Base64Url.padByte :: (Text.utf8 (toString o.index.toInt) ++ r) := by
  rw [signedBytes, spells.spelling]
  simp only [List.append_assoc, List.cons_append, List.nil_append]

theorem Output.signedBytes_append {p : Output} {symbols pads : List UInt8}
    (spells : p.owner.Spells 27 symbols pads) (c r : List UInt8) :
    c ++ (p.signedBytes ++ r) =
      ((c ++ Text.utf8 (toString p.value.toNat)) ++ (Text.utf8 scriptType ++ symbols)) ++
        (pads ++ r) := by
  rw [signedBytes, spells.spelling]
  simp only [List.append_assoc]

/-- Digits, the script type and the symbols of an address hold no equals sign. -/
theorem unpadded_start {c symbols pads : List UInt8} {owner : Hash} (digits : Digits c)
    (spells : owner.Spells 27 symbols pads) :
    Base64Url.padByte ∉ c ++ (Text.utf8 scriptType ++ symbols) := by
  simp only [List.mem_append, not_or]
  exact ⟨digits.unpadded, by decide, spells.unpadded⟩

theorem length_start (c : List UInt8) {symbols pads : List UInt8} {owner : Hash}
    (spells : owner.Spells 27 symbols pads) :
    (c ++ (Text.utf8 scriptType ++ symbols)).length = c.length + 32 := by
  rw [List.length_append, List.length_append, spells.length, scriptType_bytes]
  rfl

/-- No equals sign comes early in the bytes of outputs to addresses. -/
theorem pad_far {ps : List Output} (owners : ∀ p ∈ ps, p.owner.Sized Hash.addressSize)
    {z t : List UInt8} (same : ps.flatMap Output.signedBytes = z ++ Base64Url.padByte :: t) :
    32 ≤ z.length := by
  cases ps with
  | nil => simp at same
  | cons p ps =>
    obtain ⟨symbols, pads, spells, _⟩ := Output.spells_address (owners p List.mem_cons_self)
    have whole := Output.signedBytes_append spells [] (ps.flatMap Output.signedBytes)
    rw [List.nil_append, List.nil_append, ← List.flatMap_cons, same] at whole
    obtain ⟨more, rfl, _⟩ := split_at (unpadded_start (.value p.value) spells) whole.symm
    rw [List.length_append, length_start _ spells]
    omega

section Reading

variable {c d r s : List UInt8} {o o' : OutPoint} {p p' : Output} {ps ps' : List Output}

/-- Two outpoints after some digits: the digits are the same, and so are the hashes. -/
theorem outpoint_outpoint (digitsC : Digits c) (digitsD : Digits d)
    (left : o.hash.Padded Hash.idSize) (right : o'.hash.Padded Hash.idSize)
    (same : c ++ (o.signedBytes ++ r) = d ++ (o'.signedBytes ++ s)) :
    c = d ∧ o.hash = o'.hash ∧
      Text.utf8 (toString o.index.toInt) ++ r = Text.utf8 (toString o'.index.toInt) ++ s := by
  obtain ⟨x, spellsX⟩ := OutPoint.spells_id left
  obtain ⟨y, spellsY⟩ := OutPoint.spells_id right
  rw [OutPoint.signedBytes_append spellsX, OutPoint.signedBytes_append spellsY] at same
  obtain ⟨heads, tails⟩ := cut_at (by simp [digitsC.unpadded, spellsX.unpadded])
    (by simp [digitsD.unpadded, spellsY.unpadded]) same
  obtain ⟨digits, rfl⟩ := List.append_inj' heads (spellsX.length.trans spellsY.length.symm)
  exact ⟨digits, spellsX.eq spellsY, tails⟩

/-- Two outputs after some digits: they have the same owner, and the same digits with their values.
What follows must not look like padding. -/
theorem output_output (digitsC : Digits c) (digitsD : Digits d)
    (left : p.owner.Sized Hash.addressSize) (right : p'.owner.Sized Hash.addressSize)
    (plainR : ∀ t, r ≠ Base64Url.padByte :: t) (plainS : ∀ t, s ≠ Base64Url.padByte :: t)
    (same : c ++ (p.signedBytes ++ r) = d ++ (p'.signedBytes ++ s)) :
    c ++ Text.utf8 (toString p.value.toNat) = d ++ Text.utf8 (toString p'.value.toNat) ∧
      p.owner = p'.owner ∧ r = s := by
  obtain ⟨x, padsX, spellsX, paddedX⟩ := Output.spells_address left
  obtain ⟨y, padsY, spellsY, paddedY⟩ := Output.spells_address right
  rw [Output.signedBytes_append spellsX, Output.signedBytes_append spellsY] at same
  simp only [scriptType_bytes, List.append_assoc, List.cons_append, List.nil_append] at same
  rw [← List.append_assoc, ← List.append_assoc d] at same
  obtain ⟨digits, tails⟩ := cut_at (digitsC.append (.value p.value)).untyped
    (digitsD.append (.value p'.value)).untyped same
  simp only [List.cons.injEq, true_and] at tails
  obtain ⟨rfl, rests⟩ := List.append_inj tails (spellsX.length.trans spellsY.length.symm)
  rcases paddedX with rfl | rfl
  · rcases paddedY with rfl | rfl
    · exact ⟨digits, spellsX.eq spellsY, rests⟩
    · exact absurd rests (plainR s)
  · rcases paddedY with rfl | rfl
    · exact absurd rests.symm (plainS r)
    · exact ⟨digits, spellsX.eq spellsY, (List.cons.inj rests).2⟩

/-- An outpoint where there are outputs: its hash can be taken for a payment. -/
theorem outpoint_output (digitsC : Digits c) (digitsD : Digits d)
    (left : o.hash.Padded Hash.idSize)
    (right : ∀ q ∈ p :: ps, q.owner.Sized Hash.addressSize)
    (same : c ++ (o.signedBytes ++ r) = d ++ (p :: ps).flatMap Output.signedBytes) :
    o.hash.ReadsAsPayment := by
  obtain ⟨x, spellsX⟩ := OutPoint.spells_id left
  obtain ⟨y, pads, spellsY, padded⟩ := Output.spells_address (right p List.mem_cons_self)
  rw [List.flatMap_cons, OutPoint.signedBytes_append spellsX, Output.signedBytes_append spellsY]
    at same
  have digits : Digits (d ++ Text.utf8 (toString p.value.toNat)) := digitsD.append (.value p.value)
  generalize d ++ Text.utf8 (toString p.value.toNat) = front at digits same
  obtain ⟨more, heads, tails⟩ := split_at (unpadded_start digits spellsY) same.symm
  -- the id ends with the address, or beyond the start of the next output, which is too far
  have few : more = [] ∨ 32 ≤ more.length := by
    rcases padded with rfl | rfl
    · exact .inr (pad_far (fun q member => right q (List.mem_cons_of_mem p member)) tails)
    · cases more with
      | nil => exact .inl rfl
      | cons byte more =>
        obtain ⟨rfl, _⟩ := List.cons.inj tails
        have inside : Base64Url.padByte ∈ c ++ x := by simp [heads]
        exact absurd inside (by simp [digitsC.unpadded, spellsX.unpadded])
  have length := congrArg List.length heads
  rw [List.length_append, List.length_append, length_start _ spellsY, spellsX.length] at length
  rw [List.append_assoc] at heads
  rcases List.append_eq_append_iff.1 heads with ⟨z, longer, rest⟩ | ⟨z, longer, rest⟩
  · rw [longer, List.length_append] at length
    have none : more = [] := few.resolve_right (by omega)
    subst none
    refine ⟨z, y ++ [Base64Url.padByte], ?_, ?_, ?_⟩
    · rw [spellsX.spelling, rest]
      simp only [List.append_assoc, List.append_nil]
    · simp only [List.length_nil] at length
      omega
    · exact fun byte member => digits byte (by simp [longer, member])
  · cases z with
    | nil =>
      rw [longer, List.append_nil] at length
      rcases few with rfl | far
      · simp at length
      · omega
    | cons byte z =>
      rw [scriptType_bytes] at rest
      obtain ⟨rfl, _⟩ := List.cons.inj rest
      exact absurd (by simp [longer]) digitsC.untyped

end Reading

theorem outputs_ne_pad {ps : List Output} (owners : ∀ p ∈ ps, p.owner.Sized Hash.addressSize)
    (t : List UInt8) : ps.flatMap Output.signedBytes ≠ Base64Url.padByte :: t := by
  intro same
  have far := pad_far owners (z := []) same
  exact absurd far (by decide)

theorem Output.signedBytes_ne_nil (p : Output) : p.signedBytes ≠ [] := fun empty =>
  Text.utf8_ne_nil (Text.toString_nat_ne_empty _) (List.append_eq_nil_iff.1 empty).1

/-- Outputs to addresses are read back one by one. -/
theorem outputs_injective {ps ps' : List Output} (left : ∀ p ∈ ps, p.owner.Sized Hash.addressSize)
    (right : ∀ p ∈ ps', p.owner.Sized Hash.addressSize)
    (same : ps.flatMap Output.signedBytes = ps'.flatMap Output.signedBytes) : ps = ps' := by
  induction ps generalizing ps' with
  | nil =>
    cases ps' with
    | nil => rfl
    | cons p' ps' => exact absurd (List.append_eq_nil_iff.1 same.symm).1 p'.signedBytes_ne_nil
  | cons p ps ih =>
    cases ps' with
    | nil => exact absurd (List.append_eq_nil_iff.1 same).1 p.signedBytes_ne_nil
    | cons p' ps' =>
      have tail := fun q member => left q (List.mem_cons_of_mem p member)
      have tail' := fun q member => right q (List.mem_cons_of_mem p' member)
      rw [List.flatMap_cons, List.flatMap_cons] at same
      obtain ⟨values, owner, tails⟩ := output_output (c := []) (d := []) .nil .nil
        (left p List.mem_cons_self) (right p' List.mem_cons_self) (outputs_ne_pad tail)
        (outputs_ne_pad tail') same
      obtain ⟨v, w⟩ := p
      obtain ⟨v', w'⟩ := p'
      cases owner
      cases value_text_injective (Text.utf8_injective values)
      rw [ih tail tail' tails]

/-- The same spends and payments, but for how the last index and the first value share their
digits. -/
def SameButDigits (os : List OutPoint) (ps : List Output) (os' : List OutPoint)
    (ps' : List Output) : Prop :=
  ∃ before hash i i' v v' owner rest,
    os = before ++ [⟨hash, i⟩] ∧ os' = before ++ [⟨hash, i'⟩] ∧
    ps = ⟨v, owner⟩ :: rest ∧ ps' = ⟨v', owner⟩ :: rest ∧
    toString i.toInt ++ toString v.toNat = toString i'.toInt ++ toString v'.toNat

theorem SameButDigits.cons {os os' : List OutPoint} {ps ps' : List Output}
    (h : SameButDigits os ps os' ps') (o : OutPoint) :
    SameButDigits (o :: os) ps (o :: os') ps' := by
  obtain ⟨before, hash, i, i', v, v', owner, rest, rfl, rfl, left, right, digits⟩ := h
  exact ⟨o :: before, hash, i, i', v, v', owner, rest, rfl, rfl, left, right, digits⟩

theorem SameButDigits.eq {os os' : List OutPoint} {ps ps' : List Output}
    (h : SameButDigits os ps os' ps')
    (settled : os.getLast? = os'.getLast? ∨ ps.head? = ps'.head?) : os = os' ∧ ps = ps' := by
  obtain ⟨before, hash, i, i', v, v', owner, rest, rfl, rfl, rfl, rfl, digits⟩ := h
  have bytes := congrArg Text.utf8 digits
  rw [Text.utf8_append, Text.utf8_append] at bytes
  rcases settled with last | first
  · rw [List.getLast?_concat, List.getLast?_concat] at last
    cases last
    cases value_text_injective (Text.utf8_injective (List.append_cancel_left bytes))
    exact ⟨rfl, rfl⟩
  · cases first
    cases index_text_injective (Text.utf8_injective (List.append_cancel_right bytes))
    exact ⟨rfl, rfl⟩

/-- However the last index and the first value share their digits, the signed bytes are the same. -/
theorem SameButDigits.payload_eq {os os' : List OutPoint} {ps ps' : List Output}
    (h : SameButDigits os ps os' ps') : signingPayload os ps = signingPayload os' ps' := by
  obtain ⟨before, hash, i, i', v, v', owner, rest, rfl, rfl, rfl, rfl, digits⟩ := h
  have bytes := congrArg Text.utf8 digits
  rw [Text.utf8_append, Text.utf8_append] at bytes
  have shared : ∀ r, Text.utf8 (toString i.toInt) ++ (Text.utf8 (toString v.toNat) ++ r) =
      Text.utf8 (toString i'.toInt) ++ (Text.utf8 (toString v'.toNat) ++ r) := by
    intro r
    rw [← List.append_assoc, bytes, List.append_assoc]
  simp only [signingPayload_eq, List.flatMap_append, List.flatMap_cons, List.flatMap_nil,
    List.append_nil, List.append_assoc, OutPoint.signedBytes, Output.signedBytes, shared]

/-- What is asked of an outpoint after the first: a place, and an id that is not taken for a
payment. -/
structure OutPoint.Following (o : OutPoint) : Prop where
  nonneg : 0 ≤ o.index
  padded : o.hash.Padded Hash.idSize
  telling : ¬ o.hash.ReadsAsPayment

theorem sameButDigits_of_following {p p' : Output} {ps ps' : List Output}
    (paid : ∀ q ∈ p :: ps, q.owner.Sized Hash.addressSize)
    (paid' : ∀ q ∈ p' :: ps', q.owner.Sized Hash.addressSize) {os os' : List OutPoint}
    (left : ∀ q ∈ os, q.Following) (right : ∀ q ∈ os', q.Following) {o o' : OutPoint}
    (hash : o.hash = o'.hash) (nonneg : 0 ≤ o.index) (nonneg' : 0 ≤ o'.index)
    (same : Text.utf8 (toString o.index.toInt) ++
        (os.flatMap OutPoint.signedBytes ++ (p :: ps).flatMap Output.signedBytes) =
      Text.utf8 (toString o'.index.toInt) ++
        (os'.flatMap OutPoint.signedBytes ++ (p' :: ps').flatMap Output.signedBytes)) :
    SameButDigits (o :: os) (p :: ps) (o' :: os') (p' :: ps') := by
  have tail := fun q member => paid q (List.mem_cons_of_mem p member)
  have tail' := fun q member => paid' q (List.mem_cons_of_mem p' member)
  -- on the outpoints of both sides at once: each hash leaves the digits of its index to the next
  induction os generalizing os' o o' with
  | nil =>
    cases os' with
    | nil =>
      obtain ⟨digits, owner, tails⟩ := output_output (.index nonneg) (.index nonneg')
        (paid p List.mem_cons_self) (paid' p' List.mem_cons_self) (outputs_ne_pad tail)
        (outputs_ne_pad tail') same
      have rest := outputs_injective tail tail' tails
      obtain ⟨h, i⟩ := o
      obtain ⟨h', i'⟩ := o'
      obtain ⟨v, w⟩ := p
      obtain ⟨v', w'⟩ := p'
      cases hash
      cases owner
      cases rest
      rw [← Text.utf8_append, ← Text.utf8_append] at digits
      exact ⟨[], h, i, i', v, v', w, ps, rfl, rfl, rfl, rfl, Text.utf8_injective digits⟩
    | cons q' qs' =>
      have next := right q' List.mem_cons_self
      simp only [List.flatMap_cons, List.append_assoc] at same
      exact absurd (outpoint_output (.index nonneg') (.index nonneg) next.padded paid same.symm)
        next.telling
  | cons q qs ih =>
    have next := left q List.mem_cons_self
    cases os' with
    | nil =>
      simp only [List.flatMap_cons, List.append_assoc] at same
      exact absurd (outpoint_output (.index nonneg) (.index nonneg') next.padded paid' same)
        next.telling
    | cons q' qs' =>
      have next' := right q' List.mem_cons_self
      simp only [List.flatMap_cons, List.append_assoc] at same
      obtain ⟨digits, hashes, tails⟩ := outpoint_outpoint (.index nonneg) (.index nonneg')
        next.padded next'.padded same
      have agree := ih (fun o member => left o (List.mem_cons_of_mem q member))
        (fun o member => right o (List.mem_cons_of_mem q' member)) hashes next.nonneg next'.nonneg
        tails
      obtain ⟨h, i⟩ := o
      obtain ⟨h', i'⟩ := o'
      cases hash
      cases index_text_injective (Text.utf8_injective digits)
      exact agree.cons ⟨h, i⟩

/-- The zeros of the coinbase outpoint stand where an id has its equals sign. -/
theorem coinbase_ne_spend {o q : OutPoint} (coinbase : o.isCoinbase = true)
    (padded : q.hash.Padded Hash.idSize) (r s : List UInt8) :
    o.signedBytes ++ r ≠ q.signedBytes ++ s := by
  intro same
  obtain ⟨symbols, spells⟩ := OutPoint.spells_id padded
  have spelling : o.hash.spelling = coinbaseSpelling :=
    eq_of_beq (Bool.and_eq_true_iff.1 coinbase).2
  have zeros : Text.utf8 coinbaseSpelling = List.replicate 64 48 := rfl
  have left : (o.signedBytes ++ r)[43]? = some 48 := by
    rw [OutPoint.signedBytes, spelling, zeros, List.append_assoc, List.getElem?_append_left]
    · rfl
    · decide
  have right : (q.signedBytes ++ s)[43]? = some Base64Url.padByte := by
    have whole := OutPoint.signedBytes_append spells [] s
    rw [List.nil_append, List.nil_append] at whole
    rw [whole, List.getElem?_append_right (Nat.le_of_eq spells.length), spells.length]
    rfl
  rw [same, right] at left
  exact absurd left (by decide)

theorem OutPoint.eq_of_coinbase {o q : OutPoint} (left : o.isCoinbase = true)
    (right : q.isCoinbase = true) : o = q := by
  obtain ⟨h, i⟩ := o
  obtain ⟨k, j⟩ := q
  have index : i = j := (Body.index_of_coinbase left).trans (Body.index_of_coinbase right).symm
  have spelling : h.spelling = k.spelling := (eq_of_beq (Bool.and_eq_true_iff.1 left).2).trans
    (eq_of_beq (Bool.and_eq_true_iff.1 right).2).symm
  rw [index, Hash.eq_of_spelling spelling]

end CoinLedger
