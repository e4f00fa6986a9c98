import CoinLedger.Message
import CoinLedger.Proofs.Json.Reading
import CoinLedger.Proofs.Json.Record
import CoinLedger.Proofs.Spelling

/-!
Messages on the wire. Main statement: a message is decoded to itself from its bytes, with every hash in
the spelling that it had, exactly when its keys are points of the curve, and that they always are in
what was read.
-/

namespace CoinLedger

@[simp] theorem Hash.ofJson?_toJson (h : Hash) : ofJson? h.toJson = some h := by
  rw [ofJson?, toJson, Json.asText?_ofText, Option.bind_some, ofText_eq_ok_iff.2 rfl]
  rfl

theorem PublicKey.ofJson?_toJson {key : PublicKey} (point : key.isPoint = true) :
    ofJson? key.toJson = some key := by
  rw [ofJson?, toJson, Json.asText?_ofText, Option.bind_some, ofText_text point]
  rfl

@[simp] theorem Signature.ofJson?_toJson (signature : Signature) :
    ofJson? signature.toJson = some signature := by
  rw [ofJson?, toJson, Json.asText?_ofText, Option.bind_some, ofText_text]
  rfl

theorem checkScriptType?_scriptType : checkScriptType? (.ofText scriptType) = some () :=
  if_pos (Json.asText?_ofText scriptType)

theorem Edwards.isSome_decompress?_of_verify {key message signature : List UInt8}
    (h : verify key message signature = true) : (Point.decompress? key).isSome = true := by
  unfold verify at h
  rw [Option.any_eq_true] at h
  obtain ⟨a, known, _⟩ := h
  rw [known]
  rfl

theorem PublicKey.isPoint_of_verify {key : PublicKey} {message : List UInt8} {signature : Signature}
    (h : key.verify message signature = true) : key.isPoint = true :=
  Edwards.isSome_decompress?_of_verify h

/-- The key of a proof, if there is one, is a point of the curve. -/
def Input.KeyOnCurve (i : Input) : Prop := ∀ u, i.unlock = some u → u.key.isPoint = true

def Body.KeysOnCurve (b : Body) : Prop := ∀ i ∈ b.inputs, i.KeyOnCurve

theorem Unlock.ofJson?_toJson {u : Unlock} (point : u.key.isPoint = true) :
    ofJson? u.toJson = some u := by
  have record : u.toJson.record? ["type", "pubkey", "sig"] =
      some [.ofText scriptType, u.key.toJson, u.signature.toJson] :=
    Json.record?_ofFields (by simp)
  simp only [ofJson?, record, Option.bind_eq_bind, Option.bind_some, checkScriptType?_scriptType,
    PublicKey.ofJson?_toJson point, Signature.ofJson?_toJson]
  rfl

theorem Input.ofJson?_toJson (depth : Nat) {i : Input} (keyed : i.KeyOnCurve) :
    ofJson? depth i.toJson = some i := by
  obtain ⟨o, unlock⟩ := i
  cases unlock with
  | none => simp [ofJson?, toJson, knownKeys, Json.required?, Json.optional?, Json.valuesOf]
  | some u =>
    have script := Unlock.ofJson?_toJson (keyed u rfl)
    have record : u.toJson ≠ .null := by simp [Unlock.toJson, Json.ofFields]
    simp [ofJson?, toJson, knownKeys, Json.required?, Json.optional?, Json.valuesOf, script]

theorem Output.ofJson?_toJson (o : Output) : ofJson? o.toJson = some o := by
  have script : (Json.ofFields [("type", .ofText scriptType), ("pubkey_hash", o.owner.toJson)]).record?
      ["type", "pubkey_hash"] = some [.ofText scriptType, o.owner.toJson] :=
    Json.record?_ofFields (by simp)
  have record : o.toJson.record? ["value", "script"] =
      some [.ofInt o.value.toNat,
        .ofFields [("type", .ofText scriptType), ("pubkey_hash", o.owner.toJson)]] :=
    Json.record?_ofFields (by simp)
  simp only [ofJson?, record, script, Option.bind_eq_bind, Option.bind_some,
    checkScriptType?_scriptType, Json.asUInt64?_ofInt, Hash.ofJson?_toJson]
  rfl

theorem Body.ofJson?_toJson (outside : Nat) {b : Body} (keyed : b.KeysOnCurve) :
    ofJson? outside b.toJson = some b := by
  have record : b.toJson.record? ["version", "inputs", "outputs", "lock_time"] =
      some [.ofInt b.version.toNat, .array (b.inputs.map Input.toJson),
        .array (b.outputs.map Output.toJson), .ofInt b.lockTime.toNat] :=
    Json.record?_ofFields (by simp)
  have inputs : (b.inputs.map Input.toJson).mapM (Input.ofJson? (outside + 3)) = some b.inputs :=
    mapM_map_eq_some fun i member => Input.ofJson?_toJson _ (keyed i member)
  have outputs : (b.outputs.map Output.toJson).mapM Output.ofJson? = some b.outputs :=
    mapM_map_eq_some fun o _ => Output.ofJson?_toJson o
  simp only [ofJson?, record, Option.bind_eq_bind, Option.bind_some, Json.asUInt32?_ofInt,
    Json.asUInt64?_ofInt, Json.asArray?, inputs, outputs, dif_pos b.outputs_fit]
  rfl

namespace Json

theorem built_hash (h : Hash) : Built h.toJson := .ofText _

theorem built_unlock (u : Unlock) : Built u.toJson := by
  refine .ofFields ?_
  simp only [List.forall_mem_cons]
  exact ⟨.ofText _, .ofText _, .ofText _, fun _ none => nomatch none⟩

theorem built_input (i : Input) : Built i.toJson := by
  apply Built.ofFields
  intro f member
  rcases List.mem_append.1 member with member | member
  · simp only [List.mem_cons, List.not_mem_nil, or_false] at member
    rcases member with rfl | rfl
    · exact built_hash _
    · exact .ofInt _
  · cases shown : i.unlock with
    | none =>
      rw [shown] at member
      exact nomatch member
    | some u =>
      rw [shown] at member
      cases List.mem_singleton.1 member
      exact built_unlock u

theorem built_output (o : Output) : Built o.toJson := by
  refine .ofFields ?_
  simp only [List.forall_mem_cons]
  refine ⟨.ofInt _, .ofFields ?_, fun _ none => nomatch none⟩
  simp only [List.forall_mem_cons]
  exact ⟨.ofText _, built_hash _, fun _ none => nomatch none⟩

theorem built_body (b : Body) : Built b.toJson := by
  refine .ofFields ?_
  simp only [List.forall_mem_cons]
  refine ⟨.ofInt _, .array fun v member => ?_, .array fun v member => ?_, .ofInt _,
    fun _ none => nomatch none⟩
  · obtain ⟨i, _, rfl⟩ := List.mem_map.1 member
    exact built_input i
  · obtain ⟨o, _, rfl⟩ := List.mem_map.1 member
    exact built_output o

theorem built_fields (m : Message) :
    ∀ f ∈ [("transaction_id", m.id.toJson), ("transaction", m.body.toJson)], Built f.2 := by
  simp only [List.forall_mem_cons]
  exact ⟨built_hash _, built_body _, fun _ none => nomatch none⟩

theorem built_message (m : Message) : Built m.toJson := .ofFields (built_fields m)

end Json

namespace Message

theorem ofJson?_toJson (outside : Nat) {m : Message} (keyed : m.body.KeysOnCurve) :
    ofJson? outside m.toJson = some m := by
  have record : m.toJson.record? ["transaction_id", "transaction"] =
      some [m.id.toJson, m.body.toJson] :=
    Json.record?_ofFields (by simp)
  simp only [ofJson?, record, Option.bind_eq_bind, Option.bind_some, Hash.ofJson?_toJson,
    Body.ofJson?_toJson _ keyed]
  rfl

theorem decode_encode {m : Message} (keyed : m.body.KeysOnCurve) : decode m.encode = .ok m := by
  have read : Json.read? m.encode = some m.toJson := Json.read?_compact (Json.built_fields m)
  rw [decode, read, Option.bind_some, ofJson?_toJson 0 keyed]

theorem transaction_ofTransaction {tx : Transaction} (schema : tx.body.checkSchema = .ok ()) :
    (ofTransaction tx).transaction = .ok tx := by
  obtain ⟨id, body, rfl⟩ := tx
  simp only [transaction, ofTransaction, schema]
  exact if_pos rfl

end Message

section Reading

theorem PublicKey.isPoint_of_ofJson? {v : Json} {key : PublicKey} (h : ofJson? v = some key) :
    key.isPoint = true := by
  obtain ⟨text, _, read⟩ := Option.bind_eq_some_iff.1 h
  cases found : ofText text with
  | error fault => rw [found] at read; exact nomatch read
  | ok other =>
    rw [found] at read
    cases read
    exact isPoint_of_ofText found

theorem Unlock.isPoint_of_ofJson? {v : Json} {u : Unlock} (h : ofJson? v = some u) :
    u.key.isPoint = true := by
  unfold ofJson? at h
  obtain ⟨fields, _, h⟩ := Option.bind_eq_some_iff.1 h
  split at h
  · simp only [Option.bind_eq_bind, Option.bind_eq_some_iff] at h
    obtain ⟨_, _, key, read, signature, _, h⟩ := h
    cases h
    exact PublicKey.isPoint_of_ofJson? read
  · exact nomatch h

theorem Input.keyOnCurve_of_ofJson? {depth : Nat} {v : Json} {i : Input}
    (h : ofJson? depth v = some i) : i.KeyOnCurve := by
  unfold ofJson? at h
  obtain ⟨members, _, h⟩ := Option.bind_eq_some_iff.1 h
  dsimp only at h
  split at h
  · simp only [Option.bind_eq_bind, Option.bind_eq_some_iff] at h
    obtain ⟨_, _, hash, _, _, _, index, _, script, _, h⟩ := h
    split at h
    · cases h
      exact fun _ none => nomatch none
    · obtain ⟨unlock, read, h⟩ := Option.bind_eq_some_iff.1 h
      obtain ⟨found, shown, rfl⟩ := Option.map_eq_some_iff.1 read
      cases h
      rintro u ⟨⟩
      exact Unlock.isPoint_of_ofJson? shown
  · exact nomatch h

theorem Body.keysOnCurve_of_ofJson? {outside : Nat} {v : Json} {b : Body}
    (h : ofJson? outside v = some b) : b.KeysOnCurve := by
  unfold ofJson? at h
  obtain ⟨fields, _, h⟩ := Option.bind_eq_some_iff.1 h
  split at h
  · simp only [Option.bind_eq_bind, Option.bind_eq_some_iff] at h
    obtain ⟨version, _, items, _, inputs, read, _, _, outputs, _, lockTime, _, h⟩ := h
    split at h
    · cases h
      exact forall_mem_of_mapM_eq_some (fun _ _ => Input.keyOnCurve_of_ofJson?) read
    · exact nomatch h
  · exact nomatch h

theorem Message.keysOnCurve_of_ofJson? {outside : Nat} {v : Json} {m : Message}
    (h : ofJson? outside v = some m) : m.body.KeysOnCurve := by
  unfold ofJson? at h
  obtain ⟨fields, _, h⟩ := Option.bind_eq_some_iff.1 h
  split at h
  · obtain ⟨_, _, h⟩ := Option.bind_eq_some_iff.1 h
    obtain ⟨body, built, h⟩ := Option.bind_eq_some_iff.1 h
    cases h
    exact Body.keysOnCurve_of_ofJson? built
  · exact nomatch h

theorem Message.keysOnCurve_of_decode {bytes : List UInt8} {m : Message} (h : decode bytes = .ok m) :
    m.body.KeysOnCurve := by
  unfold decode at h
  split at h
  · next found read =>
    cases h
    obtain ⟨v, _, read⟩ := Option.bind_eq_some_iff.1 read
    exact keysOnCurve_of_ofJson? read
  · exact nomatch h

end Reading

namespace Message

/-- Every message comes back from the wire as it was, each hash in its own spelling, if only its keys
are points of the curve; what was read has no other keys. So does every transaction of the right form,
under its own id. -/
theorem wire_round_trip :
    (∀ m : Message, decode m.encode = .ok m ↔ m.body.KeysOnCurve) ∧
    (∀ bytes m, decode bytes = .ok m → decode m.encode = .ok m) ∧
    ∀ tx : Transaction, tx.body.KeysOnCurve → tx.body.checkSchema = .ok () →
      (decode (ofTransaction tx).encode).bind transaction = .ok tx := by
  refine ⟨fun m => ⟨keysOnCurve_of_decode, decode_encode⟩, ?_, ?_⟩
  · intro bytes m read
    exact decode_encode (keysOnCurve_of_decode read)
  · intro tx keyed schema
    rw [decode_encode keyed]
    exact transaction_ofTransaction schema

section Extremes

/-- One byte, its spelling without padding, with part of it, and with all of it. -/
def unpaddedByte : Hash := ⟨"AA", [0], rfl, by decide⟩

def partlyPaddedByte : Hash := ⟨"AA=", [0], rfl, by decide⟩

def paddedByte : Hash := ⟨"AA==", [0], rfl, by decide⟩

/-- The key of the neutral point, and a signature of nothing. -/
def neutral : Unlock :=
  ⟨⟨1 :: List.replicate 31 0, rfl⟩, ⟨List.replicate 64 255, rfl⟩⟩

theorem isPoint_neutral : neutral.key.isPoint = true := by decide +kernel

/-- A message that is at the ends of every range. -/
def extreme : Message where
  id := partlyPaddedByte
  body :=
    { version := 0xffffffff
      inputs := [⟨⟨unpaddedByte, Int64.minValue⟩, some neutral⟩, ⟨⟨paddedByte, Int64.maxValue⟩, none⟩]
      outputs := [⟨0xffffffffffffffff, partlyPaddedByte⟩, ⟨0, unpaddedByte⟩]
      lockTime := 0xffffffffffffffff
      outputs_fit := by decide }

def unpaddedSpend : Transaction :=
  .ofBody
    { version := protocolVersion
      inputs := [⟨⟨unpaddedByte, Int64.maxValue⟩, some neutral⟩]
      outputs := [⟨0xffffffffffffffff, partlyPaddedByte⟩]
      lockTime := 0
      outputs_fit := by decide }

theorem wire_round_trip_extreme :
    decode extreme.encode = .ok extreme ∧
      (decode (ofTransaction unpaddedSpend).encode).bind transaction = .ok unpaddedSpend := by
  have keyed : extreme.body.KeysOnCurve := by
    intro i member u shown
    rcases List.mem_cons.1 member with rfl | member
    · cases shown
      exact isPoint_neutral
    · cases List.mem_singleton.1 member
      exact nomatch shown
  have keyed' : unpaddedSpend.body.KeysOnCurve := by
    intro i member u shown
    cases List.mem_singleton.1 member
    cases shown
    exact isPoint_neutral
  exact ⟨(wire_round_trip.1 extreme).2 keyed,
    wire_round_trip.2.2 unpaddedSpend keyed' rfl⟩

end Extremes

end Message

end CoinLedger
