import CoinLedger.Json.Record
import CoinLedger.Transaction.Basic

/-!
Bodies as JSON documents. An input is always an object and its unknown members must be readable;
every other record may also come as an array of its fields. Hashes travel in their spelling, keys
and signatures in padded base64url.
-/

namespace CoinLedger

/-- The document of a hash is its spelling. -/
def Hash.toJson (h : Hash) : Json := .ofText h.spelling

def Hash.ofJson? (v : Json) : Option Hash := v.asText?.bind fun s => (Hash.ofText s).toOption

def PublicKey.toJson (key : PublicKey) : Json := .ofText key.text

def PublicKey.ofJson? (v : Json) : Option PublicKey :=
  v.asText?.bind fun s => (PublicKey.ofText s).toOption

def Signature.toJson (signature : Signature) : Json := .ofText signature.text

def Signature.ofJson? (v : Json) : Option Signature :=
  v.asText?.bind fun s => (Signature.ofText s).toOption

def checkScriptType? (v : Json) : Option Unit :=
  if v.asWord? = some scriptType then some () else none

namespace Unlock

def toJson (u : Unlock) : Json :=
  .ofFields [("type", .ofText scriptType), ("pubkey", u.key.toJson), ("sig", u.signature.toJson)]

def ofJson? (v : Json) : Option Unlock := do
  match ← v.record? ["type", "pubkey", "sig"] with
  | [type, key, signature] =>
    checkScriptType? type
    return ⟨← PublicKey.ofJson? key, ← Signature.ofJson? signature⟩
  | _ => none

end Unlock

namespace Input

def knownKeys : List String := ["tx_out_hash", "tx_out_index", "script"]

def toJson (i : Input) : Json :=
  .ofFields
    ([("tx_out_hash", i.outpoint.hash.toJson), ("tx_out_index", .ofInt i.outpoint.index.toInt)] ++
      match i.unlock with
      | some u => [("script", u.toJson)]
      | none => [])

/-- The input that an object holds, `depth` arrays and objects being open inside it and around it,
its own bracket included. A script may be missing or null. -/
def ofJson? (depth : Nat) (v : Json) : Option Input := do
  let members ← v.asMembers?
  let unknown := members.filter fun (k, _) => k ∉ knownKeys
  if unknown.all fun (_, v) => v.isReadable (Json.depthLimit - depth) then
    let hash ← Hash.ofJson? (← Json.required? "tx_out_hash" members)
    let index ← (← Json.required? "tx_out_index" members).asInt64?
    let unlock ← match ← Json.optional? "script" members with
      | .null => some none
      | script => (Unlock.ofJson? script).map some
    return ⟨⟨hash, index⟩, unlock⟩
  else none

end Input

namespace Output

def toJson (o : Output) : Json :=
  .ofFields
    [("value", .ofInt o.value.toNat),
      ("script", .ofFields [("type", .ofText scriptType), ("pubkey_hash", o.owner.toJson)])]

def ofJson? (v : Json) : Option Output := do
  match ← v.record? ["value", "script"] with
  | [value, script] =>
    match ← script.record? ["type", "pubkey_hash"] with
    | [type, owner] =>
      checkScriptType? type
      return ⟨← value.asUInt64?, ← Hash.ofJson? owner⟩
    | _ => none
  | _ => none

end Output

namespace Body

def toJson (b : Body) : Json :=
  .ofFields
    [("version", .ofInt b.version.toNat), ("inputs", .array (b.inputs.map Input.toJson)),
      ("outputs", .array (b.outputs.map Output.toJson)), ("lock_time", .ofInt b.lockTime.toNat)]

/-- The body that a record holds, `outside` arrays and objects being open around it. -/
def ofJson? (outside : Nat) (v : Json) : Option Body := do
  match ← v.record? ["version", "inputs", "outputs", "lock_time"] with
  | [version, inputs, outputs, lockTime] =>
    let version ← version.asUInt32?
    let inputs ← (← inputs.asArray?).mapM (Input.ofJson? (outside + 3))
    let outputs ← (← outputs.asArray?).mapM Output.ofJson?
    let lockTime ← lockTime.asUInt64?
    if fit : outputs.length < placeBound then return ⟨version, inputs, outputs, lockTime, fit⟩
    else none
  | _ => none

end Body

end CoinLedger
