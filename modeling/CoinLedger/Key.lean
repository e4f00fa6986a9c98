import CoinLedger.Edwards
import CoinLedger.Hash

/-!
Public keys, signatures and secrets: rows of bytes of a fixed size with a base64url text. A public
key that was read stands for a point of the curve; the bytes are kept as they were given, and all
comparisons are on them.
-/

namespace CoinLedger

/-- The 32 bytes of a public key. -/
structure PublicKey where
  bytes : List UInt8
  size : bytes.length = 32
  deriving DecidableEq

namespace PublicKey

/-- The key stands for a point of the curve. -/
def isPoint (key : PublicKey) : Bool := (Edwards.Point.decompress? key.bytes).isSome

def ofText (text : String) : Except Malformed PublicKey :=
  match Base64Url.decode (Text.utf8 text) with
  | .error fault => .error (.publicKeyText fault)
  | .ok bytes =>
    if h : bytes.length = 32 then
      if (PublicKey.mk bytes h).isPoint then .ok ⟨bytes, h⟩ else .error .publicKeyPoint
    else .error .publicKeySize

def text (key : PublicKey) : String := Base64Url.text key.bytes

/-- The address that outputs to this key are paid to. -/
def address (key : PublicKey) : Hash := Hash.ofPublicKey key.bytes

end PublicKey

/-- The 64 bytes of a signature, valid or not. -/
structure Signature where
  bytes : List UInt8
  size : bytes.length = 64
  deriving DecidableEq

namespace Signature

def ofText (text : String) : Except Malformed Signature :=
  match Base64Url.decode (Text.utf8 text) with
  | .error fault => .error (.signatureText fault)
  | .ok bytes => if h : bytes.length = 64 then .ok ⟨bytes, h⟩ else .error .signatureSize

def text (signature : Signature) : String := Base64Url.text signature.bytes

end Signature

/-- Strict verification of a signature on a message. -/
def PublicKey.verify (key : PublicKey) (message : List UInt8) (signature : Signature) : Bool :=
  Edwards.verify key.bytes message signature.bytes

/-- Whatever can name its public key and sign. Nothing is assumed about the signatures. -/
structure Signer where
  publicKey : PublicKey
  sign : List UInt8 → Signature

/-- A 32-byte secret. -/
structure KeyPair where
  secret : List UInt8
  size : secret.length = 32
  deriving DecidableEq

namespace KeyPair

def ofText (text : String) : Except Malformed KeyPair :=
  match Base64Url.decode (Text.utf8 text) with
  | .error fault => .error (.secretText fault)
  | .ok bytes => if h : bytes.length = 32 then .ok ⟨bytes, h⟩ else .error .secretSize

def secretText (keys : KeyPair) : String := Base64Url.text keys.secret

def publicKey (keys : KeyPair) : PublicKey :=
  ⟨Edwards.publicBytes keys.secret, Edwards.length_publicBytes _⟩

def sign (keys : KeyPair) (message : List UInt8) : Signature :=
  ⟨Edwards.sign keys.secret message, Edwards.length_sign _ _⟩

def signer (keys : KeyPair) : Signer := ⟨keys.publicKey, keys.sign⟩

end KeyPair

end CoinLedger
