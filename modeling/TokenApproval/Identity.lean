import TokenApproval.Hash.Message
import TokenApproval.Hex
import TokenApproval.Ledger.Record
import TokenApproval.Secp256k1

/-!
# Owners of accounts

An account belongs to a public key. Its owner is known by the key, and by signatures that the key
accepts.
-/

/-! ## Why keys and ownership signatures are refused -/

namespace TokenApproval

inductive KeyFault where
  /-- Only keys of 33 bytes are accepted. -/
  | notCompressed (got : Nat)
  /-- Only keys of 33 or 65 bytes are accepted. -/
  | length (got : Nat)
  /-- The bytes are not a point of the curve. -/
  | malformed
  | described (reason : String)
deriving DecidableEq, Repr

def KeyFault.message : KeyFault → String
  | .notCompressed got => "expected 33 bytes, got " ++ toString got
  | .length got => "expected 33 or 65 bytes, got " ++ toString got
  | .malformed => "malformed public key"
  | .described reason => reason

inductive SignatureFault where
  | length (expected got : Nat)
  /-- A number is not below the order of the group. -/
  | malformed
  /-- The recovery identifier is above 3. -/
  | recoveryId
  | described (reason : String)
deriving DecidableEq, Repr

def SignatureFault.message : SignatureFault → String
  | .length expected got => (OctetsError.length expected got).message
  | .malformed => "malformed signature"
  | .recoveryId => "bad recovery id"
  | .described reason => reason

/-- Why a key or a signature is refused. -/
inductive IdentityError where
  | invalidPublicKey (fault : KeyFault)
  /-- The bytes are not two numbers. -/
  | invalidEncoding (fault : SignatureFault)
  /-- The signature is not in normal form. -/
  | malleable
  /-- The signature is not one of the message by the key's owner. -/
  | mismatch
deriving DecidableEq, Repr

def IdentityError.message : IdentityError → String
  | .invalidPublicKey fault => "invalid public key: " ++ fault.message
  | .invalidEncoding fault => "invalid signature encoding: " ++ fault.message
  | .malleable => "malleable signature: s is not in the lower half of the curve order"
  | .mismatch => "invalid signature"

/-! ## Identity schemes

A scheme says which account a public key controls and how a wallet hashes the messages it signs. -/

open Secp256k1 (PublicKey)

/-- The two schemes of the wallets in use. -/
inductive Scheme where
  /-- Accounts are RIPEMD-160 over SHA-256 of compressed keys; messages are hashed with SHA-256. -/
  | cosmos
  /-- Accounts are the end of the Keccak hash of full keys; messages are signed as personal
  messages. -/
  | ethereum
deriving DecidableEq, Repr

/-- The last 20 bytes of the Keccak hash of a key's coordinates. -/
def keccakAccount (key : PublicKey) : AccountId :=
  ⟨⟨(keccak256 (key.uncompressed.drop 1)).bytes.drop 12,
    by rw [List.length_drop, Octets.length_bytes]⟩⟩

namespace Scheme

/-- The account that a key controls. -/
def accountOf : Scheme → PublicKey → AccountId
  | .cosmos, key => ⟨hash160 key.compressed⟩
  | .ethereum, key => keccakAccount key

/-- What is wrong with the length of a key, if the scheme does not take it. -/
def lengthFault? : Scheme → (length : Nat) → Option KeyFault
  | .cosmos, length =>
    if length = PublicKey.compressedLength then none else some (.notCompressed length)
  | .ethereum, length =>
    if length = PublicKey.compressedLength ∨ length = PublicKey.uncompressedLength then none
    else some (.length length)

/-- The key that a byte string spells and the account that it controls. -/
def identify (scheme : Scheme) (bytes : Bytes) : Except IdentityError (AccountId × PublicKey) :=
  match scheme.lengthFault? bytes.length with
  | some fault => .error (.invalidPublicKey fault)
  | none =>
    match PublicKey.ofBytes? bytes with
    | none => .error (.invalidPublicKey .malformed)
    | some key => .ok (scheme.accountOf key, key)

/-- The hash that a wallet of the scheme signs for a message. -/
def messageHash : Scheme → Bytes → Octets 32
  | .cosmos, message => sha256 message
  | .ethereum, message => personalMessageHash message

end Scheme

/-! ## Checks of signatures

An ownership signature is accepted in normal form only, so that no second signature of the same
message passes. `recoverPublicKey` finds the signer of an approval signature: 64 bytes and a
recovery identifier. -/

open Secp256k1 (PublicKey Signature RecoverableSignature)

/-- Accepts the normal-form signatures of a digest by the key's owner. -/
def checkSignature (key : PublicKey) (signature : Bytes) (digest : Octets 32) :
    Except IdentityError Unit :=
  if signature.length ≠ Signature.compactLength then
    .error (.invalidEncoding (.length Signature.compactLength signature.length))
  else
    match Signature.ofBytes? signature with
    | none => .error (.invalidEncoding .malformed)
    | some parsed =>
      if parsed.isHigh then .error .malleable
      else if parsed.verify key digest then .ok ()
      else .error .mismatch

/-- Accepts the signatures that `checkSignature` accepts of the scheme's hash of a message. -/
def Scheme.checkMessage (scheme : Scheme) (key : PublicKey) (signature message : Bytes) :
    Except IdentityError Unit :=
  checkSignature key signature (scheme.messageHash message)

def approvalSignatureLength : Nat := 65

/-- The key behind an approval signature of a digest. -/
def recoverPublicKey (digest : Octets 32) (signature : Bytes) : Except IdentityError PublicKey :=
  if signature.length ≠ approvalSignatureLength then
    .error (.invalidEncoding (.length approvalSignatureLength signature.length))
  else
    let recovery := (signature.getD 64 0).toNat
    if 3 < recovery then .error (.invalidEncoding .recoveryId)
    else
      match Signature.ofBytes? (signature.take 64) with
      | none => .error (.invalidEncoding .malformed)
      | some parsed =>
        match RecoverableSignature.recover? digest ⟨parsed, recovery⟩ with
        | none => .error .mismatch
        | some key => .ok key

end TokenApproval
