import TokenApproval.Data
import TokenApproval.Ledger.Basic
import TokenApproval.Ledger.Leaf
import TokenApproval.Signing

/-!
# Requests, responses and refusals

What is asked for, what an approval answers, and why there is none.
-/

/-! ## Why an approval is refused

Each refusal is of one kind, which clients and logs see by its name. Errors of keys and signatures,
of the ledger, of leaves and of the signer each have their place among the kinds. -/

namespace TokenApproval

/-- What is wrong with a request itself. -/
inductive RequestFault where
  | emptySymbol
  /-- A field is not hexadecimal. -/
  | fieldHex (field : String) (cause : HexError)
  | fieldLength (field : String) (expected got : Nat)
  | destination (cause : OctetsError)
  | zeroDestination
  /-- What is asked for has no leaf. -/
  | leaf (cause : LeafError)
  /-- The body is not a request. -/
  | body (cause : Data.Fault)
deriving DecidableEq

def RequestFault.message : RequestFault → String
  | .emptySymbol => "token_symbol is empty"
  | .fieldHex field cause => "invalid " ++ field ++ ": " ++ cause.message
  | .fieldLength field expected got =>
    field ++ " must be " ++ toString expected ++ " bytes, got " ++ toString got
  | .destination cause => "invalid destination address: " ++ cause.message
  | .zeroDestination => "destination address is zero"
  | .leaf cause => cause.message
  | .body cause => "invalid request body: " ++ cause.message

/-- Why an approval is refused. -/
inductive ApprovalError where
  | badRequest (fault : RequestFault)
  | invalidPublicKey (fault : KeyFault)
  | invalidSignature
  | malleableSignature
  | notWhitelisted (account : String)
  | accountNotFound
  | proofNotFound
  | assetNotFound
  | notAssetOwner (denom : String)
  | zeroBalance (denom : String)
  | signingFailed (cause : SignerError)
  | storeUnavailable (cause : LedgerError)
  /-- A balance was looked up at a position that the account does not have. -/
  | internal (index : Nat)
deriving DecidableEq

namespace ApprovalError

def kind : ApprovalError → String
  | .badRequest _ => "bad_request"
  | .invalidPublicKey _ => "invalid_public_key"
  | .invalidSignature => "invalid_signature"
  | .malleableSignature => "malleable_signature"
  | .notWhitelisted _ => "not_whitelisted"
  | .accountNotFound => "account_not_found"
  | .proofNotFound => "proof_not_found"
  | .assetNotFound => "asset_not_found"
  | .notAssetOwner _ => "not_asset_owner"
  | .zeroBalance _ => "zero_balance"
  | .signingFailed _ => "signing_failed"
  | .storeUnavailable _ => "store_unavailable"
  | .internal _ => "internal"

def message : ApprovalError → String
  | .badRequest fault => "bad request: " ++ fault.message
  | .invalidPublicKey fault => "invalid public key: " ++ fault.message
  | .invalidSignature => "invalid signature"
  | .malleableSignature => "malleable signature"
  | .notWhitelisted account => "address " ++ account ++ " is not in white list"
  | .accountNotFound => "account not found"
  | .proofNotFound => "proof not found"
  | .assetNotFound => "asset not found"
  | .notAssetOwner denom => "requester is not the owner of asset " ++ denom
  | .zeroBalance denom => "token " ++ denom ++ " amount is zero"
  | .signingFailed cause => "signing failed: " ++ cause.message
  | .storeUnavailable cause => "store unavailable: " ++ cause.message
  | .internal index => "internal error: " ++ (LeafError.noSuchEntry index).message

def ofIdentity : IdentityError → ApprovalError
  | .invalidPublicKey fault => .invalidPublicKey fault
  | .invalidEncoding _ => .invalidSignature
  | .mismatch => .invalidSignature
  | .malleable => .malleableSignature

def ofLedger : LedgerError → ApprovalError
  | .accountNotFound => .accountNotFound
  | .proofNotFound => .proofNotFound
  | .assetNotFound => .assetNotFound
  | error => .storeUnavailable error

def ofLeaf : LeafError → ApprovalError
  | .zeroBalance denom => .zeroBalance denom
  | .noSuchEntry index => .internal index
  | error => .badRequest (.leaf error)

end ApprovalError

/-! ## Requests and responses

Requests and responses are JSON objects with bytes in hexadecimal. `validate` checks the fields of a
request in order and decodes them. -/

open Data (Reader Shape Field Tree)
open Secp256k1 (PublicKey Signature)

structure ClaimRequest where
  tokenSymbol : String
  /-- The position at which the requester expects the token. -/
  tokenIndex : Option UInt32
  ownerPubKey : String
  ownerSignature : String
  claimAddress : String
deriving DecidableEq

structure RegisterRequest where
  tokenSymbol : String
  ownerPubKey : String
  ownerSignature : String
  registerAddress : String
deriving DecidableEq

/-- A request with its fields decoded. -/
structure ValidRequest where
  tokenSymbol : String
  tokenIndex : Option UInt32
  publicKey : Octets PublicKey.compressedLength
  signature : Octets Signature.compactLength
  destination : EvmAddress
deriving DecidableEq

/-! ### Validation -/

/-- The `n` bytes that a field spells. -/
def decodeField (field : String) (n : Nat) (value : String) : Except RequestFault (Octets n) :=
  match Hex.decode value with
  | .error cause => .error (.fieldHex field cause)
  | .ok bytes =>
    match Octets.ofBytes? bytes with
    | none => .error (.fieldLength field n bytes.length)
    | some octets => .ok octets

/-- The destination that a field spells. -/
def decodeDestination (value : String) : Except RequestFault EvmAddress :=
  match EvmAddress.ofHex value with
  | .error cause => .error (.destination cause)
  | .ok address => if address.isZero then .error .zeroDestination else .ok address

/-- Decodes the fields of a request, or reports the first that is wrong. -/
def validateFields (symbol : String) (index : Option UInt32) (key signature destination : String) :
    Except RequestFault ValidRequest := do
  if symbol = "" then .error .emptySymbol
  else
    let key ← decodeField "owner_pub_key" PublicKey.compressedLength key
    let signature ← decodeField "owner_signature" Signature.compactLength signature
    let destination ← decodeDestination destination
    return ⟨symbol, index, key, signature, destination⟩

def ClaimRequest.validate (request : ClaimRequest) : Except RequestFault ValidRequest :=
  validateFields request.tokenSymbol request.tokenIndex request.ownerPubKey
    request.ownerSignature request.claimAddress

def RegisterRequest.validate (request : RegisterRequest) : Except RequestFault ValidRequest :=
  validateFields request.tokenSymbol none request.ownerPubKey request.ownerSignature
    request.registerAddress

/-! ### Responses -/

structure ClaimResponse where
  amount : Int64
  proofs : List (Octets 32)
  approvalSignature : Bytes
  /-- The bytes of a full-account leaf before the claimed entry. -/
  prefixNode : Option Bytes
  /-- The bytes of a full-account leaf behind the claimed entry. -/
  suffixNode : Option Bytes
deriving DecidableEq

structure RegisterResponse where
  amount : Int64
  approvalSignature : Bytes
deriving DecidableEq

/-! ### Their form -/

private def indexTree (index : UInt32) : Tree := .integer index.toNat

def ClaimRequest.shape : Shape ClaimRequest where
  title := "ClaimApprovalRequest"
  blank := ⟨"", none, "", "", ""⟩
  fields := [
    .required "token_symbol" Reader.text (fun v r => { r with tokenSymbol := v })
      (fun r => .text r.tokenSymbol),
    .optional "token_index" (Reader.optional Reader.uint32)
      (fun v r => { r with tokenIndex := v }) (fun r => r.tokenIndex) indexTree,
    .required "owner_pub_key" Reader.text (fun v r => { r with ownerPubKey := v })
      (fun r => .text r.ownerPubKey),
    .required "owner_signature" Reader.text (fun v r => { r with ownerSignature := v })
      (fun r => .text r.ownerSignature),
    .required "claim_address" Reader.text (fun v r => { r with claimAddress := v })
      (fun r => .text r.claimAddress)]

def RegisterRequest.shape : Shape RegisterRequest where
  title := "RegisterTokenApprovalRequest"
  blank := ⟨"", "", "", ""⟩
  fields := [
    .required "token_symbol" Reader.text (fun v r => { r with tokenSymbol := v })
      (fun r => .text r.tokenSymbol),
    .required "owner_pub_key" Reader.text (fun v r => { r with ownerPubKey := v })
      (fun r => .text r.ownerPubKey),
    .required "owner_signature" Reader.text (fun v r => { r with ownerSignature := v })
      (fun r => .text r.ownerSignature),
    .required "register_address" Reader.text (fun v r => { r with registerAddress := v })
      (fun r => .text r.registerAddress)]

def ClaimResponse.shape : Shape ClaimResponse where
  title := "ClaimApprovalResponse"
  blank := ⟨0, [], [], none, none⟩
  fields := [
    .required "amount" Reader.int64 (fun v r => { r with amount := v })
      (fun r => .integer r.amount.toInt),
    .required "proofs" Reader.hashes (fun v r => { r with proofs := v })
      (fun r => .hashes r.proofs),
    .required "approval_signature" Reader.bytes (fun v r => { r with approvalSignature := v })
      (fun r => .bytes r.approvalSignature),
    .optional "prefix_node" Reader.optionalBytes (fun v r => { r with prefixNode := v })
      (fun r => r.prefixNode) Tree.bytes,
    .optional "suffix_node" Reader.optionalBytes (fun v r => { r with suffixNode := v })
      (fun r => r.suffixNode) Tree.bytes]

def RegisterResponse.shape : Shape RegisterResponse where
  title := "RegisterTokenApprovalResponse"
  blank := ⟨0, []⟩
  fields := [
    .required "amount" Reader.int64 (fun v r => { r with amount := v })
      (fun r => .integer r.amount.toInt),
    .required "approval_signature" Reader.bytes (fun v r => { r with approvalSignature := v })
      (fun r => .bytes r.approvalSignature)]

end TokenApproval
