import TokenApproval.Hash.Message
import TokenApproval.Json
import TokenApproval.Ledger.Leaf
import TokenApproval.Ledger.Record

/-!
# What is signed

The owner of an account signs a document, and the signing authority the payload of an approval.
-/

/-! ## Sign documents

The owner of an account proves its ownership by signing a sign document: a compact JSON object,
its keys in alphabetical order, that names the kind of request, the amount, the chain, the recipient
and the token. -/

namespace TokenApproval

/-- What an owner asks for. -/
inductive RequestKind where
  | claim
  | registerToken
deriving DecidableEq, Repr

def RequestKind.name : RequestKind → String
  | .claim => "claim"
  | .registerToken => "register_token"

/-- What an owner signs. -/
structure SignDoc where
  kind : RequestKind
  amount : Int64
  chainId : String
  recipient : EvmAddress
  tokenSymbol : String
deriving DecidableEq

namespace SignDoc

def tree (doc : SignDoc) : Data.Tree :=
  .record [
    ("amount", .text (toString doc.amount.toInt)),
    ("chain_id", .text doc.chainId),
    ("recipient", .text doc.recipient.hex),
    ("token_symbol", .text doc.tokenSymbol),
    ("type", .text doc.kind.name)]

def text (doc : SignDoc) : String := Json.render doc.tree

/-- The bytes of the document's text, which are signed. -/
def bytes (doc : SignDoc) : Bytes := Text.bytes doc.text

end SignDoc

/-! ## Approval payloads

What the signing authority signs: the hash of the chain, the destination, the owner's signature and
what is approved, one behind the other. -/

/-- How a deployment lays out its payloads. -/
inductive PayloadFormat where
  /-- The leaf with the state root and the proof. -/
  | standard
  /-- The token in front, and the leaf alone. -/
  | legacy
  /-- As `standard`, and the hash is signed as a personal message. -/
  | personalMessage
deriving DecidableEq, Repr

def PayloadFormat.digest (format : PayloadFormat) (payload : Bytes) : Octets 32 :=
  match format with
  | .personalMessage => personalMessageHash (keccak256 payload).bytes
  | .standard | .legacy => keccak256 payload

/-- What the approval of a claim binds. -/
structure ClaimPayload where
  chainId : String
  denom : String
  destination : EvmAddress
  ownerSignature : Bytes
  leaf : Bytes
  stateRoot : StateRoot
  proof : List (Octets 32)
deriving DecidableEq

namespace ClaimPayload

def encode (payload : ClaimPayload) (format : PayloadFormat) : Except LeafError Bytes :=
  let chain := Text.bytes payload.chainId
  let destination := payload.destination.octets.bytes
  match format with
  | .legacy => do
    let denom ← Leaf.denomWord payload.denom
    return chain ++ denom.bytes ++ destination ++ payload.ownerSignature ++ payload.leaf
  | .standard | .personalMessage =>
    .ok (chain ++ destination ++ payload.ownerSignature ++ payload.leaf
      ++ payload.stateRoot.octets.bytes ++ payload.proof.flatMap Octets.bytes)

def digest (payload : ClaimPayload) (format : PayloadFormat) : Except LeafError (Octets 32) :=
  (payload.encode format).map format.digest

end ClaimPayload

/-- What the approval of a registration binds. -/
structure RegisterPayload where
  chainId : String
  denom : String
  amount : Int64
  destination : EvmAddress
  ownerSignature : Bytes
  stateRoot : StateRoot
deriving DecidableEq

namespace RegisterPayload

/-- The bytes of a register payload, the same in every format. -/
def encode (payload : RegisterPayload) : Except LeafError Bytes := do
  let denom ← Leaf.denomWord payload.denom
  let amount ← Leaf.amountWord payload.denom payload.amount
  return Text.bytes payload.chainId ++ payload.destination.octets.bytes ++ payload.ownerSignature
    ++ denom.bytes ++ amount.bytes ++ payload.stateRoot.octets.bytes

def digest (payload : RegisterPayload) (format : PayloadFormat) : Except LeafError (Octets 32) :=
  payload.encode.map format.digest

end RegisterPayload

end TokenApproval
