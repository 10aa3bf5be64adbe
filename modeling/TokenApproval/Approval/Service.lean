import TokenApproval.Approval.Payload
import TokenApproval.Approval.Request
import TokenApproval.Ledger.Basic
import TokenApproval.Ledger.Leaf
import TokenApproval.Network

/-!
# The approval service

A requester shows that it owns an account of the snapshot; the service finds what the account is
committed to and signs a payload that binds it to the destination. Each step can refuse the request,
and nothing is signed before every other step has passed. The lookups, the signing and the warnings
of a run are recorded as its events.
-/

namespace TokenApproval

open Secp256k1 (PublicKey)

/-- How a deployment approves. -/
structure ApprovalSettings where
  network : Network
  scheme : Scheme
  encoder : LeafEncoder
  payloadFormat : PayloadFormat
  whitelist : Whitelist
deriving DecidableEq

/-- The settings of a network: the first scheme, layout and format, and no whitelist. -/
def ApprovalSettings.standard (network : Network) : ApprovalSettings :=
  ⟨network, .cosmos, ⟨.perDenom, .symbol⟩, .standard, ⟨[]⟩⟩

structure ApprovalService where
  settings : ApprovalSettings
  ledger : Ledger
  signer : Signer

/-! ## Runs -/

/-- What reaches the ledger, the signer or the log during a run. -/
inductive Event where
  | account (address : AccountId)
  | proof (address : AccountId) (index : UInt32) (denom : String)
  | asset (denom : String)
  | stateRoot
  | sign (digest : Octets 32)
  /-- The warning that a stored proof does not reach the state root. -/
  | strayProof (account denom : String) (leaf : Octets 32)
deriving DecidableEq

/-- A run: its events so far, the latest first, and its result or refusal. -/
abbrev Run (α : Type) := ExceptT ApprovalError (StateM (List Event)) α

namespace Run

def note (event : Event) : Run Unit := modify (event :: ·)

/-- Takes over a result, turning its error into a refusal. -/
def lift {ε α : Type} (refusal : ε → ApprovalError) : Except ε α → Run α
  | .ok value => pure value
  | .error error => throw (refusal error)

/-- The result of a run and its events, in order. -/
def outcome {α : Type} (run : Run α) : Except ApprovalError α × List Event :=
  let (result, events) := run.run.run []
  (result, events.reverse)

def result {α : Type} (run : Run α) : Except ApprovalError α := run.outcome.1

def events {α : Type} (run : Run α) : List Event := run.outcome.2

end Run

/-- What is to be signed, and the answer that the signature completes. -/
structure Prepared (α : Type) where
  digest : Octets 32
  answer : Octets approvalSignatureLength → α

def strayProofMessage : String := "stored proof does not reach the state root"

namespace ApprovalService

variable (service : ApprovalService)

/-! ## Noted lookups -/

def lookupAccount (address : AccountId) : Run Account := do
  Run.note (.account address)
  Run.lift .ofLedger (service.ledger.account address)

def lookupProof (address : AccountId) (denom : String) (index : UInt32) : Run Proof := do
  Run.note (.proof address index denom)
  Run.lift .ofLedger (service.ledger.proof address denom index)

def lookupAsset (denom : String) : Run Asset := do
  Run.note (.asset denom)
  Run.lift .ofLedger (service.ledger.asset denom)

def lookupStateRoot : Run StateRoot := do
  Run.note .stateRoot
  Run.lift .ofLedger service.ledger.stateRoot

def sign (digest : Octets 32) : Run (Octets approvalSignatureLength) := do
  Run.note (.sign digest)
  Run.lift .signingFailed (service.signer.sign digest)

/-! ## Steps -/

/-- Finds the requester's account and key. -/
def identify (request : ValidRequest) : Run (AccountId × PublicKey) :=
  Run.lift .ofIdentity (service.settings.scheme.identify request.publicKey.bytes)

def checkWhitelist (account : AccountId) : Run Unit :=
  if service.settings.whitelist.allows account then pure ()
  else throw (.notWhitelisted (service.settings.network.formatAccount account))

/-- The document that the owner must have signed. -/
def signDoc (kind : RequestKind) (amount : Int64) (request : ValidRequest) : SignDoc :=
  ⟨kind, amount, service.settings.network.chainId, request.destination, request.tokenSymbol⟩

/-- Refuses requests whose document the key's owner has not signed. -/
def checkOwnership (kind : RequestKind) (amount : Int64) (key : PublicKey)
    (request : ValidRequest) : Run Unit :=
  Run.lift .ofIdentity
    (service.settings.scheme.checkMessage key request.signature.bytes
      (service.signDoc kind amount request).bytes)

def coinAt (account : Account) (index : Nat) : Run Coin :=
  match account.balances[index]? with
  | none => throw (.internal index)
  | some coin => pure coin

/-- Warns of a proof that does not lead from a leaf to the state root. -/
def warnOfStrayProof (account : AccountId) (denom : String) (leaf : Leaf) (proof : Proof)
    (root : StateRoot) : Run Unit :=
  if MerkleTree.verifyProof leaf.hash proof.siblings root.octets then pure ()
  else Run.note (.strayProof (service.settings.network.formatAccount account) denom leaf.hash)

/-! ## Approvals -/

/-- Has what was prepared signed. -/
def approve {α : Type} (prepared : Prepared α) : Run α := do
  let signature ← service.sign prepared.digest
  return prepared.answer signature

/-- Writes what is approved for an entry and its proof. -/
def writeClaim (valid : ValidRequest) (address : AccountId) (account : Account) (position : Nat)
    (coin : Coin) (proof : Proof) (root : StateRoot) : Run (Prepared ClaimResponse) := do
  let leaf ← Run.lift .ofLeaf (service.settings.encoder.encodeAt account position)
  service.warnOfStrayProof address valid.tokenSymbol leaf proof root
  let payload : ClaimPayload :=
    ⟨service.settings.network.chainId, valid.tokenSymbol, valid.destination,
      valid.signature.bytes, leaf.bytes, root, proof.siblings⟩
  let digest ← Run.lift .ofLeaf (payload.digest service.settings.payloadFormat)
  return ⟨digest, fun signature => ⟨coin.amount, proof.siblings, signature.bytes,
    leaf.split.map Prod.fst, leaf.split.map Prod.snd⟩⟩

/-- A claim of the requester's balance of one token, up to its signature. -/
def prepareClaim (request : ClaimRequest) : Run (Prepared ClaimResponse) := do
  let request ← Run.lift .badRequest request.validate
  let denom := request.tokenSymbol
  let (address, key) ← service.identify request
  service.checkWhitelist address
  let account ← service.lookupAccount address
  let position ← Run.lift (fun _ : Unit => .proofNotFound)
    ((account.position? denom).elim (.error ()) .ok)
  let proof ← service.lookupProof address denom (UInt32.ofNat position)
  let root ← service.lookupStateRoot
  let index ← Run.lift .ofLeaf (LeafEncoder.select account denom request.tokenIndex)
  let coin ← coinAt account index
  service.checkOwnership .claim coin.amount key request
  service.writeClaim request address account index coin proof root

def claim (request : ClaimRequest) : Run ClaimResponse :=
  service.prepareClaim request >>= service.approve

/-- A registration of a token by its owner, up to its signature. -/
def prepareRegister (request : RegisterRequest) : Run (Prepared RegisterResponse) := do
  let request ← Run.lift .badRequest request.validate
  let denom := request.tokenSymbol
  let (address, key) ← service.identify request
  service.checkWhitelist address
  let asset ← service.lookupAsset denom
  if asset.owner ≠ address then throw (.notAssetOwner denom)
  else if asset.amount = 0 then throw (.zeroBalance denom)
  else
    let _ ← Run.lift .ofLeaf (Leaf.denomWord denom)
    service.checkOwnership .registerToken asset.amount key request
    let root ← service.lookupStateRoot
    let payload : RegisterPayload :=
      ⟨service.settings.network.chainId, denom, asset.amount, request.destination,
        request.signature.bytes, root⟩
    let digest ← Run.lift .ofLeaf (payload.digest service.settings.payloadFormat)
    return ⟨digest, fun signature => ⟨asset.amount, signature.bytes⟩⟩

def register (request : RegisterRequest) : Run RegisterResponse :=
  service.prepareRegister request >>= service.approve

end ApprovalService

end TokenApproval
