import TokenApproval.Proofs.Approval.Evidence
import TokenApproval.Proofs.Approval.Steps
import TokenApproval.Proofs.Identity
import TokenApproval.Proofs.Ledger.Leaf

/-!
# The faults of single steps

The steps of a claim and of a registration, in their order, each with the fault that it has by
itself: a step needs some of what other steps find, and has no fault where that is missing. The
lemmas compute each fault from what those other steps have found; before the signature, all faults
are refusals by a check.
-/

namespace TokenApproval

open Secp256k1 (PublicKey)

/-! ## Payloads that cannot be written -/

section

open Outcome (errsOnly_bind errsOnly_ok)

theorem ClaimPayload.errsOnly_encode (payload : ClaimPayload) (format : PayloadFormat) :
    Outcome.ErrsOnly LeafError.Misfit (payload.encode format) := by
  cases format with
  | legacy => exact errsOnly_bind (Leaf.errsOnly_denomWord _) fun _ => errsOnly_ok _ _
  | standard => exact errsOnly_ok _ _
  | personalMessage => exact errsOnly_ok _ _

theorem RegisterPayload.errsOnly_encode (payload : RegisterPayload) :
    Outcome.ErrsOnly LeafError.Misfit payload.encode :=
  errsOnly_bind (Leaf.errsOnly_denomWord _) fun _ =>
    errsOnly_bind (Leaf.errsOnly_amountWord _ _) fun _ => errsOnly_ok _ _

end

namespace ApprovalService

variable (service : ApprovalService)

/-! ## Requesters -/

/-- A decoded request with the account and the key that it names. -/
structure Requester where
  valid : ValidRequest
  address : AccountId
  key : PublicKey

/-- Who makes a request, if it is valid and names a key. -/
def requester? (validated : Except RequestFault ValidRequest) : Option Requester := do
  let valid ← validated.toOption
  let (address, key) ← (service.settings.scheme.identify valid.publicKey.bytes).toOption
  return ⟨valid, address, key⟩

def identityFault (validated : Except RequestFault ValidRequest) : Option ApprovalError := do
  let valid ← validated.toOption
  match service.settings.scheme.identify valid.publicKey.bytes with
  | .error (.invalidPublicKey fault) => some (.invalidPublicKey fault)
  | _ => none

def whitelistFault (validated : Except RequestFault ValidRequest) : Option ApprovalError := do
  let who ← service.requester? validated
  if service.settings.whitelist.allows who.address then none
  else some (.notWhitelisted (service.settings.network.formatAccount who.address))

/-- The refusal for a signature: malleable or invalid. -/
def signatureRefusal : IdentityError → ApprovalError
  | .malleable => .malleableSignature
  | _ => .invalidSignature

def ownershipFault (kind : RequestKind) (amount : Int64) (denom : String)
    (validated : Except RequestFault ValidRequest) : Option ApprovalError := do
  let who ← service.requester? validated
  let doc : SignDoc :=
    ⟨kind, amount, service.settings.network.chainId, who.valid.destination, denom⟩
  faultOf signatureRefusal (checkSignature who.key who.valid.signature.bytes
    (service.settings.scheme.messageHash doc.bytes))

/-- The refusal for what cannot be written. -/
def encodingRefusal (cause : LeafError) : ApprovalError := .badRequest (.leaf cause)

/-! ## Claims -/

section

variable (request : ClaimRequest)

def account? : Option Account := do
  let who ← service.requester? request.validate
  (service.ledger.account who.address).toOption

/-- The position and the balance of the claimed entry, the first one of its token. -/
def selected? : Option (Nat × Coin) := do
  let account ← service.account? request
  let position ← account.position? request.tokenSymbol
  let coin ← account.balances[position]?
  return (position, coin)

/-- The proof that is stored for the claimed entry. -/
def claimProof (who : Requester) (position : Nat) : Except LedgerError Proof :=
  service.ledger.proof who.address request.tokenSymbol (UInt32.ofNat position)

/-- The bytes of what is approved for an entry and its proof, or why they cannot be written. -/
def claimBytes (valid : ValidRequest) (account : Account) (position : Nat) (proof : Proof)
    (root : StateRoot) : Except LeafError Bytes := do
  let leaf ← service.settings.encoder.encodeAt account position
  (ClaimPayload.mk service.settings.network.chainId valid.tokenSymbol valid.destination
    valid.signature.bytes leaf.bytes root proof.siblings).encode service.settings.payloadFormat

def claimBytes? : Option (Except LeafError Bytes) := do
  let who ← service.requester? request.validate
  let account ← service.account? request
  let (position, _) ← service.selected? request
  let proof ← (service.claimProof request who position).toOption
  let root ← service.ledger.stateRoot.toOption
  return service.claimBytes who.valid account position proof root

def claimPayload? : Option Bytes := (service.claimBytes? request).bind Except.toOption

end

inductive ClaimStep where
  | validation
  | identity
  | whitelist
  | account
  | position
  | proof
  | stateRoot
  | index
  | negativeAmount
  | zeroAmount
  | ownership
  | encoding
  | signing
deriving DecidableEq

/-- The steps of a claim before its signature, in their order. -/
def claimSteps : List ClaimStep :=
  [.validation, .identity, .whitelist, .account, .position, .proof, .stateRoot, .index,
    .negativeAmount, .zeroAmount, .ownership, .encoding]

/-- The fault that a step of a claim has by itself. -/
def claimFault (request : ClaimRequest) : ClaimStep → Option ApprovalError
  | .validation => faultOf .badRequest request.validate
  | .identity => service.identityFault request.validate
  | .whitelist => service.whitelistFault request.validate
  | .account => do
    let who ← service.requester? request.validate
    faultOf .ofLedger (service.ledger.account who.address)
  | .position => do
    let account ← service.account? request
    if account.balances.any (·.denom == request.tokenSymbol) then none else some .proofNotFound
  | .proof => do
    let who ← service.requester? request.validate
    let (position, _) ← service.selected? request
    faultOf .ofLedger (service.claimProof request who position)
  | .stateRoot => faultOf .ofLedger service.ledger.stateRoot
  | .index => do
    let (position, _) ← service.selected? request
    let index ← request.tokenIndex
    if index.toNat = position then none
    else some (.badRequest (.leaf (.indexMismatch index request.tokenSymbol)))
  | .negativeAmount => do
    let (_, coin) ← service.selected? request
    if coin.amount < 0 then
      some (.badRequest (.leaf (.negativeAmount request.tokenSymbol coin.amount)))
    else none
  | .zeroAmount => do
    let (_, coin) ← service.selected? request
    if coin.amount = 0 then some (.zeroBalance request.tokenSymbol) else none
  | .ownership => do
    let (_, coin) ← service.selected? request
    service.ownershipFault .claim coin.amount request.tokenSymbol request.validate
  | .encoding => do
    let written ← service.claimBytes? request
    faultOf encodingRefusal written
  | .signing => do
    let payload ← service.claimPayload? request
    faultOf .signingFailed (service.signer.sign (service.settings.payloadFormat.digest payload))

/-! ## Registrations -/

def registerBytes? (request : RegisterRequest) : Option (Except LeafError Bytes) := do
  let who ← service.requester? request.validate
  let asset ← (service.ledger.asset request.tokenSymbol).toOption
  let root ← service.ledger.stateRoot.toOption
  return (RegisterPayload.mk service.settings.network.chainId request.tokenSymbol asset.amount
    who.valid.destination who.valid.signature.bytes root).encode

def registerPayload? (request : RegisterRequest) : Option Bytes :=
  (service.registerBytes? request).bind Except.toOption

inductive RegisterStep where
  | validation
  | identity
  | whitelist
  | asset
  | owner
  | zeroAmount
  | denomLength
  | ownership
  | stateRoot
  | encoding
  | signing
deriving DecidableEq

/-- The steps of a registration before its signature, in their order. -/
def registerSteps : List RegisterStep :=
  [.validation, .identity, .whitelist, .asset, .owner, .zeroAmount, .denomLength, .ownership,
    .stateRoot, .encoding]

/-- The fault that a step of a registration has by itself. -/
def registerFault (request : RegisterRequest) : RegisterStep → Option ApprovalError
  | .validation => faultOf .badRequest request.validate
  | .identity => service.identityFault request.validate
  | .whitelist => service.whitelistFault request.validate
  | .asset => faultOf .ofLedger (service.ledger.asset request.tokenSymbol)
  | .owner => do
    let who ← service.requester? request.validate
    let asset ← (service.ledger.asset request.tokenSymbol).toOption
    if asset.owner = who.address then none else some (.notAssetOwner request.tokenSymbol)
  | .zeroAmount => do
    let asset ← (service.ledger.asset request.tokenSymbol).toOption
    if asset.amount = 0 then some (.zeroBalance request.tokenSymbol) else none
  | .denomLength =>
    if (Text.bytes request.tokenSymbol).length ≤ 32 then none
    else some (.badRequest (.leaf (.denomTooLong request.tokenSymbol)))
  | .ownership => do
    let asset ← (service.ledger.asset request.tokenSymbol).toOption
    service.ownershipFault .registerToken asset.amount request.tokenSymbol request.validate
  | .stateRoot => faultOf .ofLedger service.ledger.stateRoot
  | .encoding => do
    let written ← service.registerBytes? request
    faultOf encodingRefusal written
  | .signing => do
    let payload ← service.registerPayload? request
    faultOf .signingFailed (service.signer.sign (service.settings.payloadFormat.digest payload))

/-! ## The faults of requesters -/

section

variable {service} {validated : Except RequestFault ValidRequest} {valid : ValidRequest}
  {address : AccountId} {key : PublicKey}

theorem requester?_of_identified (hvalid : validated = .ok valid)
    (hidentified : service.settings.scheme.identify valid.publicKey.bytes = .ok (address, key)) :
    service.requester? validated = some ⟨valid, address, key⟩ := by
  subst hvalid
  show (do let (address, key) ← (service.settings.scheme.identify _).toOption; _) = _
  rw [hidentified]
  rfl

theorem identityFault_of_valid (hvalid : validated = .ok valid) :
    service.identityFault validated =
      faultOf .ofIdentity (service.settings.scheme.identify valid.publicKey.bytes) := by
  subst hvalid
  show (match service.settings.scheme.identify valid.publicKey.bytes with
    | .error (.invalidPublicKey fault) => some (ApprovalError.invalidPublicKey fault)
    | _ => none) = _
  have hkey := Scheme.errsOnly_identify service.settings.scheme valid.publicKey.bytes
  cases hidentified : service.settings.scheme.identify valid.publicKey.bytes with
  | error cause =>
    have hcause := hkey cause hidentified
    cases cause with
    | invalidPublicKey fault => rfl
    | invalidEncoding fault => cases hcause
    | malleable => cases hcause
    | mismatch => cases hcause
  | ok found => rfl

/-- On the errors of a signature check, all refusals agree. -/
theorem faultOf_checkSignature (signature : Bytes) (digest : Octets 32) :
    faultOf signatureRefusal (checkSignature key signature digest) =
      faultOf .ofIdentity (checkSignature key signature digest) := by
  refine faultOf_congr ?_
  intro cause hcause
  have hkey := errsOnly_checkSignature key signature digest cause hcause
  cases cause with
  | invalidPublicKey fault => exact absurd True.intro hkey
  | invalidEncoding fault => rfl
  | malleable => rfl
  | mismatch => rfl

/-- Whatever does not fit is a bad request. -/
theorem ofLeaf_misfit {cause : LeafError} (h : cause.Misfit) :
    encodingRefusal cause = .ofLeaf cause := by
  cases cause with
  | denomTooLong denom => rfl
  | negativeAmount denom amount => rfl
  | zeroBalance denom => cases h
  | indexMismatch index denom => cases h
  | noSuchEntry index => cases h

/-- The document of a valid request is that of its account's owner. -/
theorem ownershipFault_of_requester {kind : RequestKind} {amount : Int64}
    (hwho : service.requester? validated = some ⟨valid, address, key⟩) :
    service.ownershipFault kind amount valid.tokenSymbol validated =
      faultOf .ofIdentity (service.settings.scheme.checkMessage key valid.signature.bytes
        (service.signDoc kind amount valid).bytes) := by
  rw [ownershipFault, hwho]
  exact faultOf_checkSignature _ _

end

/-! ## The faults of claims -/

section

variable {service} {request : ClaimRequest} {who : Requester} {account : Account} {position : Nat}
  {coin : Coin} {proof : Proof} {root : StateRoot}

theorem account?_of_found (hwho : service.requester? request.validate = some who)
    (hfound : service.ledger.account who.address = .ok account) :
    service.account? request = some account := by
  rw [account?, hwho]
  show (service.ledger.account who.address).toOption = _
  rw [hfound]
  rfl

theorem positionFault_of_account (haccount : service.account? request = some account) :
    service.claimFault request .position =
      faultOf (fun _ : Unit => .proofNotFound)
        ((account.position? request.tokenSymbol).elim (.error ()) .ok) := by
  rw [claimFault, haccount]
  show (if account.balances.any (·.denom == request.tokenSymbol) then none else _) = _
  rw [← List.findIdx?_isSome, ← Account.position?]
  cases account.position? request.tokenSymbol with
  | none => rfl
  | some position => rfl

theorem selected?_of_first (haccount : service.account? request = some account)
    (hfirst : account.FirstEntry request.tokenSymbol position coin) :
    service.selected? request = some (position, coin) := by
  rw [selected?, haccount]
  show (do
    let position ← account.position? request.tokenSymbol
    let coin ← account.balances[position]?
    return (position, coin)) = _
  rw [Account.position?_eq_some_iff.mpr ⟨coin, hfirst⟩]
  show (do let coin ← account.balances[position]?; return (position, coin)) = _
  rw [hfirst.entry]
  rfl

theorem indexFault_of_selected (hentry : service.selected? request = some (position, coin)) :
    service.claimFault request .index =
      (request.tokenIndex.filter (·.toNat ≠ position)).map fun index =>
        .badRequest (.leaf (.indexMismatch index request.tokenSymbol)) := by
  rw [claimFault, hentry]
  cases request.tokenIndex with
  | none => rfl
  | some index =>
    show (if index.toNat = position then none else some _) = _
    by_cases hindex : index.toNat = position
    · simp [Option.filter, hindex]
    · simp [Option.filter, hindex]

/-- The selection of an entry fails for a wrong index, a negative or a zero amount, in this
order. -/
theorem selectionFault_of_selected (hentry : service.selected? request = some (position, coin))
    (hfirst : account.FirstEntry request.tokenSymbol position coin) :
    [ClaimStep.index, .negativeAmount, .zeroAmount].findSome? (service.claimFault request) =
      faultOf .ofLeaf (LeafEncoder.select account request.tokenSymbol request.tokenIndex) := by
  have hnegative : service.claimFault request .negativeAmount =
      if coin.amount < 0 then
        some (.badRequest (.leaf (.negativeAmount request.tokenSymbol coin.amount)))
      else none := by
    rw [claimFault, hentry]
    rfl
  have hzero : service.claimFault request .zeroAmount =
      if coin.amount = 0 then some (.zeroBalance request.tokenSymbol) else none := by
    rw [claimFault, hentry]
    rfl
  rw [LeafEncoder.select_of_firstEntry hfirst, List.findSome?_cons, List.findSome?_cons,
    List.findSome?_singleton, indexFault_of_selected hentry, hnegative, hzero]
  cases request.tokenIndex.filter (·.toNat ≠ position) with
  | some other => rfl
  | none =>
    by_cases hneg : coin.amount < 0
    · simp only [Option.map_none, if_pos hneg]
      rfl
    · by_cases hnone : coin.amount = 0
      · simp only [Option.map_none, if_neg hneg, if_pos hnone]
        rfl
      · simp only [Option.map_none, if_neg hneg, if_neg hnone]
        rfl

theorem claimBytes?_of_found (hwho : service.requester? request.validate = some who)
    (haccount : service.account? request = some account)
    (hentry : service.selected? request = some (position, coin))
    (hproof : service.claimProof request who position = .ok proof)
    (hroot : service.ledger.stateRoot = .ok root) :
    service.claimBytes? request =
      some (service.claimBytes who.valid account position proof root) := by
  simp only [claimBytes?, hwho, haccount, hentry, hproof, hroot, Except.toOption,
    Option.bind_eq_bind, Option.bind_some, Option.pure_def]

theorem encodingFault_of_bytes {written : Except LeafError Bytes}
    (hbytes : service.claimBytes? request = some written) :
    service.claimFault request .encoding = faultOf encodingRefusal written := by
  rw [claimFault, hbytes]
  rfl

theorem claimPayload?_of_bytes {written : Except LeafError Bytes}
    (hbytes : service.claimBytes? request = some written) :
    service.claimPayload? request = written.toOption := by
  rw [claimPayload?, hbytes]
  rfl

end

/-! ## The faults of registrations -/

section

variable {service} {request : RegisterRequest} {who : Requester} {asset : Asset} {root : StateRoot}

theorem denomLengthFault_eq :
    service.registerFault request .denomLength =
      faultOf .ofLeaf (Leaf.denomWord request.tokenSymbol) := by
  rw [registerFault, Leaf.denomWord]
  by_cases hlength : (Text.bytes request.tokenSymbol).length ≤ 32
  · rw [if_pos hlength, dif_pos hlength]
    rfl
  · rw [if_neg hlength, dif_neg hlength]
    rfl

theorem registerBytes?_of_found (hwho : service.requester? request.validate = some who)
    (hasset : service.ledger.asset request.tokenSymbol = .ok asset)
    (hroot : service.ledger.stateRoot = .ok root) :
    service.registerBytes? request =
      some (RegisterPayload.mk service.settings.network.chainId request.tokenSymbol asset.amount
        who.valid.destination who.valid.signature.bytes root).encode := by
  simp only [registerBytes?, hwho, hasset, hroot, Except.toOption, Option.bind_eq_bind,
    Option.bind_some, Option.pure_def]

end

/-! ## Before the signature, only checks refuse -/

section

variable {service} {validated : Except RequestFault ValidRequest}

theorem checked_ofLedger (error : LedgerError) : (ApprovalError.ofLedger error).Checked := by
  cases error <;> exact True.intro

theorem checked_identityFault :
    FaultOnly ApprovalError.Checked (service.identityFault validated) := by
  refine faultOnly_bind fun valid => ?_
  split
  · exact faultOnly_some True.intro
  · exact faultOnly_none

theorem checked_whitelistFault :
    FaultOnly ApprovalError.Checked (service.whitelistFault validated) :=
  faultOnly_bind fun _ => faultOnly_ite faultOnly_none (faultOnly_some True.intro)

theorem checked_ownershipFault {kind : RequestKind} {amount : Int64} {denom : String} :
    FaultOnly ApprovalError.Checked (service.ownershipFault kind amount denom validated) := by
  refine faultOnly_bind fun who => faultOnly_faultOf _ ?_
  intro error
  cases error <;> exact True.intro

theorem checked_claimFault (request : ClaimRequest) :
    ∀ step ∈ claimSteps, FaultOnly ApprovalError.Checked (service.claimFault request step) := by
  intro step hstep
  cases step with
  | validation => exact faultOnly_faultOf _ fun _ => True.intro
  | identity => exact checked_identityFault
  | whitelist => exact checked_whitelistFault
  | account => exact faultOnly_bind fun _ => faultOnly_faultOf _ checked_ofLedger
  | position =>
    exact faultOnly_bind fun _ => faultOnly_ite faultOnly_none (faultOnly_some True.intro)
  | proof =>
    exact faultOnly_bind fun _ => faultOnly_bind fun _ => faultOnly_faultOf _ checked_ofLedger
  | stateRoot => exact faultOnly_faultOf _ checked_ofLedger
  | index =>
    exact faultOnly_bind fun _ => faultOnly_bind fun _ =>
      faultOnly_ite faultOnly_none (faultOnly_some True.intro)
  | negativeAmount =>
    exact faultOnly_bind fun _ => faultOnly_ite (faultOnly_some True.intro) faultOnly_none
  | zeroAmount =>
    exact faultOnly_bind fun _ => faultOnly_ite (faultOnly_some True.intro) faultOnly_none
  | ownership => exact faultOnly_bind fun _ => checked_ownershipFault
  | encoding => exact faultOnly_bind fun _ => faultOnly_faultOf _ fun _ => True.intro
  | signing => exact absurd hstep (by decide)

theorem checked_registerFault (request : RegisterRequest) :
    ∀ step ∈ registerSteps,
      FaultOnly ApprovalError.Checked (service.registerFault request step) := by
  intro step hstep
  cases step with
  | validation => exact faultOnly_faultOf _ fun _ => True.intro
  | identity => exact checked_identityFault
  | whitelist => exact checked_whitelistFault
  | asset => exact faultOnly_faultOf _ checked_ofLedger
  | owner =>
    exact faultOnly_bind fun _ => faultOnly_bind fun _ =>
      faultOnly_ite faultOnly_none (faultOnly_some True.intro)
  | zeroAmount =>
    exact faultOnly_bind fun _ => faultOnly_ite (faultOnly_some True.intro) faultOnly_none
  | denomLength => exact faultOnly_ite faultOnly_none (faultOnly_some True.intro)
  | ownership => exact faultOnly_bind fun _ => checked_ownershipFault
  | stateRoot => exact faultOnly_faultOf _ checked_ofLedger
  | encoding => exact faultOnly_bind fun _ => faultOnly_faultOf _ fun _ => True.intro
  | signing => exact absurd hstep (by decide)

end

end ApprovalService

end TokenApproval
