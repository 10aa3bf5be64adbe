import TokenApproval.Ledger.Documents
import TokenApproval.Proofs.Approval.Evidence
import TokenApproval.Proofs.Approval.FirstFault
import TokenApproval.Proofs.Approval.Payload
import TokenApproval.Proofs.Hex
import TokenApproval.Proofs.Ledger.Consistency

/-!
# Claims on a ledger whose proofs all fit

Every approved claim is covered by the check of the proofs, and every proof of a first entry can be
claimed.
-/

/-! ## A check of the proofs covers every approval

A check walks from each proof to the entry at its position, a claim from a token to its first entry
and from there to a proof. Where the check finds nothing, they meet: the entry that a proof points
to has the proof's token and so stands at the first entry of that token or behind it, while the
proof was looked up at the first entry, or before it where the position does not fit in 32 bits. -/

namespace TokenApproval

namespace ClaimEvidence

/-- The proof of an approved claim points to the claimed entry. -/
theorem position_eq_of_entry {e : ClaimEvidence} {service : ApprovalService}
    {request : ClaimRequest} (h : e.Supports service request) (hindex : e.proof.index = e.index)
    (hentry : e.account.balances[e.proof.index.toNat]? = some e.proof.coin)
    (hdenom : e.proof.coin.denom = request.tokenSymbol) : e.proof.index.toNat = e.position := by
  have hbehind := h.first_entry.position_le hentry hdenom
  have hbefore : e.proof.index.toNat ≤ e.position := by
    rw [hindex, h.index_eq, UInt32.toNat_ofNat']
    exact Nat.mod_le _ _
  exact Nat.le_antisymm hbefore hbehind

/-- On a ledger whose proofs all fit, the claimed entry is the one that the proof commits to. -/
theorem Supports.covered {e : ClaimEvidence} {service : ApprovalService} {request : ClaimRequest}
    {snapshot : Snapshot} {report : ConsistencyReport} (h : e.Supports service request)
    (hpresents : service.ledger.Presents snapshot)
    (hverify : service.ledger.verify service.settings.encoder = .ok report)
    (hclean : report.mismatches = []) :
    MerkleTree.computeRoot e.leaf.hash e.proof.siblings = e.root.octets
      ∧ e.coin.amount = e.proof.coin.amount := by
  obtain ⟨root, accounts, proofs, hroot, haccounts, hproofs, hplaces⟩ :=
    Ledger.places_of_clean hverify hclean
  obtain rfl := Except.ok.inj (hroot.symm.trans h.root_found)
  -- the check and the claim meet on the proof, and then on its account
  obtain ⟨hmem, haddress, hindex, hdenom⟩ := hpresents.mem_of_proof hproofs h.proof_found
  obtain ⟨account, leaf, hplaced⟩ := hplaces e.proof hmem
  have hlookup := hpresents.account_of_find haccounts hplaced.account_found
  rw [haddress] at hlookup
  obtain rfl := Except.ok.inj (hlookup.symm.trans h.account_found)
  have hposition := position_eq_of_entry h hindex hplaced.entry hdenom
  have hentry := hplaced.entry
  have hencodes := hplaced.encodes
  rw [hposition] at hentry hencodes
  obtain hcoin := Option.some.inj (hentry.symm.trans h.first_entry.entry)
  obtain rfl := Except.ok.inj (hencodes.symm.trans h.encodes)
  exact ⟨hplaced.reaches, by rw [hcoin]⟩

end ClaimEvidence

namespace ApprovalService

variable {service : ApprovalService} {request : ClaimRequest} {response : ClaimResponse}
  {snapshot : Snapshot} {report : ConsistencyReport}

/-- **Coverage of approvals by the check.** On a ledger of a snapshot in which the check finds no
mismatch, the leaf of every approved claim reaches the state root through the proof of the answer,
no warning is noted, and the amount of the answer is the one in the stored proof. -/
theorem approval_covered (hledger : service.ledger.BuiltFrom snapshot)
    (hverify : service.ledger.verify service.settings.encoder = .ok report)
    (hclean : report.mismatches = [])
    (happroved : (service.claim request).result = .ok response) :
    ∃ e : ClaimEvidence, e.Supports service request ∧ response = e.response
      ∧ .sign (service.settings.payloadFormat.digest e.payload) ∈ (service.claim request).events
      ∧ MerkleTree.computeRoot (keccak256 e.leaf.bytes) response.proofs = e.root.octets
      ∧ (∀ account denom leaf, .strayProof account denom leaf ∉ (service.claim request).events)
      ∧ response.amount = e.proof.coin.amount := by
  obtain ⟨log, hreturns⟩ := Run.result_eq_ok_iff.mp happroved
  have hevents := Run.events_of_returns hreturns
  obtain ⟨e, he, rfl, rfl⟩ := returns_claim_iff.mp hreturns
  obtain ⟨hreaches, hamount⟩ := he.covered hledger.presents hverify hclean
  have hwarnings : service.warnings e.address request.tokenSymbol e.leaf e.proof e.root = [] :=
    if_pos (beq_iff_eq.mpr hreaches)
  have hall : (service.claim request).events =
      [.account e.address, .proof e.address e.index request.tokenSymbol, .stateRoot,
        .sign (service.settings.payloadFormat.digest e.payload)] := by
    rw [hevents, ClaimEvidence.notes, hwarnings]
    rfl
  refine ⟨e, he, rfl, ?_, hreaches, ?_, hamount⟩
  · rw [hall]
    simp
  · intro account denom leaf hnoted
    rw [hall] at hnoted
    simp at hnoted

/-- The check finds nothing in the sample ledger, and the sample claim is approved. -/
theorem approval_covered_sample :
    Sample.service.ledger.BuiltFrom Sample.snapshot
      ∧ (∃ report, Sample.service.ledger.verify Sample.settings.encoder = .ok report
        ∧ report.mismatches = [])
      ∧ ∃ e : ClaimEvidence, e.Supports Sample.service Sample.claimRequest
        ∧ MerkleTree.computeRoot (keccak256 e.leaf.bytes) Sample.evidence.response.proofs =
            e.root.octets
        ∧ Sample.evidence.response.amount = e.proof.coin.amount := by
  have hbuilt : Sample.service.ledger.BuiltFrom Sample.snapshot :=
    .inl ⟨Sample.store, MemoryStore.ofSnapshot_eq_ok_iff.mpr rfl, rfl⟩
  have hplaced : Ledger.Places Sample.settings.encoder Sample.snapshot.stateRoot [Sample.account]
      Sample.proof Sample.account Sample.leaf :=
    ⟨rfl, rfl, rfl, by rw [Sample.snapshot]⟩
  have hverify : Sample.service.ledger.verify Sample.settings.encoder = .ok ⟨1, 1, []⟩ :=
    Sample.store.verify_of_places rfl rfl hplaced
  have happroved := Run.result_eq_ok_iff.mpr
    ⟨_, returns_claim_iff.mpr ⟨Sample.evidence, Sample.evidence_supports, rfl, rfl⟩⟩
  obtain ⟨e, he, -, -, hreaches, -, hamount⟩ := approval_covered hbuilt hverify rfl happroved
  exact ⟨hbuilt, ⟨_, hverify, rfl⟩, e, he, hreaches, hamount⟩

end ApprovalService

/-! ## Which proofs of a clean snapshot can be claimed

The check looks at the entry that a proof points to; a claim names a token and goes to its first
entry. Where the two are the same entry, everything that a claim needs has been checked, and only
the owner's signature and the signer are left to refuse it. A proof that points to a later entry of
its token is of no use: the claim stops at the first one, for which there may be no proof, or at the
position that it asks for. -/

open Secp256k1 (PublicKey)

namespace ApprovalService

/-- The service serves every account of a snapshot, in which the check finds nothing. -/
structure ServesChecked (service : ApprovalService) (snapshot : Snapshot) : Prop where
  built : service.ledger.BuiltFrom snapshot
  clean : ∃ report, service.ledger.verify service.settings.encoder = .ok report
    ∧ report.mismatches = []
  unrestricted : service.settings.whitelist.isEmpty = true

/-- The request claims what a proof commits to, under the key of the proof's account. -/
structure ClaimsProof (service : ApprovalService) (request : ClaimRequest) (proof : Proof)
    (valid : ValidRequest) (key : PublicKey) : Prop where
  validates : request.validate = .ok valid
  identifies : service.settings.scheme.identify valid.publicKey.bytes = .ok (proof.address, key)
  symbol_eq : request.tokenSymbol = proof.coin.denom
  index_eq : request.tokenIndex = some proof.index

/-- No entry before that of the proof has its token. -/
def PointsToFirst (service : ApprovalService) (proof : Proof) : Prop :=
  ∀ account, service.ledger.account proof.address = .ok account →
    ∀ i < proof.index.toNat, ∀ coin, account.balances[i]? = some coin →
      coin.denom ≠ proof.coin.denom

variable {service : ApprovalService} {snapshot : Snapshot} {request : ClaimRequest} {proof : Proof}
  {valid : ValidRequest} {key : PublicKey}

/-! ### What the check has seen -/

theorem ServesChecked.placed (h : service.ServesChecked snapshot)
    (hproof : proof ∈ snapshot.proofs) :
    ∃ account leaf, service.ledger.account proof.address = .ok account
      ∧ account.balances[proof.index.toNat]? = some proof.coin
      ∧ service.settings.encoder.encodeAt account proof.index.toNat = .ok leaf := by
  obtain ⟨report, hverify, hclean⟩ := h.clean
  obtain ⟨root, accounts, proofs, -, haccounts, hproofs, hplaces⟩ :=
    Ledger.places_of_clean hverify hclean
  obtain ⟨listed, hlisted, hperm, -⟩ := h.built.presents.proofs
  obtain rfl := Except.ok.inj (hproofs.symm.trans hlisted)
  obtain ⟨account, leaf, hplaced⟩ := hplaces proof (hperm.mem_iff.mpr hproof)
  exact ⟨account, leaf, h.built.presents.account_of_find haccounts hplaced.account_found,
    hplaced.entry, hplaced.encodes⟩

theorem ServesChecked.proof_found (h : service.ServesChecked snapshot)
    (hproof : proof ∈ snapshot.proofs) :
    service.ledger.proof proof.address proof.coin.denom proof.index = .ok proof :=
  (h.built.presents.proof_eq_ok_iff _ _ _ _).mpr ⟨hproof, rfl⟩

/-! ### Up to the look-up of the proof -/

section

variable {account : Account} {position : Nat} {coin : Coin}

theorem ClaimsProof.requester?_eq (h : service.ClaimsProof request proof valid key) :
    service.requester? request.validate = some ⟨valid, proof.address, key⟩ :=
  requester?_of_identified h.validates h.identifies

theorem ClaimsProof.selected?_eq (h : service.ClaimsProof request proof valid key)
    (haccount : service.ledger.account proof.address = .ok account)
    (hfirst : account.FirstEntry proof.coin.denom position coin) :
    service.selected? request = some (position, coin) := by
  rw [← h.symbol_eq] at hfirst
  exact selected?_of_first (account?_of_found h.requester?_eq haccount) hfirst

/-- Nothing refuses the claim before a proof is looked up. -/
theorem ClaimsProof.findSome?_claimFault (h : service.ClaimsProof request proof valid key)
    (hopen : service.settings.whitelist.isEmpty = true)
    (haccount : service.ledger.account proof.address = .ok account)
    (hfirst : account.FirstEntry proof.coin.denom position coin) :
    (claimSteps ++ [ClaimStep.signing]).findSome? (service.claimFault request) =
      [ClaimStep.proof, .stateRoot, .index, .negativeAmount, .zeroAmount, .ownership, .encoding,
        .signing].findSome? (service.claimFault request) := by
  have hvalidation : service.claimFault request .validation = none := by
    rw [claimFault, h.validates]
    rfl
  have hidentity : service.claimFault request .identity = none := by
    rw [claimFault, identityFault_of_valid h.validates, h.identifies]
    rfl
  have hwhitelist : service.claimFault request .whitelist = none := by
    rw [claimFault, whitelistFault, h.requester?_eq]
    show (if service.settings.whitelist.allows proof.address then none else some _) = none
    rw [Whitelist.allows, hopen]
    rfl
  have hfound : service.claimFault request .account = none := by
    rw [claimFault, h.requester?_eq]
    show faultOf _ (service.ledger.account proof.address) = none
    rw [haccount]
    rfl
  have hposition : service.claimFault request .position = none := by
    rw [positionFault_of_account (account?_of_found h.requester?_eq haccount), h.symbol_eq,
      Account.position?_eq_some_iff.mpr ⟨coin, hfirst⟩]
    rfl
  simp only [claimSteps, List.cons_append, List.nil_append, List.findSome?_cons, hvalidation,
    hidentity, hwhitelist, hfound, hposition]

/-! ### From there on -/

theorem ClaimsProof.proofFault_eq (h : service.ClaimsProof request proof valid key)
    (hentry : service.selected? request = some (position, coin)) :
    service.claimFault request .proof = faultOf .ofLedger
      (service.ledger.proof proof.address proof.coin.denom (UInt32.ofNat position)) := by
  rw [claimFault, h.requester?_eq, hentry, ← h.symbol_eq]
  rfl

theorem ServesChecked.rootFault_eq (h : service.ServesChecked snapshot) :
    service.claimFault request .stateRoot = none := by
  rw [claimFault, h.built.presents.stateRoot]
  rfl

theorem ClaimsProof.indexFault_eq (h : service.ClaimsProof request proof valid key)
    (hentry : service.selected? request = some (position, coin)) :
    service.claimFault request .index =
      if proof.index.toNat = position then none
      else some (.badRequest (.leaf (.indexMismatch proof.index proof.coin.denom))) := by
  rw [claimFault, hentry, h.index_eq, h.symbol_eq]
  rfl

end

/-! ### Proofs of first entries -/

section

variable {account : Account} {leaf : Leaf} {bytes : Bytes}

/-- The document that an owner signs to claim what a proof commits to. -/
def proofDoc (service : ApprovalService) (proof : Proof) (valid : ValidRequest) : SignDoc :=
  ⟨.claim, proof.coin.amount, service.settings.network.chainId, valid.destination,
    proof.coin.denom⟩

/-- The check of the signature that the request has of this document. -/
def ownerCheck (service : ApprovalService) (proof : Proof) (valid : ValidRequest)
    (key : PublicKey) : Except IdentityError Unit :=
  checkSignature key valid.signature.bytes
    (service.settings.scheme.messageHash (service.proofDoc proof valid).bytes)

theorem ClaimsProof.ownershipFault_eq (h : service.ClaimsProof request proof valid key)
    {position : Nat} (hentry : service.selected? request = some (position, proof.coin)) :
    service.claimFault request .ownership =
      faultOf signatureRefusal (service.ownerCheck proof valid key) := by
  rw [claimFault, hentry, h.symbol_eq]
  show service.ownershipFault .claim proof.coin.amount proof.coin.denom request.validate = _
  rw [ownershipFault, h.requester?_eq]
  rfl

/-- What the claim needs for its payload has been checked. -/
theorem ClaimsProof.exists_claimPayload (h : service.ClaimsProof request proof valid key)
    (hchecked : service.ServesChecked snapshot) (hproof : proof ∈ snapshot.proofs)
    (haccount : service.ledger.account proof.address = .ok account)
    (hfirst : account.FirstEntry proof.coin.denom proof.index.toNat proof.coin)
    (hencodes : service.settings.encoder.encodeAt account proof.index.toNat = .ok leaf) :
    ∃ bytes, service.claimBytes? request = some (.ok bytes) := by
  have hsymbol := (fields_of_validate h.validates).1.trans h.symbol_eq
  have hfits := (LeafEncoder.encodable_of_encodeAt hencodes hfirst.entry).denom_fits
  rw [← hsymbol] at hfits
  obtain ⟨bytes, hbytes⟩ := ClaimPayload.exists_encode
    (p := ⟨service.settings.network.chainId, valid.tokenSymbol, valid.destination,
      valid.signature.bytes, leaf.bytes, snapshot.stateRoot, proof.siblings⟩)
    service.settings.payloadFormat hfits
  have hlookup : service.claimProof request ⟨valid, proof.address, key⟩ proof.index.toNat =
      .ok proof := by
    rw [claimProof, h.symbol_eq, UInt32.ofNat_toNat]
    exact hchecked.proof_found hproof
  refine ⟨bytes, (claimBytes?_of_found h.requester?_eq (account?_of_found h.requester?_eq haccount)
    (h.selected?_eq haccount hfirst) hlookup hchecked.built.presents.stateRoot).trans ?_⟩
  exact congrArg some (Outcome.bind_eq_ok_iff.mpr ⟨leaf, hencodes, hbytes⟩)

/-- A claim that goes to the proof's entry is refused for the owner's signature or by the signer. -/
theorem ClaimsProof.findSome?_of_first (h : service.ClaimsProof request proof valid key)
    (hchecked : service.ServesChecked snapshot) (hproof : proof ∈ snapshot.proofs)
    (hamount : 0 < proof.coin.amount)
    (haccount : service.ledger.account proof.address = .ok account)
    (hfirst : account.FirstEntry proof.coin.denom proof.index.toNat proof.coin)
    (hbytes : service.claimBytes? request = some (.ok bytes)) :
    (claimSteps ++ [ClaimStep.signing]).findSome? (service.claimFault request) =
      (faultOf signatureRefusal (service.ownerCheck proof valid key)).or
        (faultOf .signingFailed
          (service.signer.sign (service.settings.payloadFormat.digest bytes))) := by
  have hentry := h.selected?_eq haccount hfirst
  have hlookup : service.claimFault request .proof = none := by
    rw [h.proofFault_eq hentry, UInt32.ofNat_toNat, hchecked.proof_found hproof]
    rfl
  have hselection :
      [ClaimStep.index, .negativeAmount, .zeroAmount].findSome? (service.claimFault request) =
        none := by
    rw [← h.symbol_eq] at hfirst
    rw [selectionFault_of_selected hentry hfirst, LeafEncoder.select_eq_ok_iff.mpr
      ⟨proof.coin, hfirst, hamount, fun i hi => by rw [Option.some.inj (h.index_eq.symm.trans hi)]⟩]
    rfl
  have hencoding : service.claimFault request .encoding = none := encodingFault_of_bytes hbytes
  have hsigning : service.claimFault request .signing = faultOf .signingFailed
      (service.signer.sign (service.settings.payloadFormat.digest bytes)) := by
    rw [claimFault, claimPayload?_of_bytes hbytes]
    rfl
  rw [h.findSome?_claimFault hchecked.unrestricted haccount hfirst]
  -- the three steps of the selection have one lemma for all of them
  show ([ClaimStep.proof, .stateRoot] ++ ([ClaimStep.index, .negativeAmount, .zeroAmount]
    ++ [ClaimStep.ownership, .encoding, .signing])).findSome? _ = _
  rw [List.findSome?_append, List.findSome?_append, hselection]
  simp only [List.findSome?_cons, List.findSome?_nil, hlookup, hchecked.rootFault_eq,
    h.ownershipFault_eq hentry, hencoding, hsigning, Option.none_or]
  cases faultOf signatureRefusal (service.ownerCheck proof valid key) with
  | none =>
    cases faultOf .signingFailed
      (service.signer.sign (service.settings.payloadFormat.digest bytes)) <;> rfl
  | some error => rfl

end

/-! ### The claims of proofs -/

/-- A claim of a first entry is refused for the owner's signature or by the signer, and for nothing
else. -/
theorem ClaimsProof.refused_iff (h : service.ClaimsProof request proof valid key)
    (hchecked : service.ServesChecked snapshot) (hproof : proof ∈ snapshot.proofs)
    (hamount : 0 < proof.coin.amount) (hpoints : service.PointsToFirst proof) :
    ∃ payload, service.claimPayload? request = some payload
      ∧ ∀ error, (service.claim request).result = .error error ↔
        (∃ cause, service.ownerCheck proof valid key = .error cause
          ∧ error = signatureRefusal cause)
        ∨ service.ownerCheck proof valid key = .ok () ∧ ∃ cause,
          service.signer.sign (service.settings.payloadFormat.digest payload) = .error cause
            ∧ error = .signingFailed cause := by
  obtain ⟨account, leaf, haccount, hentry, hencodes⟩ := hchecked.placed hproof
  have hfirst : account.FirstEntry proof.coin.denom proof.index.toNat proof.coin :=
    ⟨hentry, rfl, hpoints account haccount⟩
  obtain ⟨payload, hbytes⟩ := h.exists_claimPayload hchecked hproof haccount hfirst hencodes
  refine ⟨payload, claimPayload?_of_bytes hbytes, fun error => ?_⟩
  rw [claim_refused_iff, h.findSome?_of_first hchecked hproof hamount haccount hfirst hbytes]
  cases service.ownerCheck proof valid key with
  | error cause => simp [faultOf, eq_comm]
  | ok _ =>
    cases service.signer.sign (service.settings.payloadFormat.digest payload) with
    | error cause => simp [faultOf, eq_comm]
    | ok signature => simp [faultOf]

/-- What is approved for a first entry is what the proof commits to. -/
theorem ClaimsProof.response_of_first (h : service.ClaimsProof request proof valid key)
    (hchecked : service.ServesChecked snapshot) (hproof : proof ∈ snapshot.proofs)
    {payload : Bytes} {response : ClaimResponse}
    {signature : Octets approvalSignatureLength}
    (hpayload : service.claimPayload? request = some payload)
    (hsign : service.signer.sign (service.settings.payloadFormat.digest payload) = .ok signature)
    (happroved : (service.claim request).result = .ok response) :
    response.amount = proof.coin.amount ∧ response.proofs = proof.siblings
      ∧ response.approvalSignature = signature.bytes := by
  obtain ⟨account, leaf, haccount, hentry, hencodes⟩ := hchecked.placed hproof
  obtain ⟨log, hreturns⟩ := Run.result_eq_ok_iff.mp happroved
  obtain ⟨e, he, rfl, -⟩ := returns_claim_iff.mp hreturns
  -- what the approval rests on is what the proof points to
  obtain rfl := Except.ok.inj (h.validates.symm.trans he.validates)
  obtain ⟨haddress, -⟩ := Prod.mk.inj (Except.ok.inj (h.identifies.symm.trans he.identifies))
  have hfound := he.account_found
  rw [← haddress] at hfound
  obtain rfl := Except.ok.inj (haccount.symm.trans hfound)
  have hposition : proof.index.toNat = e.position := (he.requested _ h.index_eq)
  have hcoin := he.first_entry.entry
  rw [← hposition, hentry] at hcoin
  have hlookup := he.proof_found
  rw [← haddress, h.symbol_eq, he.index_eq, ← hposition, UInt32.ofNat_toNat,
    hchecked.proof_found hproof] at hlookup
  obtain ⟨bytes, hbytes, hdigest⟩ := payload_of_claim_signed ((sign_mem_claim_iff he).mpr rfl)
  obtain rfl := Option.some.inj (hpayload.symm.trans hbytes)
  have hsigned := he.signs
  rw [hdigest, hsign] at hsigned
  refine ⟨?_, ?_, ?_⟩
  · rw [Option.some.inj hcoin]
    rfl
  · rw [Except.ok.inj hlookup]
    rfl
  · rw [Except.ok.inj hsigned]
    rfl

theorem ClaimsProof.refused_of_missing (h : service.ClaimsProof request proof valid key)
    (hopen : service.settings.whitelist.isEmpty = true) {account : Account} {position : Nat}
    {coin : Coin} (haccount : service.ledger.account proof.address = .ok account)
    (hfirst : account.FirstEntry proof.coin.denom position coin)
    (hmissing : service.ledger.proof proof.address proof.coin.denom (UInt32.ofNat position) =
      .error .proofNotFound) :
    (service.claim request).result = .error .proofNotFound := by
  rw [claim_refused_iff, h.findSome?_claimFault hopen haccount hfirst, List.findSome?_cons,
    h.proofFault_eq (h.selected?_eq haccount hfirst), hmissing]
  rfl

/-- A claim that asks for a later entry finds no proof for the first one, or is told that it asks
for another position. -/
theorem ClaimsProof.refused_of_later (h : service.ClaimsProof request proof valid key)
    (hchecked : service.ServesChecked snapshot) (hproof : proof ∈ snapshot.proofs)
    (hlater : ¬ service.PointsToFirst proof) :
    (service.claim request).result = .error .proofNotFound
      ∨ (service.claim request).result =
        .error (.badRequest (.leaf (.indexMismatch proof.index proof.coin.denom))) := by
  obtain ⟨account, leaf, haccount, hentry, -⟩ := hchecked.placed hproof
  obtain ⟨position, coin, hfirst⟩ := Account.exists_firstEntry hentry rfl
  have hne : ¬ proof.index.toNat = position := by
    intro heq
    refine hlater fun other hother => ?_
    obtain rfl := Except.ok.inj (haccount.symm.trans hother)
    rw [heq]
    exact hfirst.earlier
  have hpresents := hchecked.built.presents
  -- a proof of the first entry gets the claim past the look-up, but not past the index it asks for
  by_cases hlisted : ∃ other ∈ snapshot.proofs,
      other.key = (proof.address, UInt32.ofNat position, proof.coin.denom)
  · obtain ⟨other, hmem, hkey⟩ := hlisted
    have hclaimed := h.selected?_eq haccount hfirst
    have hlookup := (hpresents.proof_eq_ok_iff _ _ _ other).mpr ⟨hmem, hkey⟩
    right
    rw [claim_refused_iff, h.findSome?_claimFault hchecked.unrestricted haccount hfirst]
    simp only [List.findSome?_cons, h.proofFault_eq hclaimed, hlookup, faultOf,
      hchecked.rootFault_eq, h.indexFault_eq hclaimed, if_neg hne]
  · left
    exact h.refused_of_missing hchecked.unrestricted haccount hfirst
      (hpresents.proof_missing _ _ _ fun other hmem hkey => hlisted ⟨other, hmem, hkey⟩)

/-- **Claims of a clean snapshot.** Where the check finds nothing and every account is served, the
claim that a stored proof of a positive amount is made for is refused for the owner's signature or
by the signer only, if the proof points to the first entry of its token; and what is approved is
what the proof commits to. If it points to a later entry, the claim is always refused. -/
theorem checked_proof_claimable (hchecked : service.ServesChecked snapshot)
    (hproof : proof ∈ snapshot.proofs) (hamount : 0 < proof.coin.amount)
    (hclaims : service.ClaimsProof request proof valid key) :
    (service.PointsToFirst proof →
        ∃ payload, service.claimPayload? request = some payload
          ∧ (∀ error, (service.claim request).result = .error error ↔
            (∃ cause, service.ownerCheck proof valid key = .error cause
              ∧ error = signatureRefusal cause)
            ∨ service.ownerCheck proof valid key = .ok () ∧ ∃ cause,
              service.signer.sign (service.settings.payloadFormat.digest payload) = .error cause
                ∧ error = .signingFailed cause)
          ∧ ∀ signature, service.ownerCheck proof valid key = .ok () →
            service.signer.sign (service.settings.payloadFormat.digest payload) = .ok signature →
            ∃ response, (service.claim request).result = .ok response
              ∧ response.amount = proof.coin.amount ∧ response.proofs = proof.siblings
              ∧ response.approvalSignature = signature.bytes)
      ∧ (¬ service.PointsToFirst proof →
        (service.claim request).result = .error .proofNotFound
          ∨ (service.claim request).result =
            .error (.badRequest (.leaf (.indexMismatch proof.index proof.coin.denom)))) := by
  constructor
  · intro hpoints
    obtain ⟨payload, hpayload, hrefused⟩ :=
      hclaims.refused_iff hchecked hproof hamount hpoints
    refine ⟨payload, hpayload, hrefused, ?_⟩
    intro signature howned hsign
    cases hresult : (service.claim request).result with
    | ok response =>
      exact ⟨response, rfl,
        hclaims.response_of_first hchecked hproof hpayload hsign hresult⟩
    | error error =>
      rcases (hrefused error).mp hresult with ⟨cause, hcheck, -⟩ | ⟨-, cause, hfailed, -⟩
      · cases howned.symm.trans hcheck
      · cases hsign.symm.trans hfailed
  · intro hlater
    exact hclaims.refused_of_later hchecked hproof hlater

end ApprovalService

/-! ### A proof of a first entry and one of a later entry -/

/-- A state root is read back from its text. -/
theorem StateRoot.ofHex_hex (root : StateRoot) : StateRoot.ofHex root.hex = .ok root := by
  rw [ofHex, hex, Octets.ofHex_hex]
  rfl

namespace Sample

open ApprovalService

theorem claimRequest_claimsProof (ledger : Ledger) :
    (⟨settings, ledger, service.signer⟩ : ApprovalService).ClaimsProof claimRequest proof
      validClaim ownerKey where
  validates := evidence_supports.validates
  identifies := evidence_supports.identifies
  symbol_eq := rfl
  index_eq := rfl

theorem proof_placed :
    Ledger.Places settings.encoder snapshot.stateRoot [account] proof account leaf :=
  ⟨rfl, rfl, rfl, by rw [snapshot]⟩

theorem service_servesChecked : service.ServesChecked snapshot where
  built := store.ledger_builtFrom
  clean := ⟨_, store.verify_of_places rfl rfl proof_placed, rfl⟩
  unrestricted := rfl

/-- The account with another balance of its token in front. -/
def laterAccount : Account := ⟨owner, 1, [⟨"BNB", 5⟩, ⟨"BNB", 1000000000⟩]⟩

def laterSnapshot : Snapshot := { snapshot with accounts := [laterAccount] }

def laterStore : MemoryStore := ⟨laterSnapshot, rfl⟩

def laterService : ApprovalService := ⟨settings, laterStore.ledger, service.signer⟩

theorem later_placed :
    Ledger.Places settings.encoder snapshot.stateRoot [laterAccount] proof laterAccount leaf :=
  ⟨rfl, rfl, rfl, by rw [snapshot]⟩

theorem laterService_servesChecked : laterService.ServesChecked laterSnapshot where
  built := laterStore.ledger_builtFrom
  clean := ⟨_, laterStore.verify_of_places rfl rfl later_placed, rfl⟩
  unrestricted := rfl

/-- The owner in the form of the network. -/
def ownerText : String := "tbnb1vu8vu6jxqtwy5cc3kc6wj2fljsm5k0qqpwt3sn"

theorem documentAccount_ownerText : documentAccount settings.network ownerText = .ok owner := by
  have hparsed : settings.network.parseAccount ownerText = .ok owner :=
    Outcome.eq_ok_of_toOption (by decide +kernel)
  rw [documentAccount, hparsed]
  rfl

theorem ofDocuments_later :
    Snapshot.ofDocuments ⟨snapshot.stateRoot.hex⟩ [⟨ownerText, 1, laterAccount.balances⟩] []
      [⟨ownerText, 1, proof.coin, [(Octets.zero 32).hex]⟩] settings.network =
        .ok laterSnapshot := by
  have hroot := StateRoot.ofHex_hex snapshot.stateRoot
  have haccount : AccountDocument.record settings.network
      ⟨ownerText, 1, laterAccount.balances⟩ = .ok laterAccount := by
    rw [AccountDocument.record, documentAccount_ownerText]
    rfl
  have hproof : ProofDocument.record settings.network
      ⟨ownerText, 1, proof.coin, [(Octets.zero 32).hex]⟩ = .ok proof := by
    simp only [ProofDocument.record, List.mapM_cons, List.mapM_nil, Octets.ofHex_hex,
      documentAccount_ownerText]
    rfl
  simp only [Snapshot.ofDocuments, List.mapM_cons, List.mapM_nil, hroot, haccount, hproof]
  rfl

end Sample

namespace ApprovalService

/-- The claim of the first entry of its token is approved with what the proof commits to. -/
theorem checked_proof_claimable_sample :
    Sample.service.PointsToFirst Sample.proof
      ∧ ∃ response, (Sample.service.claim Sample.claimRequest).result = .ok response
        ∧ response.amount = 1000000000 ∧ response.proofs = [Octets.zero 32] := by
  have hclaims := Sample.claimRequest_claimsProof Sample.store.ledger
  have hfirst : Sample.service.PointsToFirst Sample.proof := by
    intro account haccount
    obtain rfl := Except.ok.inj (Sample.evidence_supports.account_found.symm.trans haccount)
    exact Sample.evidence_supports.first_entry.earlier
  obtain ⟨payload, -, -, happroved⟩ := (checked_proof_claimable Sample.service_servesChecked
    List.mem_cons_self (by decide) hclaims).1 hfirst
  obtain ⟨response, hresult, hamount, hproofs, -⟩ :=
    happroved (Octets.zero 65) Sample.evidence_supports.owned rfl
  exact ⟨hfirst, response, hresult, hamount, hproofs⟩

/-- **A proof that its owner cannot claim.** The documents of this snapshot are accepted, the check
finds nothing, the account is served and its owner has signed, but the claim is refused. -/
theorem later_entry_unclaimable :
    Snapshot.ofDocuments ⟨Sample.snapshot.stateRoot.hex⟩
        [⟨Sample.ownerText, 1, Sample.laterAccount.balances⟩] []
        [⟨Sample.ownerText, 1, Sample.proof.coin, [(Octets.zero 32).hex]⟩]
        Sample.settings.network = .ok Sample.laterSnapshot
      ∧ Sample.laterService.ServesChecked Sample.laterSnapshot
      ∧ Sample.proof ∈ Sample.laterSnapshot.proofs ∧ 0 < Sample.proof.coin.amount
      ∧ Sample.proof.coin.denom ≠ ""
      ∧ Sample.laterService.ClaimsProof Sample.claimRequest Sample.proof Sample.validClaim
        Sample.ownerKey
      ∧ Sample.laterService.ownerCheck Sample.proof Sample.validClaim Sample.ownerKey = .ok ()
      ∧ (Sample.laterService.claim Sample.claimRequest).result = .error .proofNotFound := by
  have hclaims := Sample.claimRequest_claimsProof Sample.laterStore.ledger
  have hfirst : Sample.laterAccount.FirstEntry "BNB" 0 ⟨"BNB", 5⟩ :=
    ⟨rfl, rfl, fun i hi => absurd hi (Nat.not_lt_zero i)⟩
  refine ⟨Sample.ofDocuments_later, Sample.laterService_servesChecked, List.mem_cons_self,
    by decide, by decide, hclaims, Sample.evidence_supports.owned, ?_⟩
  exact hclaims.refused_of_missing rfl rfl hfirst rfl

end ApprovalService

end TokenApproval
