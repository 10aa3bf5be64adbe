import TokenApproval.Proofs.Approval.Claimable
import TokenApproval.Proofs.Approval.Evidence
import TokenApproval.Proofs.Approval.Payload

/-!
# Rebuilding what was signed from the answer

Whoever receives an answer does not see the leaf that was signed. A per-denom leaf is the account's
identifier and one entry, which the answer's amount completes. A full-account leaf is cut around its
entry, and the answer has what stands on either side; the front ends where the entry begins, so that
its length tells the position. `ClaimResponse.rebuiltDigest` puts these together again.
-/

namespace TokenApproval

open Leaf

/-- What is known of a claim besides its answer. -/
structure KnownClaim where
  chainId : String
  denom : String
  destination : EvmAddress
  ownerSignature : Bytes
  address : AccountId
  root : StateRoot
  position : Nat

namespace ClaimResponse

variable (response : ClaimResponse) (encoder : LeafEncoder) (format : PayloadFormat)
  (known : KnownClaim)

/-- The claimed entry. -/
def rebuiltEntry : Bytes :=
  entryBytes encoder.layout known.position ⟨known.denom, response.amount⟩

/-- The leaf: the entry behind the account's identifier, or between the nodes of the answer. -/
def rebuiltLeaf : Bytes :=
  match encoder.version with
  | .perDenom => known.address.octets.bytes ++ response.rebuiltEntry encoder known
  | .fullAccount =>
    response.prefixNode.getD [] ++ response.rebuiltEntry encoder known
      ++ response.suffixNode.getD []

/-- The payload, in the formats that prove the leaf with the state root and the answer's proof. -/
def rebuiltPayload : Bytes :=
  match format with
  | .legacy =>
    Text.bytes known.chainId ++ paddedDenom known.denom ++ known.destination.octets.bytes
      ++ known.ownerSignature ++ response.rebuiltLeaf encoder known
  | .standard | .personalMessage =>
    Text.bytes known.chainId ++ known.destination.octets.bytes ++ known.ownerSignature
      ++ response.rebuiltLeaf encoder known ++ known.root.octets.bytes
      ++ response.proofs.flatMap Octets.bytes

def rebuiltDigest : Octets 32 :=
  let hash := keccak256 (response.rebuiltPayload encoder format known)
  if format = .personalMessage then personalMessageHash hash.bytes else hash

end ClaimResponse

/-! ## Ledgers -/

/-- What is found for an address is an account of that address. -/
def Ledger.FiledByAddress (ledger : Ledger) : Prop :=
  ∀ address account, ledger.account address = .ok account → account.address = address

theorem Ledger.BuiltFrom.filedByAddress {ledger : Ledger} {snapshot : Snapshot}
    (h : ledger.BuiltFrom snapshot) : ledger.FiledByAddress := by
  intro address account hfound
  exact ((h.presents.account_eq_ok_iff address account).mp hfound).2

/-! ## Evidence -/

namespace ClaimEvidence

/-- What is known of an approved claim. -/
def known (e : ClaimEvidence) (settings : ApprovalSettings) (denom : String) : KnownClaim :=
  ⟨settings.network.chainId, denom, e.valid.destination, e.valid.signature.bytes, e.address,
    e.root, e.position⟩

variable {e : ClaimEvidence} {service : ApprovalService} {request : ClaimRequest}

/-- The answer's amount is that of the entry. -/
theorem Supports.rebuiltEntry_eq (h : e.Supports service request) :
    e.response.rebuiltEntry service.settings.encoder
        (e.known service.settings request.tokenSymbol) =
      entryBytes service.settings.encoder.layout e.position e.coin := by
  have hcoin : (⟨request.tokenSymbol, e.coin.amount⟩ : Coin) = e.coin := by
    rw [← h.first_entry.denom_eq]
  exact congrArg (entryBytes _ _) hcoin

theorem Supports.perDenom_leaf (h : e.Supports service request)
    (hversion : service.settings.encoder.version = .perDenom) :
    e.leaf = ⟨e.account.address.octets.bytes
      ++ entryBytes service.settings.encoder.layout e.position e.coin, e.position, none⟩ := by
  have hencodes := h.encodes
  rw [LeafEncoder.encodeAt, hversion] at hencodes
  obtain ⟨coin, hcoin, -, hleaf⟩ := LeafEncoder.perDenom_eq_ok_iff.mp hencodes
  obtain rfl := Option.some.inj (hcoin.symm.trans h.first_entry.entry)
  exact hleaf

theorem Supports.fullAccount_leaf (h : e.Supports service request)
    (hversion : service.settings.encoder.version = .fullAccount) :
    ∃ before behind, e.leaf.split = some (before, behind)
      ∧ e.leaf.bytes = before
          ++ (entryBytes service.settings.encoder.layout e.position e.coin ++ behind)
      ∧ before.length = 52 + entryWidth service.settings.encoder.layout * e.position := by
  have hencodes := h.encodes
  rw [LeafEncoder.encodeAt, hversion] at hencodes
  exact ⟨_, _, LeafEncoder.split_of_fullAccount hencodes h.first_entry.entry⟩

theorem Supports.rebuiltLeaf_eq (h : e.Supports service request)
    (hfiled : service.ledger.FiledByAddress) :
    e.response.rebuiltLeaf service.settings.encoder
      (e.known service.settings request.tokenSymbol) = e.leaf.bytes := by
  rw [ClaimResponse.rebuiltLeaf, h.rebuiltEntry_eq]
  cases hversion : service.settings.encoder.version with
  | perDenom =>
    rw [h.perDenom_leaf hversion, hfiled _ _ h.account_found]
    rfl
  | fullAccount =>
    obtain ⟨before, behind, hsplit, hbytes, -⟩ := h.fullAccount_leaf hversion
    rw [hbytes, ← List.append_assoc, response, hsplit]
    rfl

theorem Supports.rebuiltPayload_eq (h : e.Supports service request)
    (hfiled : service.ledger.FiledByAddress) :
    e.response.rebuiltPayload service.settings.encoder service.settings.payloadFormat
      (e.known service.settings request.tokenSymbol) = e.payload := by
  have hencodes := h.payload_encodes
  unfold ClaimResponse.rebuiltPayload
  rw [h.rebuiltLeaf_eq hfiled]
  -- only the legacy format writes the symbol, and it can fail there
  cases hformat : service.settings.payloadFormat with
  | legacy =>
    rw [hformat] at hencodes
    obtain ⟨word, hword, hbytes⟩ := Outcome.bind_eq_ok_iff.mp hencodes
    rw [← Except.ok.inj hbytes, (denomWord_eq_ok_iff.mp hword).2]
    rfl
  | standard =>
    rw [hformat] at hencodes
    exact Except.ok.inj hencodes
  | personalMessage =>
    rw [hformat] at hencodes
    exact Except.ok.inj hencodes

end ClaimEvidence

namespace ApprovalService

variable {service : ApprovalService} {request : ClaimRequest} {response : ClaimResponse}

/-- **Rebuilding.** The digest that is signed for an approved claim can be computed from its answer
and what the requester, the chain and the snapshot's root tell; it is the one digest that reaches
the signer, and the answer has the signature of it. Where the leaf is that of a full account, the
answer's first node tells the position too. -/
theorem approval_rebuilds (hfiled : service.ledger.FiledByAddress)
    (happroved : (service.claim request).result = .ok response) :
    ∃ e : ClaimEvidence, e.Supports service request
      ∧ (∀ digest, .sign digest ∈ (service.claim request).events ↔
          digest = response.rebuiltDigest service.settings.encoder service.settings.payloadFormat
            (e.known service.settings request.tokenSymbol))
      ∧ (∃ signature, response.approvalSignature = signature.bytes ∧ service.signer.sign
          (response.rebuiltDigest service.settings.encoder service.settings.payloadFormat
            (e.known service.settings request.tokenSymbol)) = .ok signature)
      ∧ (service.settings.encoder.version = .perDenom →
          response.prefixNode = none ∧ response.suffixNode = none)
      ∧ (service.settings.encoder.version = .fullAccount →
          ∃ before behind, response.prefixNode = some before ∧ response.suffixNode = some behind
            ∧ before.length = 52 + e.position * entryWidth service.settings.encoder.layout
            ∧ e.position = (before.length - 52) / entryWidth service.settings.encoder.layout) := by
  obtain ⟨log, hreturns⟩ := Run.result_eq_ok_iff.mp happroved
  obtain ⟨e, he, rfl, -⟩ := returns_claim_iff.mp hreturns
  have hdigest : e.response.rebuiltDigest service.settings.encoder service.settings.payloadFormat
      (e.known service.settings request.tokenSymbol) =
        service.settings.payloadFormat.digest e.payload := by
    rw [ClaimResponse.rebuiltDigest, he.rebuiltPayload_eq hfiled, PayloadFormat.digest_eq]
  refine ⟨e, he, ?_, ⟨e.signature, rfl, ?_⟩, ?_, ?_⟩
  · intro digest
    rw [hdigest]
    exact sign_mem_claim_iff he
  · rw [hdigest]
    exact he.signs
  · intro hversion
    rw [ClaimEvidence.response, he.perDenom_leaf hversion]
    exact ⟨rfl, rfl⟩
  · intro hversion
    obtain ⟨before, behind, hsplit, -, hlength⟩ := he.fullAccount_leaf hversion
    obtain ⟨count, hwidth⟩ := exists_entryWidth_eq service.settings.encoder.layout
    refine ⟨before, behind, ?_, ?_, ?_, ?_⟩
    · rw [ClaimEvidence.response, hsplit]
      rfl
    · rw [ClaimEvidence.response, hsplit]
      rfl
    · rw [hlength, Nat.mul_comm]
    · rw [hlength, Nat.add_sub_cancel_left, Nat.mul_div_cancel_left _ (by omega)]

end ApprovalService

/-! ## The sample claim, with either leaf -/

namespace Sample

/-- The sample service with leaves of full accounts. -/
def fullService : ApprovalService :=
  { service with settings := { settings with encoder := ⟨.fullAccount, .symbol⟩ } }

def fullLeaf : Leaf where
  bytes := fullBytes .symbol account
  index := 1
  split := some (beforeEntry .symbol account 1, behindEntry .symbol account 1)

def fullEvidence : ClaimEvidence where
  __ := evidence
  leaf := fullLeaf
  payload := Text.bytes "Binance-Chain-Ganges" ++ validClaim.destination.octets.bytes
    ++ validClaim.signature.bytes ++ fullLeaf.bytes ++ snapshot.stateRoot.octets.bytes
    ++ proof.siblings.flatMap Octets.bytes

theorem fullEvidence_supports : fullEvidence.Supports fullService claimRequest where
  validates := evidence_supports.validates
  identifies := evidence_supports.identifies
  served := rfl
  account_found := rfl
  first_entry := evidence_supports.first_entry
  index_eq := rfl
  proof_found := rfl
  root_found := rfl
  requested := evidence_supports.requested
  positive := evidence_supports.positive
  owned := evidence_supports.owned
  encodes := rfl
  payload_encodes := rfl
  signs := rfl

end Sample

namespace ApprovalService

theorem approval_rebuilds_sample :
    (∃ e : ClaimEvidence, e.Supports Sample.service Sample.claimRequest ∧ ∀ digest,
      .sign digest ∈ (Sample.service.claim Sample.claimRequest).events ↔
        digest = Sample.evidence.response.rebuiltDigest ⟨.perDenom, .symbol⟩ .standard
          (e.known Sample.settings "BNB"))
      ∧ ∃ before, Sample.fullEvidence.response.prefixNode = some before
        ∧ (before.length - 52) / 64 = 1 := by
  have hfiled : Sample.store.ledger.FiledByAddress :=
    Sample.store.ledger_builtFrom.filedByAddress
  have hsingle := Run.result_eq_ok_iff.mpr
    ⟨_, returns_claim_iff.mpr ⟨_, Sample.evidence_supports, rfl, rfl⟩⟩
  have hfull := Run.result_eq_ok_iff.mpr
    ⟨_, returns_claim_iff.mpr ⟨_, Sample.fullEvidence_supports, rfl, rfl⟩⟩
  constructor
  · obtain ⟨e, he, hsigned, -⟩ := approval_rebuilds hfiled hsingle
    exact ⟨e, he, hsigned⟩
  · obtain ⟨e, he, -, -, -, hnodes⟩ := approval_rebuilds hfiled hfull
    obtain ⟨before, -, hbefore, -, -, hposition⟩ := hnodes rfl
    refine ⟨before, hbefore, hposition.symm.trans ?_⟩
    exact (he.requested 1 rfl).symm

end ApprovalService

end TokenApproval
