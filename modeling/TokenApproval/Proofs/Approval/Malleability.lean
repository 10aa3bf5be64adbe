import TokenApproval.Proofs.Approval.Separation
import TokenApproval.Proofs.Identity

/-!
# Ownership signatures in one form only

The bytes of an ownership signature are read in one place of an approval, behind the look-ups that
the check needs. So of two requests that differ in these bytes alone, the second one gets as far as
the first, and is then refused for what is wrong with its own bytes. For the complement of a
signature that was accepted, that is its form, whichever scheme hashes the message.
-/

namespace TokenApproval

open Secp256k1 (PublicKey Signature groupOrder)

/-- Another text for the signature changes nothing else of what a request decodes to. -/
theorem validateFields_with_signature {symbol key signature destination text : String}
    {index : Option UInt32} {valid : ValidRequest} {octets : Octets Signature.compactLength}
    (hvalid : validateFields symbol index key signature destination = .ok valid)
    (htext : Hex.decode text = .ok octets.bytes) :
    validateFields symbol index key text destination = .ok { valid with signature := octets } := by
  obtain ⟨hsymbol, hkey, -, hdestination⟩ := validateFields_eq_ok_iff.mp hvalid
  exact validateFields_eq_ok_iff.mpr ⟨hsymbol, hkey, htext, hdestination⟩

/-! ## Refusals, whatever was noted before -/

namespace Run

variable {ε α β : Type} {log mid : List Event} {error : ApprovalError}

/-- Started on `log`, the run is refused with `error`. -/
def Fails (run : Run α) (log : List Event) (error : ApprovalError) : Prop :=
  ∃ log', run.Refuses log error log'

theorem result_of_fails {run : Run α} (h : run.Fails [] error) : run.result = .error error := by
  obtain ⟨log', hrefuses⟩ := h
  exact congrArg Prod.fst (outcome_of_refuses hrefuses)

theorem fails_bind_of_returns {first : Run α} {next : α → Run β} {a : α}
    (hfirst : first.Returns log a mid) (hnext : (next a).Fails mid error) :
    (first >>= next).Fails log error := by
  obtain ⟨log', hrefuses⟩ := hnext
  exact ⟨log', refuses_bind_of_returns hfirst hrefuses⟩

theorem fails_bind_of_fails {first : Run α} {next : α → Run β} (h : first.Fails log error) :
    (first >>= next).Fails log error := by
  obtain ⟨log', hrefuses⟩ := h
  exact ⟨log', refuses_bind_of_refuses hrefuses⟩

theorem fails_lift_bind {refusal : ε → ApprovalError} {x : Except ε α} {next : α → Run β}
    {cause : ε} (h : x = .error cause) : (lift refusal x >>= next).Fails log (refusal cause) :=
  fails_bind_of_fails ⟨log, refuses_lift h log⟩

end Run

namespace ApprovalService

variable {service : ApprovalService} {text : String} {cause : IdentityError}

/-! ## Requests with another signature -/

/-- Where a claim is approved, the claim with another signature is refused for its signature. -/
theorem claim_refused_of_signature {request : ClaimRequest} {e : ClaimEvidence}
    (he : e.Supports service request) (octets : Octets Signature.compactLength)
    (htext : Hex.decode text = .ok octets.bytes)
    (hcheck : checkSignature e.key octets.bytes
      (service.settings.scheme.messageHash
        (SignDoc.mk .claim e.coin.amount service.settings.network.chainId e.valid.destination
          request.tokenSymbol).bytes) = .error cause) :
    (service.claim { request with ownerSignature := text }).result =
      .error (.ofIdentity cause) := by
  obtain ⟨hdenom, hindex⟩ := fields_of_validate he.validates
  have hposition : e.account.position? request.tokenSymbol = some e.position :=
    Account.position?_eq_some_iff.mpr ⟨e.coin, he.first_entry⟩
  have hselects : LeafEncoder.select e.account request.tokenSymbol request.tokenIndex =
      .ok e.position :=
    LeafEncoder.select_eq_ok_iff.mpr ⟨e.coin, he.first_entry, he.positive, he.requested⟩
  refine Run.result_of_fails (Run.fails_bind_of_fails ?_)
  -- the steps before the check do not read the signature
  refine Run.fails_bind_of_returns (Run.returns_lift_iff.mpr
    ⟨validateFields_with_signature he.validates htext, rfl⟩) ?_
  refine Run.fails_bind_of_returns (returns_identify_iff.mpr ⟨he.identifies, rfl⟩) ?_
  refine Run.fails_bind_of_returns (a := ()) (returns_checkWhitelist_iff.mpr ⟨he.served, rfl⟩) ?_
  refine Run.fails_bind_of_returns (returns_lookupAccount_iff.mpr ⟨he.account_found, rfl⟩) ?_
  dsimp only
  rw [hdenom, hindex, hposition]
  refine Run.fails_bind_of_returns (Run.returns_lift_iff.mpr ⟨rfl, rfl⟩) ?_
  refine Run.fails_bind_of_returns (returns_lookupProof_iff.mpr
    ⟨he.index_eq ▸ he.proof_found, rfl⟩) ?_
  refine Run.fails_bind_of_returns (returns_lookupStateRoot_iff.mpr ⟨he.root_found, rfl⟩) ?_
  refine Run.fails_bind_of_returns (Run.returns_lift_iff.mpr ⟨hselects, rfl⟩) ?_
  refine Run.fails_bind_of_returns (returns_coinAt_iff.mpr ⟨he.first_entry.entry, rfl⟩) ?_
  exact Run.fails_lift_bind hcheck

/-- Where a registration is approved, the registration with another signature is refused for its
signature. -/
theorem register_refused_of_signature {request : RegisterRequest} {e : RegisterEvidence}
    (he : e.Supports service request) (octets : Octets Signature.compactLength)
    (htext : Hex.decode text = .ok octets.bytes)
    (hcheck : checkSignature e.key octets.bytes
      (service.settings.scheme.messageHash
        (SignDoc.mk .registerToken e.asset.amount service.settings.network.chainId
          e.valid.destination request.tokenSymbol).bytes) = .error cause) :
    (service.register { request with ownerSignature := text }).result =
      .error (.ofIdentity cause) := by
  have hdenom := symbol_of_validate he.validates
  have hword : ∃ word, Leaf.denomWord request.tokenSymbol = .ok word :=
    ⟨⟨Leaf.paddedDenom request.tokenSymbol, Leaf.length_paddedDenom he.denom_fits⟩,
      Leaf.denomWord_eq_ok_iff.mpr ⟨he.denom_fits, rfl⟩⟩
  obtain ⟨word, hword⟩ := hword
  have hnonzero := (LeafEncoder.amount_pos_iff.mp he.positive).2
  refine Run.result_of_fails (Run.fails_bind_of_fails ?_)
  refine Run.fails_bind_of_returns (Run.returns_lift_iff.mpr
    ⟨validateFields_with_signature he.validates htext, rfl⟩) ?_
  refine Run.fails_bind_of_returns (returns_identify_iff.mpr ⟨he.identifies, rfl⟩) ?_
  refine Run.fails_bind_of_returns (a := ()) (returns_checkWhitelist_iff.mpr ⟨he.served, rfl⟩) ?_
  dsimp only
  rw [hdenom]
  refine Run.fails_bind_of_returns (returns_lookupAsset_iff.mpr ⟨he.asset_found, rfl⟩) ?_
  rw [if_neg (not_not_intro he.owned_by), if_neg hnonzero]
  refine Run.fails_bind_of_returns (Run.returns_lift_iff.mpr ⟨hword, rfl⟩) ?_
  exact Run.fails_lift_bind hcheck

/-! ## Requests with the complement -/

/-- The evidence of an approved request has the signature that the request spells. -/
theorem signature_of_validate {symbol key signature destination : String} {index : Option UInt32}
    {valid : ValidRequest} {bytes : Bytes}
    (hvalid : validateFields symbol index key signature destination = .ok valid)
    (hbytes : Hex.decode signature = .ok bytes) : valid.signature.bytes = bytes := by
  obtain ⟨-, -, hsignature, -⟩ := validateFields_eq_ok_iff.mp hvalid
  exact Except.ok.inj (hsignature.symm.trans hbytes)

/-- The complement of a compact signature as octets. -/
def complementOctets (signature : Octets Signature.compactLength) :
    Octets Signature.compactLength :=
  ⟨Signature.complement signature.bytes, by
    rw [Signature.complement, List.length_append, List.length_take, signature.length_bytes,
      Bytes.length_ofNat]
    rfl⟩

/-- **One form only.** Bytes are refused for their encoding exactly if they are not 64 or one of
their halves is not below the order of the group; of the others, as malleable exactly if `s` is
above the lower half; of the rest, accepted exactly if the signature verifies. So whatever the
service approves, the same request with the complement of `s` is refused as malleable. -/
theorem one_form_accepted :
    (∀ (key : PublicKey) (bytes : Bytes) (digest : Octets 32),
      ((∃ fault, checkSignature key bytes digest = .error (.invalidEncoding fault)) ↔
          bytes.length ≠ 64 ∨ groupOrder ≤ Bytes.toNat (bytes.take 32)
            ∨ groupOrder ≤ Bytes.toNat (bytes.drop 32))
        ∧ (checkSignature key bytes digest = .error .malleable ↔
          ∃ signature : Signature, signature.bytes = bytes ∧ (groupOrder - 1) / 2 < signature.s)
        ∧ (checkSignature key bytes digest = .ok () ↔
          ∃ signature : Signature, signature.bytes = bytes ∧ signature.s ≤ (groupOrder - 1) / 2
            ∧ signature.verify key digest = true)
        ∧ (checkSignature key bytes digest = .error .mismatch ↔
          ∃ signature : Signature, signature.bytes = bytes ∧ signature.s ≤ (groupOrder - 1) / 2
            ∧ signature.verify key digest = false))
    ∧ ∀ (service : ApprovalService) (text : String) (bytes : Bytes),
      Hex.decode text = .ok (Signature.complement bytes) →
      (∀ (request : ClaimRequest) (response : ClaimResponse),
        Hex.decode request.ownerSignature = .ok bytes →
        (service.claim request).result = .ok response →
        (service.claim { request with ownerSignature := text }).result =
          .error .malleableSignature)
      ∧ ∀ (request : RegisterRequest) (response : RegisterResponse),
        Hex.decode request.ownerSignature = .ok bytes →
        (service.register request).result = .ok response →
        (service.register { request with ownerSignature := text }).result =
          .error .malleableSignature := by
  refine ⟨fun key bytes digest => ⟨?_, checkSignature_malleable_iff, checkSignature_ok_iff,
    checkSignature_mismatch_iff⟩, fun service text bytes htext => ⟨?_, ?_⟩⟩
  · rw [checkSignature_invalidEncoding_iff, Signature.Fits, Signature.compactLength]
    omega
  · intro request response hbytes happroved
    obtain ⟨log, hreturns⟩ := Run.result_eq_ok_iff.mp happroved
    obtain ⟨e, he, -, -⟩ := returns_claim_iff.mp hreturns
    obtain rfl := signature_of_validate he.validates hbytes
    exact claim_refused_of_signature he (complementOctets e.valid.signature) htext
      (complement_refused he.owned _ _)
  · intro request response hbytes happroved
    obtain ⟨log, hreturns⟩ := Run.result_eq_ok_iff.mp happroved
    obtain ⟨e, he, -, -⟩ := returns_register_iff.mp hreturns
    obtain rfl := signature_of_validate he.validates hbytes
    exact register_refused_of_signature he (complementOctets e.valid.signature) htext
      (complement_refused he.owned _ _)

end ApprovalService

/-! ## The complements of the sample signatures -/

namespace Sample

/-- The request with the complement of its signature. -/
def complementClaim : ClaimRequest :=
  { claimRequest with
    ownerSignature := Hex.prefixed (Signature.complement validClaim.signature.bytes) }

def complementRegister : RegisterRequest :=
  { registerRequest with
    ownerSignature :=
      Hex.prefixed (Signature.complement registerEvidence.valid.signature.bytes) }

end Sample

namespace ApprovalService

open Sample

theorem one_form_accepted_sample :
    (service.claim claimRequest).result = .ok evidence.response
      ∧ (service.claim complementClaim).result = .error .malleableSignature
      ∧ (registry.register registerRequest).result = .ok registerEvidence.response
      ∧ (registry.register complementRegister).result = .error .malleableSignature := by
  have hclaim := claim_of_supports evidence_supports
  have hregister := register_of_supports registerEvidence_supports
  have hclaimBytes := (validateFields_eq_ok_iff.mp evidence_supports.validates).2.2.1
  have hregisterBytes := (validateFields_eq_ok_iff.mp registerEvidence_supports.validates).2.2.1
  refine ⟨hclaim, ?_, hregister, ?_⟩
  · exact (one_form_accepted.2 service _ _ (Hex.decode_prefixed _)).1 claimRequest _ hclaimBytes
      hclaim
  · exact (one_form_accepted.2 registry _ _ (Hex.decode_prefixed _)).2 registerRequest _
      hregisterBytes hregister

end ApprovalService

end TokenApproval
