import TokenApproval.Proofs.Approval.FirstFault
import TokenApproval.Proofs.Approval.Payload
import TokenApproval.Proofs.Ledger.MerkleTree

/-!
# Claims and registrations are kept apart

No payload says whether it is one of a claim or of a registration; their lengths do. Behind the
chain's name a registration has an address, a signature and three words, and a claim also the
identifier at the front of its leaf: it is an address longer, up to whole words. No format, layout,
balance list or number of siblings makes up for these 20 bytes, all of them being counted in words.
Hence a digest that is signed for both comes from two byte strings that collide.
-/

namespace TokenApproval

open Leaf

/-! ## The bytes of registrations -/

namespace RegisterPayload

variable {p q : RegisterPayload} {x y : Bytes}

theorem length_of_encode (h : p.encode = .ok x) (hsignature : p.ownerSignature.length = 64) :
    x.length = (Text.bytes p.chainId).length + 180 := by
  obtain ⟨hfits, -, rfl⟩ := encode_eq_ok_iff.mp h
  simp only [List.length_append, Octets.length_bytes, hsignature, length_paddedDenom hfits,
    Bytes.length_ofNat]

/-- Registrations of one chain have one payload exactly if all that they contain is the same, up to
NUL bytes at the end of the symbols. -/
theorem encode_inj (hchain : p.chainId = q.chainId) (hp : p.ownerSignature.length = 64)
    (hq : q.ownerSignature.length = 64) (hx : p.encode = .ok x) (hy : q.encode = .ok y) :
    x = y ↔
      p.destination = q.destination ∧ p.ownerSignature = q.ownerSignature
        ∧ SameDenom p.denom q.denom ∧ p.amount = q.amount ∧ p.stateRoot = q.stateRoot := by
  obtain ⟨hpfits, hpamount, rfl⟩ := encode_eq_ok_iff.mp hx
  obtain ⟨hqfits, hqamount, rfl⟩ := encode_eq_ok_iff.mp hy
  have hamounts : (amountBytes p.amount).length = (amountBytes q.amount).length := by
    rw [length_amountBytes, length_amountBytes]
  rw [← amountBytes, ← amountBytes, hchain]
  simp only [List.append_assoc]
  rw [List.append_cancel_left_eq, Octets.append_inj, EvmAddress.octets_inj,
    List.append_eq_append_iff_of_size_eq_left (hp.trans hq.symm),
    paddedDenom_append_inj hpfits hqfits, List.append_eq_append_iff_of_size_eq_left hamounts,
    amountBytes_inj hpamount hqamount, ← Octets.ext_iff, StateRoot.octets_inj]

end RegisterPayload

/-! ## Their lengths and those of claims -/

namespace ClaimPayload

variable {p : ClaimPayload} {format : PayloadFormat} {encoder : LeafEncoder} {x : Bytes}

/-- Whatever the leaf and the siblings, a claim is as long as the chain's name, a quarter of a word
and a number of words. -/
theorem length_of_encode (h : p.encode format = .ok x) (hsignature : p.ownerSignature.length = 64)
    (hleaf : encoder.Writes p.leaf) :
    ∃ count, x.length = (Text.bytes p.chainId).length + (32 * count + 8) := by
  obtain ⟨account, index, leaf, hencoded, hbytes⟩ := hleaf
  have hwords := LeafEncoder.length_bytes_mod hencoded
  rw [hbytes] at hwords
  refine ⟨(x.length - (Text.bytes p.chainId).length) / 32, ?_⟩
  by_cases hformat : format = .legacy
  · subst hformat
    have hfits : (Text.bytes p.denom).length ≤ 32 := by
      obtain ⟨word, hword, -⟩ := Outcome.bind_eq_ok_iff.mp h
      exact (denomWord_eq_ok_iff.mp hword).1
    rw [encode_legacy hfits] at h
    rw [← Except.ok.inj h]
    simp only [List.length_append, Octets.length_bytes, hsignature, length_paddedDenom hfits]
    omega
  · rw [encode_proved hformat] at h
    rw [← Except.ok.inj h]
    simp only [List.length_append, Octets.length_bytes, hsignature, length_evidenceBytes]
    omega

/-- No claim has the payload of a registration of the same chain. -/
theorem encode_ne_register {q : RegisterPayload} (hchain : p.chainId = q.chainId)
    (hp : p.ownerSignature.length = 64) (hq : q.ownerSignature.length = 64)
    (hleaf : encoder.Writes p.leaf) (hx : q.encode = .ok x) : p.encode format ≠ .ok x := by
  intro h
  obtain ⟨count, hclaim⟩ := length_of_encode h hp hleaf
  have hregister := RegisterPayload.length_of_encode hx hq
  rw [hchain] at hclaim
  -- 180 is 20 above a number of words, a claim is 8 above one
  omega

end ClaimPayload

/-! ## Digests -/

/-- The byte strings that are hashed on the way from a payload to its digest. -/
def hashedInputs (format : PayloadFormat) (payload : Bytes) : List Bytes :=
  match format with
  | .personalMessage => [payload, personalMessage (keccak256 payload).bytes]
  | .standard | .legacy => [payload]

theorem mem_hashedInputs (format : PayloadFormat) (payload : Bytes) :
    payload ∈ hashedInputs format payload := by
  cases format <;> exact List.mem_cons_self

/-- Messages of the length of a hash are told from each other behind the lead and that length. -/
theorem personalMessage_octets_inj {a b : Octets 32}
    (h : personalMessage a.bytes = personalMessage b.bytes) : a = b := by
  unfold personalMessage at h
  rw [a.length_bytes, b.length_bytes] at h
  exact Octets.ext (List.append_cancel_left h)

/-- Different payloads have one digest only by a collision. -/
theorem collide_of_digest_eq {format : PayloadFormat} {x y : Bytes} (hne : x ≠ y)
    (h : format.digest x = format.digest y) :
    Collide (hashedInputs format x ++ hashedInputs format y) := by
  have hx : x ∈ hashedInputs format x ++ hashedInputs format y :=
    List.mem_append_left _ (mem_hashedInputs format x)
  have hy : y ∈ hashedInputs format x ++ hashedInputs format y :=
    List.mem_append_right _ (mem_hashedInputs format y)
  -- a personal message is hashed twice, and either hash may be where the two meet
  by_cases hhash : keccak256 x = keccak256 y
  · exact ⟨x, hx, y, hy, hne, hhash⟩
  · cases format with
    | standard => exact absurd h hhash
    | legacy => exact absurd h hhash
    | personalMessage =>
      refine ⟨personalMessage (keccak256 x).bytes, by simp [hashedInputs],
        personalMessage (keccak256 y).bytes, by simp [hashedInputs], ?_, h⟩
      intro hmessage
      exact hhash (personalMessage_octets_inj hmessage)

namespace ApprovalService

variable {service : ApprovalService} {bytes : Bytes}

/-! ## What reaches the signer -/

/-- The payload of a claim is one of the chain, with a signature of 64 bytes and a leaf of the
encoder. -/
theorem encode_of_claimPayload? {request : ClaimRequest}
    (h : service.claimPayload? request = some bytes) :
    ∃ payload : ClaimPayload, payload.chainId = service.settings.network.chainId
      ∧ payload.ownerSignature.length = 64 ∧ service.settings.encoder.Writes payload.leaf
      ∧ payload.encode service.settings.payloadFormat = .ok bytes := by
  obtain ⟨written, hwritten, hbytes⟩ := Option.bind_eq_some_iff.mp h
  simp only [claimBytes?, Option.bind_eq_bind, Option.bind_eq_some_iff, Option.pure_def,
    Option.some.injEq] at hwritten
  obtain ⟨who, -, account, -, ⟨position, coin⟩, -, proof, -, root, -, rfl⟩ := hwritten
  obtain ⟨leaf, hleaf, hencoded⟩ := Outcome.bind_eq_ok_iff.mp (Outcome.eq_ok_of_toOption hbytes)
  exact ⟨_, rfl, who.valid.signature.length_bytes, ⟨account, position, leaf, hleaf, rfl⟩, hencoded⟩

/-- The payload of a registration is one of the chain, with a signature of 64 bytes. -/
theorem encode_of_registerPayload? {request : RegisterRequest}
    (h : service.registerPayload? request = some bytes) :
    ∃ payload : RegisterPayload, payload.chainId = service.settings.network.chainId
      ∧ payload.ownerSignature.length = 64 ∧ payload.encode = .ok bytes := by
  obtain ⟨written, hwritten, hbytes⟩ := Option.bind_eq_some_iff.mp h
  simp only [registerBytes?, Option.bind_eq_bind, Option.bind_eq_some_iff, Option.pure_def,
    Option.some.injEq] at hwritten
  obtain ⟨who, -, asset, -, root, -, rfl⟩ := hwritten
  exact ⟨_, rfl, who.valid.signature.length_bytes, Outcome.eq_ok_of_toOption hbytes⟩

/-- **Claims and registrations stay apart.** On one chain, no claim of a leaf has the payload of a
registration, and two registrations have one payload exactly if they bind the same. What reaches the
signer of a deployment is the digest of a payload, for claims and for registrations never of the
same one, so that two of the hashed byte strings collide if the digests are equal. -/
theorem approvals_separated :
    (∀ (claimed : ClaimPayload) (registered : RegisterPayload) (format : PayloadFormat)
        (encoder : LeafEncoder) (bytes : Bytes), claimed.chainId = registered.chainId →
        claimed.ownerSignature.length = 64 → registered.ownerSignature.length = 64 →
        encoder.Writes claimed.leaf → registered.encode = .ok bytes →
        claimed.encode format ≠ .ok bytes)
      ∧ (∀ (p q : RegisterPayload) (x y : Bytes), p.chainId = q.chainId →
        p.ownerSignature.length = 64 → q.ownerSignature.length = 64 →
        p.encode = .ok x → q.encode = .ok y →
        (x = y ↔ p.destination = q.destination ∧ p.ownerSignature = q.ownerSignature
          ∧ SameDenom p.denom q.denom ∧ p.amount = q.amount ∧ p.stateRoot = q.stateRoot))
      ∧ ∀ (a b : ApprovalService) (claim : ClaimRequest) (register : RegisterRequest)
        (c r : Octets 32), a.settings = b.settings →
        .sign c ∈ (a.claim claim).events → .sign r ∈ (b.register register).events →
        ∃ x y, a.claimPayload? claim = some x ∧ b.registerPayload? register = some y
          ∧ c = a.settings.payloadFormat.digest x ∧ r = b.settings.payloadFormat.digest y ∧ x ≠ y
          ∧ (c = r → Collide (hashedInputs a.settings.payloadFormat x
            ++ hashedInputs b.settings.payloadFormat y)) := by
  refine ⟨?_, ?_, ?_⟩
  · intro claimed registered format encoder bytes hchain hclaimed hregistered hleaf hbytes
    exact ClaimPayload.encode_ne_register hchain hclaimed hregistered hleaf hbytes
  · intro p q x y hchain hp hq hx hy
    exact RegisterPayload.encode_inj hchain hp hq hx hy
  · intro a b claim register c r hsettings hclaim hregister
    obtain ⟨x, hx, rfl⟩ := payload_of_claim_signed hclaim
    obtain ⟨y, hy, rfl⟩ := payload_of_register_signed hregister
    obtain ⟨p, hpchain, hp, hleaf, hpx⟩ := encode_of_claimPayload? hx
    obtain ⟨q, hqchain, hq, hqy⟩ := encode_of_registerPayload? hy
    have hchain : p.chainId = q.chainId := by rw [hpchain, hqchain, hsettings]
    have hne : x ≠ y := by
      rintro rfl
      exact ClaimPayload.encode_ne_register hchain hp hq hleaf hqy hpx
    refine ⟨x, y, hx, hy, rfl, rfl, hne, ?_⟩
    intro heq
    rw [← hsettings] at heq ⊢
    exact collide_of_digest_eq hne heq

end ApprovalService

/-! ## A claim and a registration of one deployment -/

namespace Sample

def asset : Asset where
  owner := ⟨Octets.ofNat 20 0x751e76e8199196d454941c45d1b3a323f1433bd6⟩
  denom := "BNB"
  amount := 5

def registry : ApprovalService :=
  ⟨settings, (⟨⟨snapshot.stateRoot, [], [asset], []⟩, rfl⟩ : MemoryStore).ledger, service.signer⟩

def registerRequest : RegisterRequest where
  tokenSymbol := "BNB"
  ownerPubKey := "0x0279be667ef9dcbbac55a06295ce870b07029bfcdb2dce28d959f2815b16f81798"
  ownerSignature := "0xdc5184e1c1274662e69f9031e5017d934f6aab92e389089d7cdb801abfd6283e" ++
    "0b554e5d6a3dc8ed6a15eb310b842629c4245f0241ff729c1d0e520cd84304c5"
  registerAddress := "0x1111111111111111111111111111111111111111"

def registerEvidence : RegisterEvidence where
  valid :=
    { tokenSymbol := "BNB"
      tokenIndex := none
      publicKey :=
        Octets.ofNat 33 0x0279be667ef9dcbbac55a06295ce870b07029bfcdb2dce28d959f2815b16f81798
      signature :=
        ⟨Bytes.ofNat 32 0xdc5184e1c1274662e69f9031e5017d934f6aab92e389089d7cdb801abfd6283e
          ++ Bytes.ofNat 32 0x0b554e5d6a3dc8ed6a15eb310b842629c4245f0241ff729c1d0e520cd84304c5, rfl⟩
      destination := ⟨Octets.ofNat 20 0x1111111111111111111111111111111111111111⟩ }
  address := asset.owner
  key := ⟨55066263022277343669578718895168534326250603453777594175500187360389116729240,
    32670510020758816978083085130507043184471273380659243275938904335757337482424⟩
  asset := asset
  root := snapshot.stateRoot
  signature := Octets.zero 65

theorem registerEvidence_supports : registerEvidence.Supports registry registerRequest where
  validates := Outcome.eq_ok_of_toOption (by decide +kernel)
  identifies := Outcome.eq_ok_of_toOption (by decide +kernel)
  served := rfl
  asset_found := rfl
  owned_by := rfl
  positive := by decide
  denom_fits := by decide
  owned := Outcome.eq_ok_of_toOption (by decide +kernel)
  root_found := rfl
  signs := rfl

def registration (denom : String) : RegisterPayload :=
  ⟨"Binance-Chain-Tigris", denom, 5, ⟨Octets.ofNat 20 0x1111111111111111111111111111111111111111⟩,
    List.replicate 64 0x55, snapshot.stateRoot⟩

theorem exists_registration (denom : String) (h : (Text.bytes denom).length ≤ 32) :
    ∃ bytes, (registration denom).encode = .ok bytes :=
  ⟨_, RegisterPayload.encode_eq_ok_iff.mpr ⟨h, show (0 : Int64) ≤ 5 by decide, rfl⟩⟩

end Sample

namespace ApprovalService

theorem approvals_separated_sample :
    (∃ x y, (Sample.registration "BNB").encode = .ok x
        ∧ (Sample.registration "BNB\x00").encode = .ok y ∧ x = y
        ∧ (ClaimPayload.balanceClaim 0 ClaimPayload.bnb).encode .standard ≠ .ok x)
      ∧ ∃ x y, Sample.service.claimPayload? Sample.claimRequest = some x
        ∧ Sample.registry.registerPayload? Sample.registerRequest = some y ∧ x ≠ y := by
  obtain ⟨hclaims, hregisters, hsigned⟩ := approvals_separated
  constructor
  · obtain ⟨x, hx⟩ := Sample.exists_registration "BNB" (by decide)
    obtain ⟨y, hy⟩ := Sample.exists_registration "BNB\x00" (by decide)
    have hclaimed : (ClaimPayload.balanceClaim 0 ClaimPayload.bnb).Claims ⟨.perDenom, .indexed⟩
        (ClaimPayload.sampleAccount [ClaimPayload.bnb]) (0 : UInt64).toNat ClaimPayload.bnb :=
      ClaimPayload.balanceClaim_claims rfl (by decide)
    refine ⟨x, y, hx, hy, ?_, ?_⟩
    · exact (hregisters _ _ x y rfl List.length_replicate List.length_replicate hx hy).mpr
        ⟨rfl, rfl, by decide, rfl, rfl⟩
    · exact hclaims _ _ _ ⟨.perDenom, .indexed⟩ x rfl List.length_replicate List.length_replicate
        ⟨_, _, hclaimed.leaf_written⟩ hx
  · obtain ⟨x, y, hx, hy, -, -, hne, -⟩ := hsigned Sample.service Sample.registry
      Sample.claimRequest Sample.registerRequest _ _ rfl
      ((sign_mem_claim_iff Sample.evidence_supports).mpr rfl)
      (sign_mem_register Sample.registerEvidence_supports)
    exact ⟨x, y, hx, hy, hne⟩

end ApprovalService

end TokenApproval
