import TokenApproval.Approval.Request
import TokenApproval.Ledger.Stores
import TokenApproval.Proofs.Approval.Runs
import TokenApproval.Proofs.Hex
import TokenApproval.Proofs.Identity
import TokenApproval.Proofs.Ledger.Leaf
import TokenApproval.Proofs.Ledger.Selection
import TokenApproval.Proofs.Outcome

/-!
# When requests are approved

An approval rests on evidence: what the lookups gave, and what was found to hold of it. A request is
approved exactly if there is evidence for it, and the answer is read off the evidence.
-/

/-! ## Which requests are valid

A request is valid exactly if it names a token, its texts are hexadecimal of the right lengths, and
its destination is not zero; what is decoded is then what the texts spell. -/

namespace TokenApproval

open Secp256k1 (PublicKey Signature)

theorem decodeField_eq_ok_iff {field value : String} {n : Nat} {octets : Octets n} :
    decodeField field n value = .ok octets ↔ Hex.decode value = .ok octets.bytes := by
  unfold decodeField
  constructor
  · intro h
    split at h
    · cases h
    · next bytes hbytes =>
      split at h
      · cases h
      · next found hfound =>
        obtain rfl := Except.ok.inj h
        rw [hbytes, Octets.ofBytes?_eq_some.mp hfound]
  · intro h
    simp only [h, Octets.ofBytes?_eq_some.mpr rfl]

theorem EvmAddress.ofHex_eq_ok_iff {value : String} {address : EvmAddress} :
    EvmAddress.ofHex value = .ok address ↔ Hex.decode value = .ok address.octets.bytes := by
  unfold EvmAddress.ofHex
  rw [← Octets.ofHex_eq_ok_iff, Outcome.map_eq_ok_iff]
  constructor
  · rintro ⟨octets, h, rfl⟩
    exact h
  · intro h
    exact ⟨address.octets, h, rfl⟩

theorem decodeDestination_eq_ok_iff {value : String} {address : EvmAddress} :
    decodeDestination value = .ok address ↔
      Hex.decode value = .ok address.octets.bytes ∧ address.isZero = false := by
  rw [← EvmAddress.ofHex_eq_ok_iff]
  unfold decodeDestination
  constructor
  · intro h
    split at h
    · cases h
    · next found hfound =>
      split at h
      · cases h
      · next hzero =>
        obtain rfl := Except.ok.inj h
        exact ⟨hfound, Bool.eq_false_iff.mpr hzero⟩
  · rintro ⟨h, hzero⟩
    simp [h, hzero]

/-- What the decoded fields of a request have to do with their texts. -/
theorem validateFields_eq_ok_iff {symbol key signature destination : String}
    {index : Option UInt32} {valid : ValidRequest} :
    validateFields symbol index key signature destination = .ok valid ↔
      symbol ≠ "" ∧ Hex.decode key = .ok valid.publicKey.bytes
        ∧ Hex.decode signature = .ok valid.signature.bytes
        ∧ Hex.decode destination = .ok valid.destination.octets.bytes
        ∧ valid.destination.isZero = false
        ∧ valid.tokenSymbol = symbol ∧ valid.tokenIndex = index := by
  unfold validateFields
  by_cases hsymbol : symbol = ""
  · simp [hsymbol]
  · rw [if_neg hsymbol]
    constructor
    · intro h
      obtain ⟨decodedKey, hkey, h⟩ := Outcome.bind_eq_ok_iff.mp h
      obtain ⟨decodedSignature, hsignature, h⟩ := Outcome.bind_eq_ok_iff.mp h
      obtain ⟨decodedDestination, hdestination, h⟩ := Outcome.bind_eq_ok_iff.mp h
      obtain rfl := Except.ok.inj h
      obtain ⟨hhex, hzero⟩ := decodeDestination_eq_ok_iff.mp hdestination
      exact ⟨hsymbol, decodeField_eq_ok_iff.mp hkey, decodeField_eq_ok_iff.mp hsignature, hhex,
        hzero, rfl, rfl⟩
    · rintro ⟨-, hkey, hsignature, hhex, hzero, rfl, rfl⟩
      rw [decodeField_eq_ok_iff.mpr hkey, decodeField_eq_ok_iff.mpr hsignature,
        decodeDestination_eq_ok_iff.mpr ⟨hhex, hzero⟩]
      rfl

/-! ## When a claim is approved

`ClaimEvidence` names everything that an approval rests on: the decoded request, the recovered
identity, the records of the ledger, the selected balance entry, the leaf and the signature.
`ClaimEvidence.Supports` says how these hang together, and `returns_claim_iff` that a run approves a
claim exactly if there is such evidence, with what it answers and notes. -/

open Secp256k1 (PublicKey)

/-- What the approval of a claim rests on. -/
structure ClaimEvidence where
  valid : ValidRequest
  address : AccountId
  key : PublicKey
  account : Account
  /-- The position of the claimed balance entry. -/
  position : Nat
  /-- The position under which the proof is looked up. -/
  index : UInt32
  coin : Coin
  proof : Proof
  root : StateRoot
  leaf : Leaf
  payload : Bytes
  signature : Octets approvalSignatureLength

namespace ClaimEvidence

/-- The evidence fits together, and every check of the service passes on it. -/
structure Supports (e : ClaimEvidence) (service : ApprovalService) (request : ClaimRequest) :
    Prop where
  validates : request.validate = .ok e.valid
  identifies : service.settings.scheme.identify e.valid.publicKey.bytes = .ok (e.address, e.key)
  served : service.settings.whitelist.allows e.address = true
  account_found : service.ledger.account e.address = .ok e.account
  first_entry : e.account.FirstEntry request.tokenSymbol e.position e.coin
  index_eq : e.index = UInt32.ofNat e.position
  proof_found : service.ledger.proof e.address request.tokenSymbol e.index = .ok e.proof
  root_found : service.ledger.stateRoot = .ok e.root
  requested : ∀ i, request.tokenIndex = some i → i.toNat = e.position
  positive : 0 < e.coin.amount
  owned : checkSignature e.key e.valid.signature.bytes
      (service.settings.scheme.messageHash
        (SignDoc.mk .claim e.coin.amount service.settings.network.chainId e.valid.destination
          request.tokenSymbol).bytes) = .ok ()
  encodes : service.settings.encoder.encodeAt e.account e.position = .ok e.leaf
  payload_encodes : (ClaimPayload.mk service.settings.network.chainId request.tokenSymbol
      e.valid.destination e.valid.signature.bytes e.leaf.bytes e.root e.proof.siblings).encode
        service.settings.payloadFormat = .ok e.payload
  signs : service.signer.sign (service.settings.payloadFormat.digest e.payload) = .ok e.signature

def response (e : ClaimEvidence) : ClaimResponse :=
  ⟨e.coin.amount, e.proof.siblings, e.signature.bytes, e.leaf.split.map Prod.fst,
    e.leaf.split.map Prod.snd⟩

/-- What a run notes on the way to its answer, the latest first. -/
def notes (e : ClaimEvidence) (service : ApprovalService) (denom : String) : List Event :=
  .sign (service.settings.payloadFormat.digest e.payload)
    :: service.warnings e.address denom e.leaf e.proof e.root
    ++ [.stateRoot, .proof e.address e.index denom, .account e.address]

end ClaimEvidence

namespace ApprovalService

variable {service : ApprovalService} {request : ClaimRequest} {response : ClaimResponse}
  {log log' : List Event}

/-- A valid claim names the token and the position of its request. -/
theorem fields_of_validate {valid : ValidRequest} (h : request.validate = .ok valid) :
    valid.tokenSymbol = request.tokenSymbol ∧ valid.tokenIndex = request.tokenIndex :=
  (validateFields_eq_ok_iff.mp h).2.2.2.2.2

/-- A run approves a claim exactly upon evidence that supports it. -/
theorem returns_claim_iff :
    (service.claim request).Returns log response log' ↔
      ∃ e : ClaimEvidence, e.Supports service request ∧ response = e.response
        ∧ log' = e.notes service request.tokenSymbol ++ log := by
  simp only [claim, prepareClaim, writeClaim, approve, ClaimPayload.digest, bind_assoc, pure_bind,
    Run.returns_bind_iff, Run.returns_lift_iff, Run.returns_pure_iff, returns_identify_iff,
    returns_checkWhitelist_iff, returns_lookupAccount_iff, returns_lookupProof_iff,
    returns_lookupStateRoot_iff, returns_coinAt_iff, returns_checkOwnership_iff,
    returns_warnOfStrayProof_iff, returns_sign_iff, Outcome.elim_eq_ok_iff, LeafEncoder.select_eq_ok_iff, Outcome.map_eq_ok_iff,
    Prod.exists, exists_eq_left, exists_and_left, and_assoc]
  constructor
  · rintro ⟨valid, hvalid, address, key, hidentity, hserved, -, account, haccount, position,
      hposition, proof, hproof, root, hroot, index, ⟨selected, hselected, hpositive, hrequested⟩,
      coin, hcoin, howned, -, leaf, hleaf, -, digest, ⟨payload, hpayload, rfl⟩, signature, hsigned,
      rfl, rfl⟩
    obtain ⟨hdenom, hindex⟩ := fields_of_validate hvalid
    rw [hdenom] at hposition hproof hselected hpayload
    rw [hindex] at hrequested
    rw [signDoc, hdenom] at howned
    -- the position of the look-up and the selected index are both that of the first entry
    have hfirst := Account.position?_eq_some_iff.mpr ⟨selected, hselected⟩
    obtain rfl := Option.some.inj (hposition.symm.trans hfirst)
    obtain rfl := Option.some.inj (hcoin.symm.trans hselected.entry)
    exact ⟨⟨valid, address, key, account, position, UInt32.ofNat position, coin, proof, root, leaf,
        payload, signature⟩,
      ⟨hvalid, hidentity, hserved, haccount, hselected, rfl, hproof, hroot, hrequested, hpositive,
        howned, hleaf, hpayload, hsigned⟩,
      rfl, by simp [ClaimEvidence.notes, hdenom]⟩
  · rintro ⟨e, h, rfl, rfl⟩
    obtain ⟨hdenom, hindex⟩ := fields_of_validate h.validates
    refine ⟨e.valid, h.validates, e.address, e.key, h.identifies, h.served, (), e.account,
      h.account_found, e.position, ?_, e.proof, ?_, e.root, h.root_found, e.position, ?_, e.coin,
      h.first_entry.entry, ?_, (), e.leaf, h.encodes, (), _, ⟨e.payload, ?_, rfl⟩, e.signature,
      h.signs, rfl, ?_⟩
    · rw [hdenom]
      exact Account.position?_eq_some_iff.mpr ⟨e.coin, h.first_entry⟩
    · rw [hdenom, ← h.index_eq]
      exact h.proof_found
    · rw [hdenom, hindex]
      exact ⟨e.coin, h.first_entry, h.positive, h.requested⟩
    · rw [signDoc, hdenom]
      exact h.owned
    · rw [hdenom]
      exact h.payload_encodes
    · rw [hdenom, ← h.index_eq]
      simp [ClaimEvidence.notes]

/-- Supporting evidence gives the response. -/
theorem claim_of_supports {e : ClaimEvidence} (h : e.Supports service request) :
    (service.claim request).result = .ok e.response :=
  Run.result_eq_ok_iff.mpr ⟨_, returns_claim_iff.mpr ⟨e, h, rfl, rfl⟩⟩

/-- One digest reaches the signer for an approved claim. -/
theorem sign_mem_claim_iff {e : ClaimEvidence} (h : e.Supports service request)
    {digest : Octets 32} :
    .sign digest ∈ (service.claim request).events ↔
      digest = service.settings.payloadFormat.digest e.payload := by
  rw [Run.events_of_returns (returns_claim_iff.mpr ⟨e, h, rfl, rfl⟩)]
  simp only [ClaimEvidence.notes, warnings]
  split
  · simp
  · simp

end ApprovalService

/-! ### An approved claim

A ledger with one account of two balances, the second of which has a proof, and a claim of that
balance that the account's owner signed. -/

namespace Sample

def owner : AccountId := ⟨Octets.ofNat 20 0x670ece6a4602dc4a6311b634e9293f94374b3c00⟩

def ownerKey : PublicKey where
  x := 0x5eed5fa3a67696c334762bb4823e585e2ee579aba3558d9955296d6c04541b42
  y := 0x6078dbd48d74af1fd0c72aa1a05147cf17be6b60bdbed6ba19b08ec28445b0ca

def account : Account := ⟨owner, 1, [⟨"XRP-BF2", 500000⟩, ⟨"BNB", 1000000000⟩]⟩

/-- The leaf of the account's second balance. -/
def leaf : Leaf where
  bytes := owner.octets.bytes ++ (Text.bytes "BNB" ++ Bytes.zeros 29 ++ Bytes.ofNat 32 1000000000)
  index := 1
  split := none

def proof : Proof := ⟨owner, 1, ⟨"BNB", 1000000000⟩, [Octets.zero 32]⟩

def snapshot : Snapshot where
  stateRoot := ⟨MerkleTree.computeRoot leaf.hash proof.siblings⟩
  accounts := [account]
  assets := []
  proofs := [proof]

def store : MemoryStore := ⟨snapshot, rfl⟩

def settings : ApprovalSettings :=
  .standard ⟨"Binance-Chain-Ganges", ⟨"tbnb".toList⟩, .bech32⟩

def service : ApprovalService := ⟨settings, store.ledger, ⟨ownerKey, fun _ => .ok (Octets.zero 65)⟩⟩

def claimRequest : ClaimRequest where
  tokenSymbol := "BNB"
  tokenIndex := some 1
  ownerPubKey := "0x025eed5fa3a67696c334762bb4823e585e2ee579aba3558d9955296d6c04541b42"
  ownerSignature := "0xa8b16dd6e5ee27e0f8586137849d9ba37cb33f424100374cdd7f2998f31e3ddb" ++
    "6b474e632852e546580dcf5f78dc1bd11d056e80af91cf6d6d8d38f11eef5cbf"
  claimAddress := "0x5B38Da6a701c568545dCfcB03FcB875f56beddC4"

def validClaim : ValidRequest where
  tokenSymbol := "BNB"
  tokenIndex := some 1
  publicKey := Octets.ofNat 33 0x025eed5fa3a67696c334762bb4823e585e2ee579aba3558d9955296d6c04541b42
  signature :=
    ⟨Bytes.ofNat 32 0xa8b16dd6e5ee27e0f8586137849d9ba37cb33f424100374cdd7f2998f31e3ddb
      ++ Bytes.ofNat 32 0x6b474e632852e546580dcf5f78dc1bd11d056e80af91cf6d6d8d38f11eef5cbf, rfl⟩
  destination := ⟨Octets.ofNat 20 0x5B38Da6a701c568545dCfcB03FcB875f56beddC4⟩

def evidence : ClaimEvidence where
  valid := validClaim
  address := owner
  key := ownerKey
  account := account
  position := 1
  index := 1
  coin := ⟨"BNB", 1000000000⟩
  proof := proof
  root := snapshot.stateRoot
  leaf := leaf
  payload := Text.bytes "Binance-Chain-Ganges" ++ validClaim.destination.octets.bytes
    ++ validClaim.signature.bytes ++ leaf.bytes ++ snapshot.stateRoot.octets.bytes
    ++ proof.siblings.flatMap Octets.bytes
  signature := Octets.zero 65

theorem evidence_supports : evidence.Supports service claimRequest where
  validates := Outcome.eq_ok_of_toOption (by decide +kernel)
  identifies := Outcome.eq_ok_of_toOption (by decide +kernel)
  served := rfl
  account_found := rfl
  first_entry := by
    refine ⟨rfl, rfl, ?_⟩
    intro i hi other hother
    obtain rfl : i = 0 := Nat.lt_one_iff.mp hi
    obtain rfl := Option.some.inj hother
    decide
  index_eq := rfl
  proof_found := rfl
  root_found := rfl
  requested := by
    rintro i hi
    obtain rfl := Option.some.inj hi
    rfl
  positive := by decide
  owned := Outcome.eq_ok_of_toOption (by decide +kernel)
  encodes := rfl
  payload_encodes := rfl
  signs := rfl

end Sample

/-! ### The approval of claims -/

namespace ApprovalService

variable {service : ApprovalService} {request : ClaimRequest} {response : ClaimResponse}

/-- The account that a claim is looked up for has fewer balances than a position of 32 bits
counts. -/
def FewBalances (service : ApprovalService) (request : ClaimRequest) : Prop :=
  ∀ valid address key account, request.validate = .ok valid →
    service.settings.scheme.identify valid.publicKey.bytes = .ok (address, key) →
    service.ledger.account address = .ok account → account.balances.length < UInt32.size

/-- **Approval of claims.** A claim is approved exactly upon supporting evidence, in which the
position of the proof is that of the claimed balance entry, and with the answer that it gives. -/
theorem claim_approved_iff (hfew : service.FewBalances request) :
    (service.claim request).result = .ok response ↔
      ∃ e : ClaimEvidence, e.Supports service request ∧ e.index.toNat = e.position
        ∧ response = e.response := by
  rw [Run.result_eq_ok_iff]
  constructor
  · rintro ⟨log, h⟩
    obtain ⟨e, he, hresponse, -⟩ := returns_claim_iff.mp h
    have hlength := hfew _ _ _ _ he.validates he.identifies he.account_found
    have hposition := Nat.lt_trans he.first_entry.position_lt_length hlength
    refine ⟨e, he, ?_, hresponse⟩
    rw [he.index_eq, UInt32.toNat_ofNat_of_lt' hposition]
  · rintro ⟨e, he, -, hresponse⟩
    exact ⟨_, returns_claim_iff.mpr ⟨e, he, hresponse, rfl⟩⟩

theorem claim_approved_sample :
    Sample.service.FewBalances Sample.claimRequest
      ∧ (Sample.service.claim Sample.claimRequest).result = .ok Sample.evidence.response := by
  have hfew : Sample.service.FewBalances Sample.claimRequest := by
    intro valid address key account _ _ hfound
    have hstored : Sample.store.account? address = some account :=
      Outcome.elim_eq_ok_iff.mp hfound
    obtain rfl := List.mem_singleton.mp (List.mem_of_find?_eq_some hstored)
    decide
  exact ⟨hfew, (claim_approved_iff hfew).mpr
    ⟨Sample.evidence, Sample.evidence_supports, rfl, rfl⟩⟩

end ApprovalService

/-! ## When a registration is approved

As for claims, `RegisterEvidence` names what an approval rests on and `RegisterEvidence.Supports`
how it hangs together. The amount of an asset is refused in two places: a zero amount before the
owner's signature is looked at, a negative one behind it, where the payload is written. Both are the
one condition `positive` here. -/

/-- What the approval of a registration rests on. -/
structure RegisterEvidence where
  valid : ValidRequest
  address : AccountId
  key : PublicKey
  asset : Asset
  root : StateRoot
  signature : Octets approvalSignatureLength

namespace RegisterEvidence

def payload (e : RegisterEvidence) (service : ApprovalService) (denom : String) : Bytes :=
  Text.bytes service.settings.network.chainId ++ e.valid.destination.octets.bytes
    ++ e.valid.signature.bytes ++ Leaf.paddedDenom denom
    ++ Bytes.ofNat 32 e.asset.amount.toInt.toNat ++ e.root.octets.bytes

def digest (e : RegisterEvidence) (service : ApprovalService) (denom : String) : Octets 32 :=
  let hash := keccak256 (e.payload service denom)
  if service.settings.payloadFormat = .personalMessage then personalMessageHash hash.bytes else hash

/-- The evidence fits together, and every check of the service passes on it. -/
structure Supports (e : RegisterEvidence) (service : ApprovalService) (request : RegisterRequest) :
    Prop where
  validates : request.validate = .ok e.valid
  identifies : service.settings.scheme.identify e.valid.publicKey.bytes = .ok (e.address, e.key)
  served : service.settings.whitelist.allows e.address = true
  asset_found : service.ledger.asset request.tokenSymbol = .ok e.asset
  owned_by : e.asset.owner = e.address
  positive : 0 < e.asset.amount
  denom_fits : (Text.bytes request.tokenSymbol).length ≤ 32
  owned : checkSignature e.key e.valid.signature.bytes
      (service.settings.scheme.messageHash
        (SignDoc.mk .registerToken e.asset.amount service.settings.network.chainId
          e.valid.destination request.tokenSymbol).bytes) = .ok ()
  root_found : service.ledger.stateRoot = .ok e.root
  signs : service.signer.sign (e.digest service request.tokenSymbol) = .ok e.signature

def response (e : RegisterEvidence) : RegisterResponse := ⟨e.asset.amount, e.signature.bytes⟩

/-- What a run notes on the way to its answer, the latest first. -/
def notes (e : RegisterEvidence) (service : ApprovalService) (denom : String) : List Event :=
  [.sign (e.digest service denom), .stateRoot, .asset denom]

end RegisterEvidence

/-! ### Register payloads -/

theorem PayloadFormat.digest_eq (format : PayloadFormat) (payload : Bytes) :
    format.digest payload =
      if format = .personalMessage then personalMessageHash (keccak256 payload).bytes
      else keccak256 payload := by
  cases format <;> rfl

/-- The layout of a register payload, in every format the same. -/
theorem RegisterPayload.encode_eq_ok_iff {payload : RegisterPayload} {bytes : Bytes} :
    payload.encode = .ok bytes ↔
      (Text.bytes payload.denom).length ≤ 32 ∧ 0 ≤ payload.amount
        ∧ bytes = Text.bytes payload.chainId ++ payload.destination.octets.bytes
            ++ payload.ownerSignature ++ Leaf.paddedDenom payload.denom
            ++ Bytes.ofNat 32 payload.amount.toInt.toNat ++ payload.stateRoot.octets.bytes := by
  unfold encode
  rw [Outcome.bind_eq_ok_iff]
  constructor
  · rintro ⟨denom, hdenom, h⟩
    obtain ⟨amount, hamount, h⟩ := Outcome.bind_eq_ok_iff.mp h
    obtain ⟨hfits, hbytes⟩ := Leaf.denomWord_eq_ok_iff.mp hdenom
    obtain ⟨hnonnegative, rfl⟩ := Leaf.amountWord_eq_ok_iff.mp hamount
    obtain rfl := Except.ok.inj h
    exact ⟨hfits, hnonnegative, by rw [hbytes]; rfl⟩
  · rintro ⟨hfits, hnonnegative, rfl⟩
    obtain ⟨word, hword⟩ : ∃ word, Leaf.denomWord payload.denom = .ok word :=
      ⟨⟨Leaf.paddedDenom payload.denom, Leaf.length_paddedDenom hfits⟩,
        Leaf.denomWord_eq_ok_iff.mpr ⟨hfits, rfl⟩⟩
    refine ⟨word, hword, Outcome.bind_eq_ok_iff.mpr
      ⟨_, Leaf.amountWord_eq_ok_iff.mpr ⟨hnonnegative, rfl⟩, ?_⟩⟩
    rw [← (Leaf.denomWord_eq_ok_iff.mp hword).2]
    rfl

namespace ApprovalService

variable {service : ApprovalService} {request : RegisterRequest} {response : RegisterResponse}
  {log log' : List Event}

theorem symbol_of_validate {valid : ValidRequest} (h : request.validate = .ok valid) :
    valid.tokenSymbol = request.tokenSymbol :=
  (validateFields_eq_ok_iff.mp h).2.2.2.2.2.1

/-- A run approves a registration exactly upon evidence that supports it. -/
theorem returns_register_iff :
    (service.register request).Returns log response log' ↔
      ∃ e : RegisterEvidence, e.Supports service request ∧ response = e.response
        ∧ log' = e.notes service request.tokenSymbol ++ log := by
  simp only [register, prepareRegister, approve, RegisterPayload.digest, bind_assoc, pure_bind,
    Run.unless_bind, Run.returns_bind_iff, Run.returns_lift_iff, Run.returns_pure_iff,
    Run.returns_unless_iff, returns_identify_iff, returns_checkWhitelist_iff,
    returns_lookupAsset_iff, returns_lookupStateRoot_iff, returns_checkOwnership_iff,
    returns_sign_iff, Outcome.map_eq_ok_iff, RegisterPayload.encode_eq_ok_iff,
    Leaf.denomWord_eq_ok_iff, Prod.exists, exists_eq_left, exists_and_left, and_assoc]
  constructor
  · rintro ⟨valid, hvalid, address, key, hidentity, hserved, -, asset, hasset, howner, hnonzero,
      hfits, -, -, howned, -, root, hroot, -, hnonnegative, digest, rfl, signature, hsigned, rfl,
      rfl⟩
    have hdenom := symbol_of_validate hvalid
    rw [signDoc, hdenom] at howned
    rw [hdenom] at hasset hfits hsigned
    refine ⟨⟨valid, address, key, asset, root, signature⟩,
      ⟨hvalid, hidentity, hserved, hasset, Decidable.not_not.mp howner,
        LeafEncoder.amount_pos_iff.mpr ⟨Int64.not_lt.mpr hnonnegative, hnonzero⟩, hfits, howned,
        hroot, ?_⟩,
      rfl, ?_⟩
    · rw [PayloadFormat.digest_eq] at hsigned
      exact hsigned
    · rw [hdenom, PayloadFormat.digest_eq]
      rfl
  · rintro ⟨e, h, rfl, rfl⟩
    have hdenom := symbol_of_validate h.validates
    obtain ⟨hnonnegative, hnonzero⟩ := LeafEncoder.amount_pos_iff.mp h.positive
    refine ⟨e.valid, h.validates, e.address, e.key, h.identifies, h.served, (), e.asset, ?_,
      not_not_intro h.owned_by, hnonzero, ?_, ⟨Leaf.paddedDenom request.tokenSymbol, ?_⟩, ?_, ?_,
      (), e.root, h.root_found, ?_, Int64.not_lt.mp hnonnegative, _, rfl, e.signature, ?_, rfl, ?_⟩
    · rw [hdenom]
      exact h.asset_found
    · rw [hdenom]
      exact h.denom_fits
    · exact Leaf.length_paddedDenom h.denom_fits
    · rw [hdenom]
    · rw [signDoc, hdenom]
      exact h.owned
    · rw [hdenom]
      exact h.denom_fits
    · rw [hdenom, PayloadFormat.digest_eq]
      exact h.signs
    · rw [hdenom, PayloadFormat.digest_eq]
      rfl

theorem register_of_supports {e : RegisterEvidence} (h : e.Supports service request) :
    (service.register request).result = .ok e.response :=
  Run.result_eq_ok_iff.mpr ⟨_, returns_register_iff.mpr ⟨e, h, rfl, rfl⟩⟩

/-- The digest of an approved registration reaches the signer. -/
theorem sign_mem_register {e : RegisterEvidence} (h : e.Supports service request) :
    .sign (e.digest service request.tokenSymbol) ∈ (service.register request).events := by
  rw [Run.events_of_returns (returns_register_iff.mpr ⟨e, h, rfl, rfl⟩)]
  simp [RegisterEvidence.notes]

/-- **Approval of registrations.** A registration is approved exactly upon supporting evidence, with
the answer that it gives. So whoever obtains an approval holds the key of the recorded owner, and
the recorded amount is positive. -/
theorem register_approved_iff :
    ((service.register request).result = .ok response ↔
      ∃ e : RegisterEvidence, e.Supports service request ∧ response = e.response)
    ∧ ∀ valid key asset, request.validate = .ok valid →
        PublicKey.ofBytes? valid.publicKey.bytes = some key →
        service.ledger.asset request.tokenSymbol = .ok asset →
        asset.owner ≠ service.settings.scheme.accountOf key ∨ asset.amount ≤ 0 →
        (service.register request).result ≠ .ok response := by
  have hexact : (service.register request).result = .ok response ↔
      ∃ e : RegisterEvidence, e.Supports service request ∧ response = e.response := by
    rw [Run.result_eq_ok_iff]
    constructor
    · rintro ⟨log, h⟩
      obtain ⟨e, he, hresponse, -⟩ := returns_register_iff.mp h
      exact ⟨e, he, hresponse⟩
    · rintro ⟨e, he, hresponse⟩
      exact ⟨_, returns_register_iff.mpr ⟨e, he, hresponse, rfl⟩⟩
  refine ⟨hexact, ?_⟩
  intro valid key asset hvalid hkey hasset hbad hresult
  obtain ⟨e, he, -⟩ := hexact.mp hresult
  obtain rfl := Except.ok.inj (hvalid.symm.trans he.validates)
  obtain rfl := Except.ok.inj (hasset.symm.trans he.asset_found)
  obtain ⟨-, hfound, haddress⟩ := Scheme.identify_eq_ok_iff.mp he.identifies
  obtain rfl := Option.some.inj (hkey.symm.trans hfound)
  rcases hbad with hother | hamount
  · exact hother (he.owned_by.trans haddress)
  · exact Int64.not_le.mpr he.positive hamount

end ApprovalService

end TokenApproval
