import TokenApproval.Proofs.Approval.Payload
import TokenApproval.Proofs.Ledger.Commitment

/-!
# Claims of different chains

A payload begins with the chain id as it is, so a longer chain id can swallow what stands behind a
shorter one. Behind the chain id of a claim of a balance stand a head of fixed length and then
nothing but words. Two payloads can therefore only be the same if one of them has some words more
and the chain id of the other is longer by as many bytes; `RunsOn` says what the two claims then
share (`encode_eq_iff_runsOn`). One of the words that are left is the amount of the claim with the
longer chain id, and the other claim has it as its state root or a sibling (`RunsOn.amount_word`),
which no hash is likely to be. In the legacy format all that stands behind the chain id is of fixed
length, and no two chains share a payload.
-/

namespace TokenApproval

open Leaf
open ClaimPayload (bnb sampleAccount)

/-! ## Words behind a front -/

section Words

variable {front other : Bytes} {words rest : List Bytes} (hwords : ∀ word ∈ words, word.length = 32)
  (hrest : ∀ word ∈ rest, word.length = 32)
include hwords

theorem length_flatten_words : words.flatten.length = 32 * words.length := by
  have hlengths : words.map List.length = List.replicate words.length 32 :=
    List.map_eq_replicate_iff.mpr hwords
  rw [List.length_flatten, hlengths, List.sum_replicate_nat, Nat.mul_comm]

include hrest

/-- Where the words end is only known from their number: a longer front takes the first words. -/
theorem append_flatten_eq_iff {count : Nat} (hcount : words.length = rest.length + count) :
    front ++ words.flatten = other ++ rest.flatten ↔
      other = front ++ (words.take count).flatten ∧ rest = words.drop count := by
  have hsplit : words.flatten = (words.take count).flatten ++ (words.drop count).flatten := by
    rw [← List.flatten_append, List.take_append_drop]
  have hdrop : ∀ word ∈ words.drop count, word.length = 32 :=
    fun word hword => hwords word (List.mem_of_mem_drop hword)
  have hlength : (words.drop count).flatten.length = rest.flatten.length := by
    rw [length_flatten_words hdrop, length_flatten_words hrest, List.length_drop]
    omega
  constructor
  · intro h
    rw [hsplit, ← List.append_assoc] at h
    obtain ⟨hfront, hflatten⟩ := List.append_inj' h hlength
    have hlengths : (words.drop count).map List.length = rest.map List.length := by
      rw [List.map_eq_replicate_iff.mpr hdrop, List.map_eq_replicate_iff.mpr hrest,
        List.length_drop, hcount, Nat.add_sub_cancel]
    exact ⟨hfront.symm, (List.eq_iff_flatten_eq.mpr ⟨hflatten, hlengths⟩).symm⟩
  · rintro ⟨rfl, hsame⟩
    rw [hsplit, List.append_assoc, ← hsame]

end Words

/-! ## Claims of balances -/

/-- A claim payload with the leaf of a single balance. -/
structure EntryClaim (layout : EntryLayout) where
  payload : ClaimPayload
  account : Account
  index : Nat
  coin : Coin
  entry : account.balances[index]? = some coin
  leaf_written : ∃ leaf, LeafEncoder.encodeAt ⟨.perDenom, layout⟩ account index = .ok leaf
    ∧ leaf.bytes = payload.leaf
  signature_length : payload.ownerSignature.length = 64

namespace EntryClaim

variable {layout : EntryLayout} {format : PayloadFormat} {claim p q : EntryClaim layout}
  {count : Nat}

/-- What stands between the chain id and the words. -/
def head (claim : EntryClaim layout) : Bytes :=
  claim.payload.destination.octets.bytes
    ++ (claim.payload.ownerSignature ++ claim.account.address.octets.bytes)

/-- The words of the balance, the state root and the siblings. -/
def words (claim : EntryClaim layout) : List Bytes :=
  (entryValues layout claim.index claim.coin).map LeafValue.bytes
    ++ (claim.payload.stateRoot.octets :: claim.payload.proof).map Octets.bytes

theorem leaf_eq (claim : EntryClaim layout) : claim.coin.Encodable ∧ claim.payload.leaf =
    claim.account.address.octets.bytes ++ entryBytes layout claim.index claim.coin :=
  (LeafEncoder.exists_perDenom_iff claim.entry).mp claim.leaf_written

theorem length_head (claim : EntryClaim layout) : claim.head.length = 104 := by
  simp [head, claim.signature_length, Octets.length_bytes]

theorem length_entryValues (layout : EntryLayout) (index : Nat) (coin : Coin) :
    32 * (entryValues layout index coin).length = entryWidth layout := by
  cases layout <;> rfl

theorem length_words (claim : EntryClaim layout) :
    32 * claim.words.length = entryWidth layout + 32 * (claim.payload.proof.length + 1) := by
  rw [words, List.length_append, List.length_map, List.length_map, List.length_cons, Nat.mul_add,
    length_entryValues]

theorem length_of_mem_words {word : Bytes} (hword : word ∈ claim.words) : word.length = 32 := by
  obtain ⟨hencodable, -⟩ := claim.leaf_eq
  rcases List.mem_append.mp hword with hentry | hevidence
  · obtain ⟨value, hvalue, rfl⟩ := List.mem_map.mp hentry
    exact LeafValue.length_bytes (misfit?_of_encodable hencodable hvalue)
  · obtain ⟨octets, -, rfl⟩ := List.mem_map.mp hevidence
    exact octets.length_bytes

theorem flatten_words (claim : EntryClaim layout) : claim.words.flatten =
    entryBytes layout claim.index claim.coin ++ claim.payload.evidenceBytes := by
  rw [words, List.flatten_append, ← List.flatMap_def, flatMap_entryValues, ← List.flatMap_def]
  rfl

theorem encode_eq (claim : EntryClaim layout) (hformat : format ≠ .legacy) :
    claim.payload.encode format =
      .ok (Text.bytes claim.payload.chainId ++ claim.head ++ claim.words.flatten) := by
  rw [ClaimPayload.encode_proved hformat, claim.leaf_eq.2, flatten_words, head]
  simp only [List.append_assoc]

/-- In the legacy format all claims take the same number of bytes behind the chain id. -/
theorem exists_encode_legacy {bytes : Bytes} (h : claim.payload.encode .legacy = .ok bytes) :
    ∃ behind, bytes = Text.bytes claim.payload.chainId ++ behind
      ∧ behind.length = 136 + entryWidth layout := by
  obtain ⟨denom, hdenom, -⟩ := Outcome.bind_eq_ok_iff.mp h
  obtain ⟨hfits, -⟩ := denomWord_eq_ok_iff.mp hdenom
  obtain ⟨hencodable, hleaf⟩ := claim.leaf_eq
  rw [ClaimPayload.encode_legacy hfits] at h
  refine ⟨_, (Except.ok.inj h).symm, ?_⟩
  simp only [hleaf, List.length_append, length_paddedDenom hfits, Octets.length_bytes,
    claim.signature_length, length_entryBytes hencodable]
  omega

/-! ## Payloads in common -/

/-- The chain id of `q` goes on like the payload of `p` does behind the chain id of `p`, so that the
head of `q` ends with the first `count` words of `p`; the words of `q` are those that are left. -/
structure RunsOn (p q : EntryClaim layout) (count : Nat) : Prop where
  front_eq : Text.bytes q.payload.chainId ++ q.head =
    Text.bytes p.payload.chainId ++ p.head ++ (p.words.take count).flatten
  words_eq : q.words = p.words.drop count

theorem encode_eq_iff_runsOn (hformat : format ≠ .legacy)
    (hcount : p.words.length = q.words.length + count) :
    p.payload.encode format = q.payload.encode format ↔ p.RunsOn q count := by
  rw [p.encode_eq hformat, q.encode_eq hformat, Except.ok.injEq,
    append_flatten_eq_iff (fun _ => length_of_mem_words) (fun _ => length_of_mem_words) hcount]
  exact ⟨fun ⟨hfront, hwords⟩ => ⟨hfront, hwords⟩, fun ⟨hfront, hwords⟩ => ⟨hfront, hwords⟩⟩

theorem RunsOn.length_words (h : p.RunsOn q count) :
    p.words.length = q.words.length + count := by
  have hwords := congrArg List.length h.words_eq
  have hsome := q.length_words
  rw [List.length_drop] at hwords
  omega

theorem RunsOn.encode_eq (h : p.RunsOn q count) (hformat : format ≠ .legacy) :
    p.payload.encode format = q.payload.encode format :=
  (encode_eq_iff_runsOn hformat h.length_words).mpr h

/-- The claim that gives words away has as many siblings more. -/
theorem RunsOn.length_proof (h : p.RunsOn q count) :
    p.payload.proof.length = q.payload.proof.length + count := by
  have hwords := h.length_words
  have hp := p.length_words
  have hq := q.length_words
  omega

/-- The longer chain id is the shorter one and the bytes of as many words. -/
theorem RunsOn.chainId_extends (h : p.RunsOn q count) :
    ∃ rest, Text.bytes q.payload.chainId = Text.bytes p.payload.chainId ++ rest
      ∧ rest.length = 32 * count := by
  have htaken : (p.words.take count).flatten.length = 32 * count := by
    have hwords := h.length_words
    rw [length_flatten_words fun word hword => length_of_mem_words (List.mem_of_mem_take hword),
      List.length_take]
    omega
  have hlength := congrArg List.length h.front_eq
  simp only [List.length_append, length_head, htaken] at hlength
  have hprefix : Text.bytes p.payload.chainId <+: Text.bytes q.payload.chainId := by
    refine List.prefix_of_prefix_length_le ?_ (List.prefix_append _ q.head) (by omega)
    rw [h.front_eq, List.append_assoc]
    exact List.prefix_append _ _
  obtain ⟨rest, hrest⟩ := hprefix
  refine ⟨rest, hrest.symm, ?_⟩
  have hsum := congrArg List.length hrest
  rw [List.length_append] at hsum
  omega

theorem RunsOn.count_pos (h : p.RunsOn q count) (hchain : p.payload.chainId ≠ q.payload.chainId) :
    0 < count := by
  obtain ⟨rest, hrest, hlength⟩ := h.chainId_extends
  rcases Nat.eq_zero_or_pos count with rfl | hpos
  · obtain rfl := List.eq_nil_of_length_eq_zero hlength
    rw [List.append_nil, Text.bytes_inj] at hrest
    exact absurd hrest.symm hchain
  · exact hpos

/-! The words of a balance end with its amount; the state root and the siblings follow. -/

theorem getElem?_words_amount (claim : EntryClaim layout) :
    claim.words[(entryValues layout claim.index claim.coin).length - 1]? =
      some (amountBytes claim.coin.amount) := by
  cases layout <;> rfl

theorem getElem?_words_evidence (claim : EntryClaim layout) (position : Nat) :
    claim.words[(entryValues layout claim.index claim.coin).length + position]? =
      (claim.payload.stateRoot.octets :: claim.payload.proof)[position]?.map Octets.bytes := by
  rw [words, List.getElem?_append_right (by simp), List.length_map, Nat.add_sub_cancel_left,
    List.getElem?_map]

/-- The amount of the claim with the longer chain id is taken from the state root and the siblings
of the other one. -/
theorem RunsOn.amount_word (h : p.RunsOn q count) (hpos : 0 < count) :
    ∃ word, (p.payload.stateRoot.octets :: p.payload.proof)[count - 1]? = some word
      ∧ word.bytes = amountBytes q.coin.amount := by
  have hamount := q.getElem?_words_amount
  have hp := length_entryValues layout p.index p.coin
  have hq := length_entryValues layout q.index q.coin
  have hwidth : 0 < entryWidth layout := by cases layout <;> decide
  have hposition : count + ((entryValues layout q.index q.coin).length - 1) =
      (entryValues layout p.index p.coin).length + (count - 1) := by omega
  rw [h.words_eq, List.getElem?_drop, hposition, getElem?_words_evidence,
    Option.map_eq_some_iff] at hamount
  exact hamount

/-- **When chain ids fail to separate claims.** Two claims of balances for different chains have a
payload in common exactly if the format is not the legacy one and one claim runs on into the chain
id of the other. That chain id is then the first one and the bytes of at least one word more. The
first claim has as many siblings more, and the one at this place of its state root and siblings is
the word of the other claim's amount. -/
theorem payload_shared_iff_runsOn (p q : EntryClaim layout) (format : PayloadFormat)
    (hchain : p.payload.chainId ≠ q.payload.chainId) :
    ((∃ bytes, p.payload.encode format = .ok bytes ∧ q.payload.encode format = .ok bytes) ↔
        format ≠ .legacy ∧ ∃ count, p.RunsOn q count ∨ q.RunsOn p count)
      ∧ ∀ count, p.RunsOn q count →
        0 < count
          ∧ (∃ rest, Text.bytes q.payload.chainId = Text.bytes p.payload.chainId ++ rest
            ∧ rest.length = 32 * count)
          ∧ p.payload.proof.length = q.payload.proof.length + count
          ∧ ∃ word, (p.payload.stateRoot.octets :: p.payload.proof)[count - 1]? = some word
            ∧ word.bytes = amountBytes q.coin.amount := by
  refine ⟨⟨?_, ?_⟩, fun count h => ?_⟩
  · rintro ⟨bytes, hp, hq⟩
    by_cases hformat : format = .legacy
    · -- what stands behind the chain ids is equally long, and so the chain ids are the same
      subst hformat
      obtain ⟨behind, hbytes, hlength⟩ := exists_encode_legacy hp
      obtain ⟨behind', hbytes', hlength'⟩ := exists_encode_legacy hq
      have hlengths := hlength.trans hlength'.symm
      obtain ⟨hsame, -⟩ := List.append_inj' (hbytes.symm.trans hbytes') hlengths
      exact absurd (Text.bytes_inj.mp hsame) hchain
    · refine ⟨hformat, ?_⟩
      rcases Nat.le_total q.words.length p.words.length with hle | hle
      · obtain ⟨count, hcount⟩ := Nat.exists_eq_add_of_le hle
        exact ⟨count, .inl ((encode_eq_iff_runsOn hformat hcount).mp (hp.trans hq.symm))⟩
      · obtain ⟨count, hcount⟩ := Nat.exists_eq_add_of_le hle
        exact ⟨count, .inr ((encode_eq_iff_runsOn hformat hcount).mp (hq.trans hp.symm))⟩
  · rintro ⟨hformat, count, hruns | hruns⟩
    · exact ⟨_, p.encode_eq hformat, (hruns.encode_eq hformat).symm.trans (p.encode_eq hformat)⟩
    · exact ⟨_, (hruns.encode_eq hformat).symm.trans (q.encode_eq hformat), q.encode_eq hformat⟩
  · have hpos := h.count_pos hchain
    exact ⟨hpos, h.chainId_extends, h.length_proof, h.amount_word hpos⟩

/-! Networks whose names are equally long have no payload in common. -/

/-- A claim of a balance that fits. -/
def ofEncodable (payload : ClaimPayload) (account : Account) (index : Nat) (coin : Coin)
    (entry : account.balances[index]? = some coin) (encodable : coin.Encodable)
    (leaf_eq : payload.leaf = account.address.octets.bytes ++ entryBytes layout index coin)
    (signature_length : payload.ownerSignature.length = 64) : EntryClaim layout where
  payload := payload
  account := account
  index := index
  coin := coin
  entry := entry
  leaf_written := (LeafEncoder.exists_perDenom_iff entry).mpr ⟨encodable, leaf_eq⟩
  signature_length := signature_length

/-- A claim of a balance of the sample account on a chain. -/
def claimOn (chainId : String) : EntryClaim .symbol :=
  ofEncodable
    { chainId := chainId
      denom := "BNB"
      destination := ⟨⟨List.replicate 20 0x31, rfl⟩⟩
      ownerSignature := List.replicate 64 0x55
      leaf := (sampleAccount []).address.octets.bytes ++ entryBytes .symbol 0 bnb
      stateRoot := ⟨Octets.ofNat 32 7⟩
      proof := [Octets.ofNat 32 2] }
    (sampleAccount [bnb]) 0 bnb rfl (by decide) rfl List.length_replicate

theorem payload_shared_iff_runsOn_sample :
    (claimOn "Binance-Chain-Tigris").payload.chainId ≠
        (claimOn "Binance-Chain-Ganges").payload.chainId
      ∧ ¬ ∃ bytes, (claimOn "Binance-Chain-Tigris").payload.encode .standard = .ok bytes
        ∧ (claimOn "Binance-Chain-Ganges").payload.encode .standard = .ok bytes := by
  have hchain : (claimOn "Binance-Chain-Tigris").payload.chainId ≠
      (claimOn "Binance-Chain-Ganges").payload.chainId := by decide
  obtain ⟨hshared, hforward⟩ := payload_shared_iff_runsOn _ _ .standard hchain
  obtain ⟨-, hbackward⟩ := payload_shared_iff_runsOn _ _ .standard hchain.symm
  -- both proofs have one sibling
  have hnone : ∀ count, 0 < count → (1 : Nat) ≠ 1 + count := by omega
  refine ⟨hchain, fun h => ?_⟩
  obtain ⟨-, count, hruns | hruns⟩ := hshared.mp h
  · obtain ⟨hpos, -, hproof, -⟩ := hforward count hruns
    exact hnone count hpos hproof
  · obtain ⟨hpos, -, hproof, -⟩ := hbackward count hruns
    exact hnone count hpos hproof

/-! A chain id that goes on like the payload of another chain has claims in common with that chain,
if a state root reads as an amount. -/

/-- A symbol whose word is that of the amount 5. -/
def fiveAsSymbol : String := String.ofList (List.replicate 31 '\x00' ++ ['\x05'])

/-- The payload of `claimOn "Binance-Chain-Tigris"`, read as a claim of another chain: the chain id
goes on through the destination and into the signature, and all parts behind it begin 32 bytes
later. -/
def shiftedClaim : EntryClaim .symbol :=
  ofEncodable
    { chainId := "Binance-Chain-Tigris11111111111111111111UUUUUUUUUUUU"
      denom := fiveAsSymbol
      destination := ⟨⟨List.replicate 20 0x55, rfl⟩⟩
      ownerSignature := List.replicate 32 0x55 ++ (sampleAccount []).address.octets.bytes
        ++ (Text.bytes "BNB" ++ Bytes.zeros 9)
      leaf := Bytes.zeros 20 ++ entryBytes .symbol 0 ⟨fiveAsSymbol, 7⟩
      stateRoot := ⟨Octets.ofNat 32 2⟩
      proof := [] }
    ⟨⟨Octets.zero 20⟩, 1, [⟨fiveAsSymbol, 7⟩]⟩ 0 ⟨fiveAsSymbol, 7⟩ rfl (by decide) rfl (by decide)

/-- **Two chains with one payload.** -/
theorem chains_share_payload :
    (claimOn "Binance-Chain-Tigris").payload.chainId ≠ shiftedClaim.payload.chainId
      ∧ ∃ bytes, (claimOn "Binance-Chain-Tigris").payload.encode .standard = .ok bytes
        ∧ shiftedClaim.payload.encode .standard = .ok bytes := by
  have hruns : (claimOn "Binance-Chain-Tigris").RunsOn shiftedClaim 1 :=
    ⟨by decide, by decide⟩
  have hshared := hruns.encode_eq (show PayloadFormat.standard ≠ .legacy by decide)
  exact ⟨by decide, _, rfl, hshared.symm⟩

end EntryClaim

end TokenApproval
