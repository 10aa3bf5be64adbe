import TokenApproval.Approval.Payload
import TokenApproval.Proofs.Ledger.Leaf

/-!
# What claim payloads bind

A payload puts its parts one behind the other without saying where each of them ends. The parts in
front of the leaf have fixed lengths, so payloads of one chain agree on them if they agree at all.
A per-denom leaf has a fixed length too, and so only the siblings behind it can be more or fewer. A
full-account leaf is as long as its account has balances: the legacy format ends with it, but in the
other formats the state root and the siblings follow, and only a count of these shows where the leaf
ends.
-/

namespace TokenApproval

open Leaf

/-! ## Parts -/

theorem EvmAddress.octets_inj {a b : EvmAddress} : a.octets = b.octets ↔ a = b := by
  obtain ⟨a⟩ := a
  obtain ⟨b⟩ := b
  rw [EvmAddress.mk.injEq]

theorem StateRoot.octets_inj {a b : StateRoot} : a.octets = b.octets ↔ a = b := by
  obtain ⟨a⟩ := a
  obtain ⟨b⟩ := b
  rw [StateRoot.mk.injEq]

namespace Octets

theorem length_flatMap_bytes (words : List (Octets 32)) :
    (words.flatMap bytes).length = 32 * words.length := by
  induction words with
  | nil => rfl
  | cons word words ih =>
    rw [List.flatMap_cons, List.length_append, length_bytes, ih, List.length_cons]
    omega

theorem flatMap_bytes_inj {a b : List (Octets 32)} :
    a.flatMap bytes = b.flatMap bytes ↔ a = b := by
  constructor
  · intro h
    have hlength := congrArg List.length h
    rw [length_flatMap_bytes, length_flatMap_bytes] at hlength
    induction a generalizing b with
    | nil =>
      rw [List.length_nil] at hlength
      exact (List.eq_nil_of_length_eq_zero (by omega)).symm
    | cons x a ih =>
      cases b with
      | nil => cases hlength
      | cons y b =>
        rw [List.flatMap_cons, List.flatMap_cons] at h
        rw [List.length_cons, List.length_cons] at hlength
        obtain ⟨rfl, hrest⟩ := Octets.append_inj.mp h
        rw [ih hrest (by omega)]
  · rintro rfl
    rfl

theorem drop_flatMap_bytes (words : List (Octets 32)) (count : Nat) :
    (words.flatMap bytes).drop (32 * count) = (words.drop count).flatMap bytes := by
  induction count generalizing words with
  | zero => rfl
  | succ count ih =>
    cases words with
    | nil => rw [List.flatMap_nil, List.drop_nil, List.drop_nil, List.flatMap_nil]
    | cons first words =>
      rw [List.drop_succ_cons, ← ih, List.flatMap_cons, Nat.mul_succ, Nat.add_comm,
        ← List.drop_drop, List.drop_left' first.length_bytes]

/-- A word that stands behind `count` words of a byte string is one of its words. -/
theorem getElem?_of_flatMap_bytes {words : List (Octets 32)} {front word rest : Bytes} {count : Nat}
    (h : words.flatMap bytes = front ++ (word ++ rest)) (hfront : front.length = 32 * count)
    (hword : word.length = 32) : ∃ found, words[count]? = some found ∧ found.bytes = word := by
  have hdrop : (words.drop count).flatMap bytes = word ++ rest := by
    rw [← drop_flatMap_bytes, h, List.drop_left' hfront]
  rw [← List.head?_drop]
  cases hwords : words.drop count with
  | nil =>
    have hlength := congrArg List.length hdrop
    rw [hwords, List.flatMap_nil, List.length_append, hword, List.length_nil] at hlength
    omega
  | cons found others =>
    rw [hwords, List.flatMap_cons] at hdrop
    exact ⟨found, rfl, (List.append_inj hdrop (by rw [length_bytes, hword])).1⟩

end Octets

namespace ClaimPayload

variable {format : PayloadFormat} {layout : EntryLayout} {p q : ClaimPayload}

/-- What stands behind the leaf, in the formats that prove it. -/
def evidenceBytes (payload : ClaimPayload) : Bytes :=
  payload.stateRoot.octets.bytes ++ payload.proof.flatMap Octets.bytes

theorem length_evidenceBytes (payload : ClaimPayload) :
    payload.evidenceBytes.length = 32 + 32 * payload.proof.length := by
  rw [evidenceBytes, List.length_append, Octets.length_bytes, Octets.length_flatMap_bytes]

theorem evidenceBytes_inj :
    p.evidenceBytes = q.evidenceBytes ↔ p.stateRoot = q.stateRoot ∧ p.proof = q.proof := by
  rw [evidenceBytes, evidenceBytes, Octets.append_inj, StateRoot.octets_inj,
    Octets.flatMap_bytes_inj]

theorem encode_legacy (h : (Text.bytes p.denom).length ≤ 32) :
    p.encode .legacy = .ok (Text.bytes p.chainId ++ (paddedDenom p.denom
      ++ (p.destination.octets.bytes ++ (p.ownerSignature ++ p.leaf)))) := by
  show (denomWord p.denom >>= _) = _
  rw [Outcome.bind_eq_ok_iff]
  refine ⟨⟨paddedDenom p.denom, length_paddedDenom h⟩, denomWord_eq_ok_iff.mpr ⟨h, rfl⟩, ?_⟩
  refine congrArg Except.ok ?_
  simp only [List.append_assoc]

theorem encode_proved (hformat : format ≠ .legacy) :
    p.encode format = .ok (Text.bytes p.chainId ++ (p.destination.octets.bytes
      ++ (p.ownerSignature ++ (p.leaf ++ p.evidenceBytes)))) := by
  cases format with
  | legacy => exact absurd rfl hformat
  | standard | personalMessage => simp only [encode, evidenceBytes, List.append_assoc]

/-- A claim of a symbol that fits has a payload in every format. -/
theorem exists_encode (format : PayloadFormat) (h : (Text.bytes p.denom).length ≤ 32) :
    ∃ bytes, p.encode format = .ok bytes := by
  by_cases hformat : format = .legacy
  · subst hformat
    exact ⟨_, encode_legacy h⟩
  · exact ⟨_, encode_proved hformat⟩

/-! ## Payloads of one chain -/

section OneChain

variable (hchain : p.chainId = q.chainId) (hp : p.ownerSignature.length = 64)
  (hq : q.ownerSignature.length = 64)
include hchain hp hq

theorem encode_legacy_inj (hpdenom : (Text.bytes p.denom).length ≤ 32)
    (hqdenom : (Text.bytes q.denom).length ≤ 32) :
    p.encode .legacy = q.encode .legacy ↔
      SameDenom p.denom q.denom ∧ p.destination = q.destination
        ∧ p.ownerSignature = q.ownerSignature ∧ p.leaf = q.leaf := by
  rw [encode_legacy hpdenom, encode_legacy hqdenom, hchain, Except.ok.injEq,
    List.append_cancel_left_eq, paddedDenom_append_inj hpdenom hqdenom, Octets.append_inj,
    List.append_eq_append_iff_of_size_eq_left (hp.trans hq.symm), EvmAddress.octets_inj]

theorem encode_proved_inj (hformat : format ≠ .legacy) :
    p.encode format = q.encode format ↔
      p.destination = q.destination ∧ p.ownerSignature = q.ownerSignature
        ∧ p.leaf ++ p.evidenceBytes = q.leaf ++ q.evidenceBytes := by
  rw [encode_proved hformat, encode_proved hformat, hchain, Except.ok.injEq,
    List.append_cancel_left_eq, Octets.append_inj,
    List.append_eq_append_iff_of_size_eq_left (hp.trans hq.symm), EvmAddress.octets_inj]

end OneChain

/-! ## Claims of entries -/

/-- The payload claims the entry `coin` at a position of an account. -/
structure Claims (payload : ClaimPayload) (encoder : LeafEncoder) (account : Account)
    (index : Nat) (coin : Coin) : Prop where
  leaf_written : ∃ leaf, encoder.encodeAt account index = .ok leaf ∧ leaf.bytes = payload.leaf
  entry : account.balances[index]? = some coin
  denom_eq : payload.denom = coin.denom
  signature_length : payload.ownerSignature.length = 64

variable {a b : Account} {c d : Coin}

theorem Claims.perDenom_leaf {i : Nat} (h : p.Claims ⟨.perDenom, layout⟩ a i c) :
    c.Encodable ∧ p.leaf = a.address.octets.bytes ++ entryBytes layout i c :=
  (LeafEncoder.exists_perDenom_iff h.entry).mp h.leaf_written

theorem Claims.fullAccount_leaf {i : Nat} (h : p.Claims ⟨.fullAccount, layout⟩ a i c) :
    a.Encodable ∧ p.leaf = fullBytes layout a :=
  LeafEncoder.exists_fullAccount_iff.mp h.leaf_written

/-! ### Of single balances -/

/-- **What a per-denom claim binds.** Two claims of one chain have payloads, and have the same
payload exactly if all that they contain is the same, up to NUL bytes at the end of the symbols: the
position as far as the layout has one, the state root and the siblings as far as the format has
them. -/
theorem perDenom_encode_eq_iff {i j : UInt64} (hp : p.Claims ⟨.perDenom, layout⟩ a i.toNat c)
    (hq : q.Claims ⟨.perDenom, layout⟩ b j.toNat d) (hchain : p.chainId = q.chainId) :
    (∃ bytes, p.encode format = .ok bytes)
      ∧ (p.encode format = q.encode format ↔
        p.destination = q.destination ∧ p.ownerSignature = q.ownerSignature
          ∧ a.address = b.address ∧ c.amount = d.amount ∧ SameDenom p.denom q.denom
          ∧ (layout = .indexed → i = j)
          ∧ (format ≠ .legacy → p.stateRoot = q.stateRoot ∧ p.proof = q.proof)) := by
  obtain ⟨hc, hpleaf⟩ := hp.perDenom_leaf
  obtain ⟨hd, hqleaf⟩ := hq.perDenom_leaf
  have hpfits : (Text.bytes p.denom).length ≤ 32 := hp.denom_eq ▸ hc.denom_fits
  have hqfits : (Text.bytes q.denom).length ≤ 32 := hq.denom_eq ▸ hd.denom_fits
  have hleaves : p.leaf = q.leaf ↔
      a.address = b.address ∧ (layout = .indexed → i = j) ∧ SameDenom p.denom q.denom
        ∧ c.amount = d.amount := by
    rw [hpleaf, hqleaf, Octets.append_inj, entryBytes_inj hc hd, positionBytes_inj,
      AccountId.octets_inj, hp.denom_eq, hq.denom_eq, Coin.Same]
  by_cases hformat : format = .legacy
  · subst hformat
    refine ⟨⟨_, encode_legacy hpfits⟩, ?_⟩
    rw [encode_legacy_inj hchain hp.signature_length hq.signature_length hpfits hqfits, hleaves]
    constructor
    · rintro ⟨-, hdestination, hsignature, haddress, hindex, hdenom, hamount⟩
      exact ⟨hdestination, hsignature, haddress, hamount, hdenom, hindex, fun h => absurd rfl h⟩
    · rintro ⟨hdestination, hsignature, haddress, hamount, hdenom, hindex, -⟩
      exact ⟨hdenom, hdestination, hsignature, haddress, hindex, hdenom, hamount⟩
  · refine ⟨⟨_, encode_proved hformat⟩, ?_⟩
    have hlengths : p.leaf.length = q.leaf.length := by
      rw [hpleaf, hqleaf, List.length_append, List.length_append, Octets.length_bytes,
        Octets.length_bytes, length_entryBytes hc, length_entryBytes hd]
    rw [encode_proved_inj hchain hp.signature_length hq.signature_length hformat,
      List.append_eq_append_iff_of_size_eq_left hlengths, hleaves, evidenceBytes_inj]
    constructor
    · rintro ⟨hdestination, hsignature, ⟨haddress, hindex, hdenom, hamount⟩, hevidence⟩
      exact ⟨hdestination, hsignature, haddress, hamount, hdenom, hindex, fun _ => hevidence⟩
    · rintro ⟨hdestination, hsignature, haddress, hamount, hdenom, hindex, hevidence⟩
      exact ⟨hdestination, hsignature, ⟨haddress, hindex, hdenom, hamount⟩, hevidence hformat⟩

/-! Two symbols of which one ends with a NUL byte have one payload, and two positions have two. -/

/-- An account with the given balances. -/
def sampleAccount (balances : List Coin) : Account :=
  ⟨⟨Octets.ofNat 20 0x670ece6a4602dc4a6311b634e9293f94374b3c00⟩, 1, balances⟩

def bnb : Coin := ⟨"BNB", 5⟩

def xrp : Coin := ⟨"XRP", 7⟩

/-- The symbol of `bnb` with a NUL byte. -/
def paddedBnb : Coin := ⟨"BNB\x00", 5⟩

/-- A claim of the balance `coin` with the given leaf, state root and siblings. -/
def sampleClaim (coin : Coin) (leaf : Bytes) (root : Octets 32) (siblings : List (Octets 32)) :
    ClaimPayload :=
  ⟨"Binance-Chain-Tigris", coin.denom, ⟨Octets.ofNat 20 0x1111111111111111111111111111111111111111⟩,
    List.replicate 64 0x55, leaf, ⟨root⟩, siblings⟩

/-- A claim of a balance of the sample account, alone in the leaf. -/
def balanceClaim (index : UInt64) (coin : Coin) : ClaimPayload :=
  sampleClaim coin
    ((sampleAccount []).address.octets.bytes ++ entryBytes .indexed index.toNat coin)
    (Octets.ofNat 32 1) [Octets.ofNat 32 2]

theorem balanceClaim_claims {balances : List Coin} {index : UInt64} {coin : Coin}
    (hcoin : balances[index.toNat]? = some coin) (hencodable : coin.Encodable) :
    (balanceClaim index coin).Claims ⟨.perDenom, .indexed⟩ (sampleAccount balances) index.toNat
      coin where
  leaf_written := (LeafEncoder.exists_perDenom_iff hcoin).mpr ⟨hencodable, rfl⟩
  entry := hcoin
  denom_eq := rfl
  signature_length := List.length_replicate

theorem perDenom_encode_eq_iff_sample :
    (balanceClaim 0 bnb).encode .standard = (balanceClaim 0 paddedBnb).encode .standard
      ∧ (balanceClaim 0 bnb).encode .standard ≠ (balanceClaim 1 bnb).encode .standard := by
  have hfirst : (balanceClaim 0 bnb).Claims ⟨.perDenom, .indexed⟩ (sampleAccount [bnb, bnb])
      (0 : UInt64).toNat bnb := balanceClaim_claims rfl (by decide)
  have hsecond : (balanceClaim 1 bnb).Claims ⟨.perDenom, .indexed⟩ (sampleAccount [bnb, bnb])
      (1 : UInt64).toNat bnb := balanceClaim_claims rfl (by decide)
  have hpadded : (balanceClaim 0 paddedBnb).Claims ⟨.perDenom, .indexed⟩ (sampleAccount [paddedBnb])
      (0 : UInt64).toNat paddedBnb := balanceClaim_claims rfl (by decide)
  constructor
  · exact (perDenom_encode_eq_iff hfirst hpadded rfl).2.mpr
      ⟨rfl, rfl, rfl, rfl, by decide, fun _ => rfl, fun _ => ⟨rfl, rfl⟩⟩
  · intro h
    obtain ⟨-, -, -, -, -, hindex, -⟩ := (perDenom_encode_eq_iff hfirst hsecond rfl).2.mp h
    exact absurd (hindex rfl) (by decide)

/-! ### Of full accounts -/

/-- No sibling reads as the word of an amount. -/
def HashesOnly (payload : ClaimPayload) : Prop :=
  ∀ sibling ∈ payload.proof, ∀ amount, sibling.bytes ≠ amountBytes amount

section Evidence

variable {coins others : List Coin} {start : Nat} (hcoins : ∀ coin ∈ coins, coin.Encodable)
  (hothers : ∀ coin ∈ others, coin.Encodable)
include hcoins hothers

/-- A state root and siblings that could be taken for the end of a longer balance list hold the
amount of a balance of it. -/
theorem length_le_of_hashesOnly (hp : p.HashesOnly)
    (h : (entryList layout start coins).flatten ++ p.evidenceBytes =
      (entryList layout start others).flatten ++ q.evidenceBytes) :
    others.length ≤ coins.length := by
  by_contra hlt
  obtain ⟨front, amount, rest, hflat, hfront⟩ :=
    exists_amount_of_lt layout start hothers (Nat.not_le.mp hlt)
  have hlength := length_flatten_entryList layout start hcoins
  obtain ⟨count, hwidth⟩ := exists_entryWidth_eq layout
  rw [hflat, List.append_assoc, List.append_assoc] at h
  rcases List.append_eq_append_iff.mp h with ⟨before, rfl, hevidence⟩ | ⟨behind, heq, -⟩
  · -- the words in front of the amount are the state root and, under `indexed`, a first sibling
    have hwords : (p.stateRoot.octets :: p.proof).flatMap Octets.bytes =
        before ++ (amountBytes amount ++ (rest ++ q.evidenceBytes)) := hevidence
    rw [List.length_append, hlength, Nat.mul_succ] at hfront
    obtain ⟨found, hfound, hamount⟩ := Octets.getElem?_of_flatMap_bytes hwords
      (show before.length = 32 * (count + 1) by omega) (length_amountBytes amount)
    exact hp found (List.mem_of_getElem? hfound) amount hamount
  · have hlonger := congrArg List.length heq
    rw [List.length_append, hlength] at hlonger
    rw [Nat.mul_succ] at hfront
    omega

/-- The number of siblings or the look of them shows where the balances end. -/
theorem length_eq_of_evidence
    (hlengths : p.proof.length = q.proof.length ∨ p.HashesOnly ∧ q.HashesOnly)
    (h : (entryList layout start coins).flatten ++ p.evidenceBytes =
      (entryList layout start others).flatten ++ q.evidenceBytes) :
    coins.length = others.length := by
  rcases hlengths with hproofs | ⟨hphashes, hqhashes⟩
  · have htotal := congrArg List.length h
    rw [List.length_append, List.length_append, length_flatten_entryList _ _ hcoins,
      length_flatten_entryList _ _ hothers, length_evidenceBytes, length_evidenceBytes, hproofs]
      at htotal
    obtain ⟨count, hwidth⟩ := exists_entryWidth_eq layout
    exact Nat.eq_of_mul_eq_mul_left (by omega) (Nat.add_right_cancel htotal)
  · exact Nat.le_antisymm (length_le_of_hashesOnly hothers hcoins hqhashes h.symm)
      (length_le_of_hashesOnly hcoins hothers hphashes h)

/-- What stands behind the head of a leaf is the same if the balances, the state root and the
siblings are, and only then if it shows where the balances end. -/
theorem balances_evidence_inj
    (hlengths : p.proof.length = q.proof.length ∨ p.HashesOnly ∧ q.HashesOnly) :
    (entryList layout start coins).flatten ++ p.evidenceBytes =
        (entryList layout start others).flatten ++ q.evidenceBytes ↔
      List.Forall₂ Coin.Same coins others ∧ p.stateRoot = q.stateRoot ∧ p.proof = q.proof := by
  constructor
  · intro h
    have hcounts := length_eq_of_evidence hcoins hothers hlengths h
    have hwidths := (length_flatten_entryList layout start hcoins).trans
      (hcounts ▸ (length_flatten_entryList layout start hothers).symm)
    obtain ⟨hflat, hevidence⟩ := List.append_inj h hwidths
    exact ⟨(flatten_entryList_inj hcounts hcoins hothers).mp hflat, evidenceBytes_inj.mp hevidence⟩
  · rintro ⟨hsame, hevidence⟩
    rw [(flatten_entryList_inj hsame.length_eq hcoins hothers).mpr hsame,
      evidenceBytes_inj.mpr hevidence]

end Evidence

/-- Two claims of full accounts have one payload if they agree on what stands in front of the
balances and on all that follows, where nothing tells the balances from the state root. -/
theorem fullAccount_proved_iff {i j : Nat} (hp : p.Claims ⟨.fullAccount, layout⟩ a i c)
    (hq : q.Claims ⟨.fullAccount, layout⟩ b j d) (hchain : p.chainId = q.chainId)
    (hformat : format ≠ .legacy) :
    p.encode format = q.encode format ↔
      p.destination = q.destination ∧ p.ownerSignature = q.ownerSignature
        ∧ a.address = b.address ∧ a.accountNumber = b.accountNumber
        ∧ (entryList layout 0 a.balances).flatten ++ p.evidenceBytes =
          (entryList layout 0 b.balances).flatten ++ q.evidenceBytes := by
  obtain ⟨ha, hpleaf⟩ := hp.fullAccount_leaf
  obtain ⟨hb, hqleaf⟩ := hq.fullAccount_leaf
  have hheads : (headBytes a).length = (headBytes b).length := by
    rw [length_headBytes, length_headBytes]
  rw [encode_proved_inj hchain hp.signature_length hq.signature_length hformat, hpleaf, hqleaf,
    fullBytes, fullBytes, List.append_assoc, List.append_assoc,
    List.append_eq_append_iff_of_size_eq_left hheads,
    headBytes_inj ha.number_nonneg hb.number_nonneg, and_assoc]

theorem fullAccount_legacy_iff {i j : Nat} (hp : p.Claims ⟨.fullAccount, layout⟩ a i c)
    (hq : q.Claims ⟨.fullAccount, layout⟩ b j d) (hchain : p.chainId = q.chainId) :
    p.encode .legacy = q.encode .legacy ↔
      p.destination = q.destination ∧ p.ownerSignature = q.ownerSignature ∧ a.Same b
        ∧ SameDenom p.denom q.denom := by
  obtain ⟨ha, hpleaf⟩ := hp.fullAccount_leaf
  obtain ⟨hb, hqleaf⟩ := hq.fullAccount_leaf
  have hpfits : (Text.bytes p.denom).length ≤ 32 :=
    hp.denom_eq ▸ (ha.balances c (List.mem_of_getElem? hp.entry)).denom_fits
  have hqfits : (Text.bytes q.denom).length ≤ 32 :=
    hq.denom_eq ▸ (hb.balances d (List.mem_of_getElem? hq.entry)).denom_fits
  rw [encode_legacy_inj hchain hp.signature_length hq.signature_length hpfits hqfits, hpleaf,
    hqleaf, fullBytes_inj ha hb]
  constructor
  · rintro ⟨hdenom, hdestination, hsignature, hsame⟩
    exact ⟨hdestination, hsignature, hsame, hdenom⟩
  · rintro ⟨hdestination, hsignature, hsame, hdenom⟩
    exact ⟨hdenom, hdestination, hsignature, hsame⟩

end ClaimPayload

/-- No other balance of the account has the symbol of the one at `position`, up to NUL bytes. -/
def Account.ListsOnce (account : Account) (position : Nat) : Prop :=
  ∀ i c d, account.balances[position]? = some c → account.balances[i]? = some d →
    SameDenom c.denom d.denom → i = position

/-- Where accounts are the same and a symbol is listed once, it selects the same balance. -/
theorem Account.Same.entry_eq {a b : Account} (h : a.Same b) {i j : Nat} {c d : Coin}
    (hc : a.balances[i]? = some c) (hd : b.balances[j]? = some d)
    (hdenom : SameDenom c.denom d.denom) (honce : a.ListsOnce i) : i = j ∧ c.amount = d.amount := by
  obtain ⟨hlength, hsame⟩ := List.forall₂_iff_get.mp h.balances
  obtain ⟨hjb, rfl⟩ := List.getElem?_eq_some_iff.mp hd
  have hja : j < a.balances.length := hlength ▸ hjb
  obtain ⟨hsymbol, hamount⟩ := hsame j hja hjb
  have hother := List.getElem?_eq_getElem hja
  obtain rfl := honce j c _ hc hother (hdenom.trans hsymbol.symm)
  obtain rfl := Option.some.inj (hc.symm.trans hother)
  exact ⟨rfl, hamount⟩

namespace ClaimPayload

variable {format : PayloadFormat} {layout : EntryLayout} {p q : ClaimPayload} {a b : Account}
  {c d : Coin}

/-- Whatever the format, claims of full accounts with one payload have the same balances as far as
both accounts list any. -/
theorem fullAccount_common {i j : Nat} (hp : p.Claims ⟨.fullAccount, layout⟩ a i c)
    (hq : q.Claims ⟨.fullAccount, layout⟩ b j d) (hchain : p.chainId = q.chainId)
    (h : p.encode format = q.encode format) :
    p.destination = q.destination ∧ p.ownerSignature = q.ownerSignature
      ∧ a.address = b.address ∧ a.accountNumber = b.accountNumber
      ∧ ∀ x y, (x, y) ∈ a.balances.zip b.balances → x.Same y := by
  by_cases hformat : format = .legacy
  · subst hformat
    obtain ⟨hdestination, hsignature, hsame, -⟩ := (fullAccount_legacy_iff hp hq hchain).mp h
    exact ⟨hdestination, hsignature, hsame.address_eq, hsame.number_eq,
      fun x y hxy => (List.forall₂_iff_zip.mp hsame.balances).2 hxy⟩
  · obtain ⟨hdestination, hsignature, haddress, hnumber, hbehind⟩ :=
      (fullAccount_proved_iff hp hq hchain hformat).mp h
    exact ⟨hdestination, hsignature, haddress, hnumber, fun x y hxy =>
      same_of_mem_zip hp.fullAccount_leaf.1.balances hq.fullAccount_leaf.1.balances hbehind hxy⟩

/-- **What a full-account claim binds.** Two claims of one chain with the same payload agree on the
destination, the owner's signature, the account's identifier and number, and the balances as far as
both accounts list any, so that the selected ones are the same if they stand at one position. In the
legacy format they have the same payload exactly if they also agree on all balances and the symbol,
and so on the position if the symbol is listed once. In the other formats, if the proofs are equally
long or hold no sibling that reads as an amount, they have the same payload exactly if they also
agree on all balances, the state root and the siblings, whichever balances they select. -/
theorem fullAccount_encode_binds {i j : Nat} (hp : p.Claims ⟨.fullAccount, layout⟩ a i c)
    (hq : q.Claims ⟨.fullAccount, layout⟩ b j d) (hchain : p.chainId = q.chainId) :
    (p.encode format = q.encode format →
        p.destination = q.destination ∧ p.ownerSignature = q.ownerSignature
          ∧ a.address = b.address ∧ a.accountNumber = b.accountNumber
          ∧ (∀ x y, (x, y) ∈ a.balances.zip b.balances → x.Same y) ∧ (i = j → c.Same d))
      ∧ (format = .legacy →
        (p.encode format = q.encode format ↔
          p.destination = q.destination ∧ p.ownerSignature = q.ownerSignature ∧ a.Same b
            ∧ SameDenom p.denom q.denom)
        ∧ (p.encode format = q.encode format → a.ListsOnce i → i = j ∧ c.amount = d.amount))
      ∧ (format ≠ .legacy →
        p.proof.length = q.proof.length ∨ p.HashesOnly ∧ q.HashesOnly →
        (p.encode format = q.encode format ↔
          p.destination = q.destination ∧ p.ownerSignature = q.ownerSignature ∧ a.Same b
            ∧ p.stateRoot = q.stateRoot ∧ p.proof = q.proof)) := by
  refine ⟨fun h => ?_, fun hformat => ?_, fun hformat hlengths => ?_⟩
  · obtain ⟨hdestination, hsignature, haddress, hnumber, hzip⟩ := fullAccount_common hp hq hchain h
    refine ⟨hdestination, hsignature, haddress, hnumber, hzip, ?_⟩
    rintro rfl
    exact hzip c d (List.mem_of_getElem? (List.getElem?_zip_eq_some.mpr ⟨hp.entry, hq.entry⟩))
  · subst hformat
    have hiff := fullAccount_legacy_iff hp hq hchain
    refine ⟨hiff, fun h honce => ?_⟩
    obtain ⟨-, -, hsame, hdenom⟩ := hiff.mp h
    rw [hp.denom_eq, hq.denom_eq] at hdenom
    exact hsame.entry_eq hp.entry hq.entry hdenom honce
  · rw [fullAccount_proved_iff hp hq hchain hformat, Account.same_iff, and_assoc, and_assoc,
      balances_evidence_inj hp.fullAccount_leaf.1.balances hq.fullAccount_leaf.1.balances hlengths]

/-! A NUL byte at the end of a symbol does not change the legacy payload, and another sibling only
the payloads that hold the proof. Which balance is selected does not change those. -/

/-- A claim of a balance of the sample account, with all balances in the leaf. -/
def accountClaim (balances : List Coin) (coin : Coin) (root : Octets 32)
    (siblings : List (Octets 32)) : ClaimPayload :=
  sampleClaim coin (fullBytes .symbol (sampleAccount balances)) root siblings

theorem accountClaim_claims {balances : List Coin} {index : Nat} {coin : Coin} {root : Octets 32}
    {siblings : List (Octets 32)} (hcoin : balances[index]? = some coin)
    (hbalances : ∀ coin ∈ balances, coin.Encodable) :
    (accountClaim balances coin root siblings).Claims ⟨.fullAccount, .symbol⟩
      (sampleAccount balances) index coin where
  leaf_written := LeafEncoder.exists_fullAccount_iff.mpr
    ⟨⟨show (0 : Int64) ≤ 1 by decide, hbalances⟩, rfl⟩
  entry := hcoin
  denom_eq := rfl
  signature_length := List.length_replicate

/-- The siblings of a proof of two levels. -/
def sampleSiblings (upper : Nat) : List (Octets 32) := [Octets.ofNat 32 7, Octets.ofNat 32 upper]

/-- Claims of the first of two balances, and of the second. -/
def firstClaim : ClaimPayload := accountClaim [bnb, xrp] bnb (Octets.ofNat 32 1) (sampleSiblings 8)

def paddedClaim : ClaimPayload :=
  accountClaim [paddedBnb, xrp] paddedBnb (Octets.ofNat 32 1) (sampleSiblings 9)

def secondClaim : ClaimPayload := accountClaim [bnb, xrp] xrp (Octets.ofNat 32 1) (sampleSiblings 8)

theorem sampleAccount_listsOnce : (sampleAccount [bnb, xrp]).ListsOnce 0 := by
  rintro (_ | _ | i) c d hc hd hsame
  · rfl
  · obtain rfl := Option.some.inj hc
    obtain rfl := Option.some.inj hd
    exact absurd hsame (by decide)
  · cases hd

theorem fullAccount_encode_binds_sample :
    (firstClaim.encode .legacy = paddedClaim.encode .legacy
        ∧ firstClaim.encode .standard ≠ paddedClaim.encode .standard)
      ∧ firstClaim.encode .legacy ≠ secondClaim.encode .legacy
      ∧ firstClaim.encode .standard = secondClaim.encode .standard := by
  have hfirst : firstClaim.Claims ⟨.fullAccount, .symbol⟩ (sampleAccount [bnb, xrp]) 0 bnb :=
    accountClaim_claims rfl (by decide)
  have hpadded : paddedClaim.Claims ⟨.fullAccount, .symbol⟩ (sampleAccount [paddedBnb, xrp]) 0
      paddedBnb := accountClaim_claims rfl (by decide)
  have hsecond : secondClaim.Claims ⟨.fullAccount, .symbol⟩ (sampleAccount [bnb, xrp]) 1 xrp :=
    accountClaim_claims rfl (by decide)
  have hdenom : SameDenom bnb.denom paddedBnb.denom := by decide
  have hsame : (sampleAccount [bnb, xrp]).Same (sampleAccount [paddedBnb, xrp]) :=
    ⟨rfl, rfl, .cons ⟨hdenom, rfl⟩ (.cons ⟨rfl, rfl⟩ .nil)⟩
  have hstandard : PayloadFormat.standard ≠ .legacy := by decide
  refine ⟨⟨?_, ?_⟩, ?_, ?_⟩
  · exact ((fullAccount_encode_binds hfirst hpadded rfl).2.1 rfl).1.mpr ⟨rfl, rfl, hsame, hdenom⟩
  · intro h
    -- the proofs are equally long, and differ in their upper sibling
    obtain ⟨-, -, -, -, hsiblings⟩ :=
      ((fullAccount_encode_binds hfirst hpadded rfl).2.2 hstandard (.inl rfl)).mp h
    exact absurd hsiblings (by decide)
  · intro h
    obtain ⟨hposition, -⟩ :=
      ((fullAccount_encode_binds hfirst hsecond rfl).2.1 rfl).2 h sampleAccount_listsOnce
    cases hposition
  · exact ((fullAccount_encode_binds hfirst hsecond rfl).2.2 hstandard (.inl rfl)).mpr
      ⟨rfl, rfl, ⟨rfl, rfl, .cons ⟨rfl, rfl⟩ (.cons ⟨rfl, rfl⟩ .nil)⟩, rfl, rfl⟩

/-! No payload names the position of the selected balance, and nothing tells where the balances
end. -/

/-- The second balance of an account as a state root and a sibling. -/
def xrpWords : Octets 32 × Octets 32 :=
  (⟨paddedDenom xrp.denom, length_paddedDenom (by decide)⟩,
    ⟨amountBytes xrp.amount, length_amountBytes xrp.amount⟩)

/-- **Claims that share a payload.** Of two tokens of an account, in the standard format; of two
balances of one token, in the legacy format; and of an account with one balance and one with two, if
the state root and a sibling of the first claim are the words of the second balance. -/
theorem fullAccount_payload_shared :
    ((accountClaim [bnb, xrp] bnb (Octets.ofNat 32 1) []).Claims ⟨.fullAccount, .symbol⟩
          (sampleAccount [bnb, xrp]) 0 bnb
        ∧ (accountClaim [bnb, xrp] xrp (Octets.ofNat 32 1) []).Claims ⟨.fullAccount, .symbol⟩
          (sampleAccount [bnb, xrp]) 1 xrp
        ∧ (accountClaim [bnb, xrp] bnb (Octets.ofNat 32 1) []).encode .standard =
          (accountClaim [bnb, xrp] xrp (Octets.ofNat 32 1) []).encode .standard
        ∧ ¬ SameDenom bnb.denom xrp.denom)
      ∧ ((accountClaim [bnb, bnb] bnb (Octets.ofNat 32 1) []).Claims ⟨.fullAccount, .symbol⟩
          (sampleAccount [bnb, bnb]) 0 bnb
        ∧ (accountClaim [bnb, bnb] bnb (Octets.ofNat 32 1) []).Claims ⟨.fullAccount, .symbol⟩
          (sampleAccount [bnb, bnb]) 1 bnb)
      ∧ ((accountClaim [bnb] bnb xrpWords.1 [xrpWords.2, Octets.ofNat 32 1]).Claims
          ⟨.fullAccount, .symbol⟩ (sampleAccount [bnb]) 0 bnb
        ∧ (accountClaim [bnb, xrp] bnb (Octets.ofNat 32 1) []).Claims ⟨.fullAccount, .symbol⟩
          (sampleAccount [bnb, xrp]) 0 bnb
        ∧ (accountClaim [bnb] bnb xrpWords.1 [xrpWords.2, Octets.ofNat 32 1]).encode .standard =
          (accountClaim [bnb, xrp] bnb (Octets.ofNat 32 1) []).encode .standard
        ∧ ¬ (sampleAccount [bnb]).Same (sampleAccount [bnb, xrp])) := by
  have htokens : ∀ coin ∈ [bnb, xrp], coin.Encodable := by decide
  have hlonger : (accountClaim [bnb, xrp] bnb (Octets.ofNat 32 1) []).Claims
      ⟨.fullAccount, .symbol⟩ (sampleAccount [bnb, xrp]) 0 bnb := accountClaim_claims rfl htokens
  have hshorter : (accountClaim [bnb] bnb xrpWords.1 [xrpWords.2, Octets.ofNat 32 1]).Claims
      ⟨.fullAccount, .symbol⟩ (sampleAccount [bnb]) 0 bnb := accountClaim_claims rfl (by decide)
  refine ⟨⟨hlonger, accountClaim_claims rfl htokens, rfl, by decide⟩,
    ⟨accountClaim_claims rfl (by decide), accountClaim_claims rfl (by decide)⟩,
    hshorter, hlonger, ?_, ?_⟩
  · refine (fullAccount_proved_iff hshorter hlonger rfl (by decide)).mpr
      ⟨rfl, rfl, rfl, rfl, ?_⟩
    simp [entryList, entryBytes, positionBytes, evidenceBytes, accountClaim, sampleClaim,
      sampleAccount, xrpWords]
  · intro h
    exact absurd h.balances.length_eq (by decide)

end ClaimPayload

end TokenApproval
