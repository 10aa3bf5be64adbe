import TokenApproval.Proofs.Approval.Backends
import TokenApproval.Proofs.Approval.Claimable
import TokenApproval.Proofs.Approval.Separation

/-!
# Approvals do not depend on other accounts

Two snapshots may differ in all but the account of a requester and its proofs, or in all but the
asset that counts for a token. Each ledger answers with what is listed for a key, so the two ledgers
answer alike to what an approval of that account or token asks, and an approval asks nothing else:
behind the identification of a claim every look-up is for the account that was found, and the one
record that a registration looks up is the asset of its token.

The two runs are compared as wholes, with the look-ups and the warnings that they note.
-/

namespace TokenApproval

/-! ## Snapshots that are alike at one place -/

/-- The last asset that is listed for a token. -/
def Snapshot.lastAsset? (snapshot : Snapshot) (denom : String) : Option Asset :=
  snapshot.assets.reverse.find? (·.denom == denom)

/-- The snapshots have the state root in common, and what they list for an account. -/
structure Snapshot.AlikeFor (a b : Snapshot) (address : AccountId) : Prop where
  stateRoot : a.stateRoot = b.stateRoot
  account : ∀ account : Account, account.address = address →
    (account ∈ a.accounts ↔ account ∈ b.accounts)
  proof : ∀ proof : Proof, proof.address = address → (proof ∈ a.proofs ↔ proof ∈ b.proofs)

/-- The snapshots have the state root in common, and the asset that counts for a token. -/
structure Snapshot.AlikeOn (a b : Snapshot) (denom : String) : Prop where
  stateRoot : a.stateRoot = b.stateRoot
  asset : a.lastAsset? denom = b.lastAsset? denom

namespace Ledger

variable {a b : Ledger} {snapshot other : Snapshot} {address : AccountId} {denom : String}

/-! ## Their ledgers -/

/-- Look-ups in two lists give the same if what is looked for is listed in both or in neither. -/
theorem lookup_eq_of_alike {ε α : Type} {x y : Except ε α} {p : α → Prop} {list list' : List α}
    {missing : ε} (hx : ∀ r, x = .ok r ↔ r ∈ list ∧ p r) (hy : ∀ r, y = .ok r ↔ r ∈ list' ∧ p r)
    (hxnone : (∀ r ∈ list, ¬ p r) → x = .error missing)
    (hynone : (∀ r ∈ list', ¬ p r) → y = .error missing)
    (halike : ∀ r, p r → (r ∈ list ↔ r ∈ list')) : x = y := by
  refine lookup_eq missing hx ?found ?missing
  case found =>
    intro r
    rw [hy]
    exact and_congr_left fun hr => (halike r hr).symm
  case missing =>
    intro hnone
    constructor
    · apply hxnone
      intro r hmem hr
      exact hnone r ⟨hmem, hr⟩
    · apply hynone
      intro r hmem hr
      exact hnone r ⟨(halike r hr).mpr hmem, hr⟩

theorem Presents.account_eq (ha : a.Presents snapshot) (hb : b.Presents other)
    (h : snapshot.AlikeFor other address) : a.account address = b.account address :=
  lookup_eq_of_alike (ha.account_eq_ok_iff address) (hb.account_eq_ok_iff address)
    (ha.account_missing address) (hb.account_missing address) h.account

theorem Presents.proof_eq (ha : a.Presents snapshot) (hb : b.Presents other)
    (h : snapshot.AlikeFor other address) (denom : String) (index : UInt32) :
    a.proof address denom index = b.proof address denom index := by
  refine lookup_eq_of_alike (ha.proof_eq_ok_iff address denom index)
    (hb.proof_eq_ok_iff address denom index) (ha.proof_missing address denom index)
    (hb.proof_missing address denom index) fun proof hkey => ?_
  exact h.proof proof (congrArg Prod.fst hkey)

/-- The asset of a token is the last one that is listed for it. -/
theorem Presents.asset_eq_lastAsset (h : a.Presents snapshot) (denom : String) :
    a.asset denom = (snapshot.lastAsset? denom).elim (.error .assetNotFound) .ok := by
  refine lookup_eq .assetNotFound (h.asset_eq_ok_iff denom) ?found ?missing
  case found =>
    intro asset
    rw [Outcome.elim_eq_ok_iff]
    exact find?_reverse_eq_some_iff
  case missing =>
    intro hnone
    have hlast : snapshot.lastAsset? denom = none := by
      apply Option.eq_none_iff_forall_ne_some.mpr
      intro asset hfound
      exact hnone asset (find?_reverse_eq_some_iff.mp hfound)
    have hmissing := List.find?_eq_none.mp hlast
    constructor
    · apply h.asset_missing
      intro asset hmem hdenom
      exact hmissing asset (List.mem_reverse.mpr hmem) (beq_iff_eq.mpr hdenom)
    · rw [hlast]
      rfl

theorem Presents.asset_eq (ha : a.Presents snapshot) (hb : b.Presents other)
    (h : snapshot.AlikeOn other denom) : a.asset denom = b.asset denom := by
  rw [ha.asset_eq_lastAsset, hb.asset_eq_lastAsset, h.asset]

theorem Presents.stateRoot_eq (ha : a.Presents snapshot) (hb : b.Presents other)
    (h : snapshot.stateRoot = other.stateRoot) : a.stateRoot = b.stateRoot := by
  rw [ha.stateRoot, hb.stateRoot, h]

end Ledger

namespace ApprovalService

variable {a b : Ledger} {snapshot other : Snapshot} {settings : ApprovalSettings} {signer : Signer}

/-! ## Approvals on them -/

/-- All that a claim asks a ledger is about the account that its key identifies. -/
theorem claim_congr {request : ClaimRequest} {address : AccountId}
    (hnamed : ∀ named, settings.scheme.Recovers request.validate named → named = address)
    (haccount : a.account address = b.account address)
    (hproof : ∀ denom index, a.proof address denom index = b.proof address denom index)
    (hroot : a.stateRoot = b.stateRoot) :
    (mk settings a signer).claim request = (mk settings b signer).claim request := by
  have hprepared : (mk settings a signer).prepareClaim request =
      (mk settings b signer).prepareClaim request := by
    refine Run.lift_bind_congr fun valid hvalid => Run.lift_bind_congr fun (found, key) hfound => ?_
    -- from here on the account is the one that the ledgers agree on
    obtain rfl := hnamed found ⟨valid, key, hvalid, hfound⟩
    simp only [lookupAccount, lookupProof, lookupStateRoot, haccount, hproof, hroot]
    rfl
  exact congrArg (· >>= (mk settings a signer).approve) hprepared

/-- All that a registration asks a ledger is the asset of its token and the state root. -/
theorem register_congr {request : RegisterRequest}
    (hasset : a.asset request.tokenSymbol = b.asset request.tokenSymbol)
    (hroot : a.stateRoot = b.stateRoot) :
    (mk settings a signer).register request = (mk settings b signer).register request := by
  have hprepared : (mk settings a signer).prepareRegister request =
      (mk settings b signer).prepareRegister request := by
    refine Run.lift_bind_congr fun valid hvalid => ?_
    have hsymbol : valid.tokenSymbol = request.tokenSymbol := symbol_of_validate hvalid
    simp only [lookupAsset, lookupStateRoot, hsymbol, hasset, hroot]
    rfl
  exact congrArg (· >>= (mk settings a signer).approve) hprepared

/-- **Isolation of accounts.** On the ledgers of two snapshots that list the same for an account,
every claim with the key of that account ends alike, and on those of two snapshots with the same
asset for a token so does every registration of that token, whatever else the snapshots hold. -/
theorem approvals_isolated (ha : a.BuiltFrom snapshot) (hb : b.BuiltFrom other)
    (settings : ApprovalSettings) (signer : Signer) :
    (∀ address, snapshot.AlikeFor other address → ∀ request : ClaimRequest,
        (∀ named, settings.scheme.Recovers request.validate named → named = address) →
        ((mk settings a signer).claim request).outcome =
          ((mk settings b signer).claim request).outcome)
      ∧ ∀ request : RegisterRequest, snapshot.AlikeOn other request.tokenSymbol →
        ((mk settings a signer).register request).outcome =
          ((mk settings b signer).register request).outcome := by
  have hsnapshot := ha.presents
  have hother := hb.presents
  constructor
  · intro address halike request hnamed
    have haccount := hsnapshot.account_eq hother halike
    have hproof := hsnapshot.proof_eq hother halike
    have hroot := hsnapshot.stateRoot_eq hother halike.stateRoot
    exact congrArg Run.outcome (claim_congr hnamed haccount hproof hroot)
  · intro request halike
    have hasset := hsnapshot.asset_eq hother halike
    have hroot := hsnapshot.stateRoot_eq hother halike.stateRoot
    exact congrArg Run.outcome (register_congr hasset hroot)

end ApprovalService

/-! ## Among the records of others

A claim that is approved on a snapshot of its account alone, and a registration that is approved on
one of its asset alone, on a snapshot that has both among those of a neighbour.
-/

namespace Sample

def neighbour : AccountId := ⟨Octets.ofNat 20 0x599a27d81f9b8d6a0a3e5a80a21c5630a01fa127⟩

def crowdedSnapshot : Snapshot where
  stateRoot := snapshot.stateRoot
  accounts := [⟨neighbour, 2, [⟨"BNB", 7⟩]⟩, account]
  assets := [⟨neighbour, "BNB", 9⟩, asset, ⟨neighbour, "XRP-BF2", 1⟩]
  proofs := [proof, ⟨neighbour, 1, ⟨"BNB", 7⟩, []⟩]

def registrySnapshot : Snapshot := ⟨snapshot.stateRoot, [], [asset], []⟩

theorem neighbour_ne_owner : neighbour ≠ owner := by
  decide

theorem crowdedSnapshot_alikeFor : snapshot.AlikeFor crowdedSnapshot owner where
  stateRoot := rfl
  account := by
    intro listed haddress
    have hother : listed ≠ ⟨neighbour, 2, [⟨"BNB", 7⟩]⟩ := by
      rintro rfl
      exact neighbour_ne_owner haddress
    simp [snapshot, crowdedSnapshot, hother]
  proof := by
    intro listed haddress
    have hother : listed ≠ ⟨neighbour, 1, ⟨"BNB", 7⟩, []⟩ := by
      rintro rfl
      exact neighbour_ne_owner haddress
    simp [snapshot, crowdedSnapshot, hother]

theorem crowdedSnapshot_alikeOn : registrySnapshot.AlikeOn crowdedSnapshot "BNB" where
  stateRoot := rfl
  asset := by decide

theorem named_claimRequest (named : AccountId)
    (h : settings.scheme.Recovers claimRequest.validate named) : named = owner := by
  obtain ⟨valid, key, hvalid, hfound⟩ := h
  obtain rfl := Except.ok.inj (hvalid.symm.trans evidence_supports.validates)
  have hfound' := Except.ok.inj (hfound.symm.trans evidence_supports.identifies)
  exact congrArg Prod.fst hfound'

end Sample

namespace ApprovalService

theorem approvals_isolated_sample :
    ∃ database, KeyValueStore.empty.importSnapshot Sample.crowdedSnapshot = .ok database
      ∧ Sample.snapshot.AlikeFor Sample.crowdedSnapshot Sample.owner
      ∧ (∀ named, Sample.settings.scheme.Recovers Sample.claimRequest.validate named →
          named = Sample.owner)
      ∧ ((mk Sample.settings database.ledger Sample.service.signer).claim
          Sample.claimRequest).result = .ok Sample.evidence.response
      ∧ Sample.registrySnapshot.AlikeOn Sample.crowdedSnapshot "BNB"
      ∧ ((mk Sample.settings database.ledger Sample.service.signer).register
          Sample.registerRequest).result = .ok Sample.registerEvidence.response := by
  have hdatabase := Backends.importSnapshot_of_unique .empty
    (show Sample.crowdedSnapshot.checkUnique = .ok () by rfl)
  have hcrowded : (KeyValueStore.empty.putSnapshot Sample.crowdedSnapshot).ledger.BuiltFrom
      Sample.crowdedSnapshot := .inr ⟨_, _, hdatabase, rfl⟩
  refine ⟨_, hdatabase, Sample.crowdedSnapshot_alikeFor, Sample.named_claimRequest, ?_,
    Sample.crowdedSnapshot_alikeOn, ?_⟩
  · have happroved := claim_of_supports Sample.evidence_supports
    have hsame := (approvals_isolated Sample.store.ledger_builtFrom hcrowded Sample.settings
      Sample.service.signer).1 _ Sample.crowdedSnapshot_alikeFor _ Sample.named_claimRequest
    exact (Run.result_congr hsame).symm.trans happroved
  · have happroved := register_of_supports Sample.registerEvidence_supports
    have hsame := (approvals_isolated (MemoryStore.ledger_builtFrom ⟨Sample.registrySnapshot, rfl⟩)
      hcrowded Sample.settings Sample.service.signer).2 Sample.registerRequest
      Sample.crowdedSnapshot_alikeOn
    exact (Run.result_congr hsame).symm.trans happroved

end ApprovalService

end TokenApproval
