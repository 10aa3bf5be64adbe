import TokenApproval.Proofs.Approval.FirstFault
import TokenApproval.Proofs.Http.Answers
import TokenApproval.Proofs.Ledger.Consistency

/-!
# Balance lists are read within their bounds

A balance list is read by position where a token is selected, where the amount of the selected entry
is asked for and where the leaf of one entry is written. Past the end of the list each of these has
a result of its own, so that a read which is out of bounds cannot go unnoticed (`ReadsTell`): the
service would refuse the request with an internal error, and a check would list the error of the
leaf. Neither ever happens. A selection is a position of the list, and all that the service reads of
an account goes by it, whatever position the request names; a check reads the entry before its leaf.
-/

namespace TokenApproval

variable {account : Account} {denom : String} {requested : Option UInt32} {index i : Nat}

/-! ## Reads past the end -/

namespace LeafEncoder

variable {encoder : LeafEncoder} {layout : EntryLayout}

theorem perDenom_past (h : account.balances.length ≤ index) :
    perDenom layout account index = .error (.noSuchEntry index) := by
  rw [perDenom, List.getElem?_eq_none h]

/-- No leaf is missing an entry but the leaf of one entry, past the end of the list. -/
theorem encodeAt_eq_noSuchEntry_iff :
    encoder.encodeAt account index = .error (.noSuchEntry i) ↔
      encoder.version = .perDenom ∧ account.balances.length ≤ index ∧ i = index := by
  obtain ⟨version, layout⟩ := encoder
  cases version with
  | perDenom =>
    constructor
    · intro h
      rcases Nat.lt_or_ge index account.balances.length with hlt | hge
      · have hcoin := List.getElem?_eq_getElem hlt
        exact absurd (errsOnly_encodeAt ⟨.perDenom, layout⟩ hcoin _ h) id
      · have hpast : encodeAt ⟨.perDenom, layout⟩ account index = .error (.noSuchEntry index) :=
          perDenom_past hge
        cases hpast.symm.trans h
        exact ⟨rfl, hge, rfl⟩
    · rintro ⟨-, hge, rfl⟩
      exact perDenom_past hge
  | fullAccount =>
    constructor
    · intro h
      exact absurd (errsOnly_fullAccount layout account index _ h) id
    · rintro ⟨hversion, -⟩
      cases hversion

theorem select_ne_noSuchEntry : select account denom requested ≠ .error (.noSuchEntry i) := by
  intro h
  cases hposition : account.position? denom with
  | none =>
    rw [select, hposition] at h
    cases h
  | some position =>
    obtain ⟨coin, hfirst⟩ := Account.position?_eq_some_iff.mp hposition
    rw [select_of_firstEntry hfirst] at h
    rcases hother : requested.filter (·.toNat ≠ position) with _ | other
    · simp only [hother] at h
      split at h
      · cases h
      · split at h <;> cases h
    · simp only [hother] at h
      cases h

theorem lt_length_of_select (h : select account denom requested = .ok index) :
    index < account.balances.length := by
  obtain ⟨coin, hfirst, -⟩ := select_eq_ok_iff.mp h
  exact hfirst.position_lt_length

end LeafEncoder

theorem ApprovalService.coinAt_eq_internal_iff :
    (coinAt account index).result = .error (.internal i) ↔
      account.balances.length ≤ index ∧ i = index := by
  unfold coinAt
  cases hcoin : account.balances[index]? with
  | none =>
    have hpast := List.getElem?_eq_none_iff.mp hcoin
    constructor
    · intro h
      cases h
      exact ⟨hpast, rfl⟩
    · rintro ⟨-, rfl⟩
      rfl
  | some coin =>
    obtain ⟨hlt, -⟩ := List.getElem?_eq_some_iff.mp hcoin
    constructor
    · intro h
      cases h
    · rintro ⟨hge, -⟩
      omega

/-- The reads of a balance list by position: out of bounds, they have results that they have nowhere
else, and a selection is within the bounds. -/
structure ReadsTell (encoder : LeafEncoder) : Prop where
  leaf_iff : ∀ account index i, encoder.encodeAt account index = .error (.noSuchEntry i) ↔
    encoder.version = .perDenom ∧ account.balances.length ≤ index ∧ i = index
  coin_iff : ∀ account index i,
    (ApprovalService.coinAt account index).result = .error (.internal i) ↔
      account.balances.length ≤ index ∧ i = index
  /-- The service refuses a request for it. -/
  refusal : ∀ i, ApprovalError.ofLeaf (.noSuchEntry i) = .internal i
  selection_told : ∀ account denom requested i,
    LeafEncoder.select account denom requested ≠ .error (.noSuchEntry i)
  selection_lt : ∀ account denom requested index,
    LeafEncoder.select account denom requested = .ok index → index < account.balances.length

theorem readsTell (encoder : LeafEncoder) : ReadsTell encoder where
  leaf_iff := fun _ _ _ => LeafEncoder.encodeAt_eq_noSuchEntry_iff
  coin_iff := fun _ _ _ => ApprovalService.coinAt_eq_internal_iff
  refusal := fun _ => rfl
  selection_told := fun _ _ _ _ => LeafEncoder.select_ne_noSuchEntry
  selection_lt := fun _ _ _ _ => LeafEncoder.lt_length_of_select

/-! ## Requests -/

namespace ApprovalService

section

variable {α Step : Type} {run : Signer → Run α} {signer : Signer} {steps : List Step} {last : Step}
  {fault : Step → Option ApprovalError} {digest? : Option (Octets 32)}

/-- If all steps before the signature are checks, no request meets an internal error. -/
theorem FirstFaultDecides.ne_internal
    (h : FirstFaultDecides run signer (steps ++ [last]) fault digest?)
    (hsteps : ∀ step ∈ steps, FaultOnly ApprovalError.Checked (fault step))
    (hlast : fault last = digest?.bind fun digest => faultOf .signingFailed (signer.sign digest)) :
    (run signer).result ≠ .error (.internal index) := by
  intro hrefused
  obtain ⟨step, hstep, hfault⟩ := List.exists_of_findSome?_eq_some ((h.refused_iff _).mp hrefused)
  rcases List.mem_append.mp hstep with hcheck | hsign
  · exact hsteps step hcheck _ hfault
  · obtain rfl := List.mem_singleton.mp hsign
    have hsigning :
        FaultOnly (fun error => ∃ cause, error = .signingFailed cause) (fault step) := by
      rw [hlast]
      exact faultOnly_bind fun _ => faultOnly_faultOf _ fun cause => ⟨cause, rfl⟩
    obtain ⟨cause, hcause⟩ := hsigning _ hfault
    cases hcause

end

variable {service : ApprovalService}

theorem claim_ne_internal (request : ClaimRequest) :
    (service.claim request).result ≠ .error (.internal index) :=
  (claim_firstFaultDecides service.settings service.ledger service.signer request).ne_internal
    (checked_claimFault request) signingFault_eq

theorem register_ne_internal (request : RegisterRequest) :
    (service.register request).result ≠ .error (.internal index) :=
  (register_firstFaultDecides service.settings service.ledger service.signer request).ne_internal
    (checked_registerFault request) signingFault_eq

end ApprovalService

/-! ## Answers -/

namespace ApprovalError

theorem not_internal_of_lead {lead : String}
    (h : ¬ (lead.toList <+: "internal error".toList ∨ "internal error".toList <+: lead.toList))
    (rest : String) : ¬ "internal error".toList <+: (lead ++ rest).toList := by
  intro hprefix
  rw [String.toList_append] at hprefix
  exact h (List.prefix_or_prefix_of_prefix (List.prefix_append _ _) hprefix)

/-- Of all refusals, one for a read out of bounds alone is worded as an internal error. -/
theorem message_internal {error : ApprovalError}
    (h : "internal error".toList <+: error.message.toList) : ∃ index, error = .internal index := by
  unfold message at h
  cases error with
  | internal index => exact ⟨index, rfl⟩
  | badRequest _ | invalidPublicKey _ | notAssetOwner _ | signingFailed _ | storeUnavailable _ =>
    exact absurd h (not_internal_of_lead (by decide +kernel) _)
  | notWhitelisted _ | zeroBalance _ =>
    simp only [String.append_assoc] at h
    exact absurd h (not_internal_of_lead (by decide +kernel) _)
  | invalidSignature | malleableSignature | accountNotFound | proofNotFound | assetNotFound =>
    exact absurd h (by decide +kernel)

end ApprovalError

namespace Http

open Data (Shape Field)

variable {ρ σ : Type} {request : Shape ρ} {response : Shape σ} {run : ρ → Run σ}

/-- Every body is answered with an envelope, and none with the text of an internal error. -/
def NeverInternal (response : Shape σ) (handler : Bytes → Response × List Warning) : Prop :=
  ∀ body, ∃ envelope, Delivers (handler body).1 response envelope
    ∧ ∀ text, envelope.error = some text → ¬ "internal error".toList <+: text.toList

theorem neverInternal_handle (hnames : (response.fields.map Field.name).Nodup)
    (hresponse : ∀ record, response.Restores record)
    (hrun : ∀ decoded index, (run decoded).result ≠ .error (.internal index)) :
    NeverInternal response (handle request response run) := by
  intro body
  refine ⟨(approve request run body).1, json_delivers hnames hresponse _, ?_⟩
  intro text htext hinternal
  cases hbody : Json.decode request.read body with
  | error fault =>
    rw [approve_of_unreadable run hbody] at htext
    obtain rfl := Option.some.inj htext
    obtain ⟨index, hindex⟩ := ApprovalError.message_internal hinternal
    cases hindex
  | ok decoded =>
    cases hresult : (run decoded).result with
    | error error =>
      rw [approve_of_refused hbody hresult] at htext
      obtain rfl := Option.some.inj htext
      obtain ⟨index, rfl⟩ := ApprovalError.message_internal hinternal
      exact hrun decoded index hresult
    | ok approved =>
      rw [approve_of_approved hbody hresult] at htext
      cases htext

end Http

/-! ## Checks -/

/-- A check of the ledger gives a report, which lists no leaf for a missing entry: a proof past the
balances of its account is listed for another reason, before its leaf is asked for. -/
def Ledger.ChecksWithin (ledger : Ledger) (snapshot : Snapshot) (encoder : LeafEncoder) : Prop :=
  ∃ report, ledger.verify encoder = .ok report
    ∧ (∀ mismatch ∈ report.mismatches, ∀ index,
        mismatch.reason ≠ .unencodable (.noSuchEntry index))
    ∧ ∀ proof ∈ snapshot.proofs, ∀ account, proof.Owner snapshot.accounts account →
        account.balances.length ≤ proof.index.toNat →
        ⟨proof.address, proof.index, proof.coin.denom, .entryMismatch⟩ ∈ report.mismatches

theorem Ledger.BuiltFrom.checksWithin {ledger : Ledger} {snapshot : Snapshot}
    (h : ledger.BuiltFrom snapshot) (encoder : LeafEncoder) :
    ledger.ChecksWithin snapshot encoder := by
  obtain ⟨proofs, -, hperm, hverify⟩ := h.verify_eq encoder
  refine ⟨_, hverify, ?_, ?_⟩
  · rintro ⟨_, _, _, reason⟩ hmismatch index rfl
    obtain ⟨proof, -, hlisted⟩ := List.mem_filterMap.mp hmismatch
    obtain ⟨account, -, hholds, hleaf⟩ := ((listed?_eq_some_iff h.unique).mp hlisted).misplaced
    exact LeafEncoder.errsOnly_encodeAt encoder (Account.not_lacks_iff.mp hholds) _ hleaf
  · intro proof hproof account howner hpast
    refine List.mem_filterMap.mpr ⟨proof, hperm.mem_iff.mpr hproof, ?_⟩
    exact (listed?_eq_some_iff h.unique).mpr ⟨rfl, rfl, rfl, account, howner, .inl hpast⟩

/-! ## The service and its checks -/

/-- **Balance lists are read within their bounds.** Every read past the end of a balance list has a
result of its own, and whatever a ledger holds and a request asks for, no request is refused for
such a read, no answer tells of one, and no check lists one, with any encoder. -/
theorem balances_read_within {service : ApprovalService} {snapshot : Snapshot}
    (h : service.ledger.BuiltFrom snapshot) :
    (∀ encoder, ReadsTell encoder)
      ∧ (∀ request index, (service.claim request).result ≠ .error (.internal index))
      ∧ (∀ request index, (service.register request).result ≠ .error (.internal index))
      ∧ (∀ encoder, service.ledger.ChecksWithin snapshot encoder)
      ∧ Http.NeverInternal ClaimResponse.shape (Http.claim service)
      ∧ Http.NeverInternal RegisterResponse.shape (Http.register service) := by
  have hclaim : ∀ request index, (service.claim request).result ≠ .error (.internal index) :=
    fun request _ => ApprovalService.claim_ne_internal request
  have hregister : ∀ request index,
      (service.register request).result ≠ .error (.internal index) :=
    fun request _ => ApprovalService.register_ne_internal request
  refine ⟨readsTell, hclaim, hregister, h.checksWithin, ?claims, ?registrations⟩
  case claims => exact Http.neverInternal_handle (by decide) ClaimResponse.restores hclaim
  case registrations =>
    exact Http.neverInternal_handle (by decide) RegisterResponse.restores hregister

namespace Sample

/-- An account without balances, and proofs of it at either end of the positions. -/
def bareSnapshot : Snapshot where
  stateRoot := snapshot.stateRoot
  accounts := [⟨owner, -1, []⟩]
  assets := []
  proofs := [⟨owner, 0, ⟨"BNB", -5⟩, []⟩, ⟨owner, 4294967295, ⟨"BNB", 5⟩, []⟩]

def bareStore : MemoryStore := ⟨bareSnapshot, rfl⟩

def lastRequest : ClaimRequest := { claimRequest with tokenIndex := some 4294967295 }

end Sample

theorem balances_read_within_sample :
    Sample.bareStore.ledger.BuiltFrom Sample.bareSnapshot
      ∧ (∀ index, ((ApprovalService.mk Sample.settings Sample.bareStore.ledger
          Sample.service.signer).claim Sample.lastRequest).result ≠ .error (.internal index))
      ∧ ∃ report, Sample.bareStore.ledger.verify ⟨.perDenom, .symbol⟩ = .ok report
        ∧ ⟨Sample.owner, 4294967295, "BNB", .entryMismatch⟩ ∈ report.mismatches := by
  have hbuilt := Sample.bareStore.ledger_builtFrom
  have hservice : (ApprovalService.mk Sample.settings Sample.bareStore.ledger
      Sample.service.signer).ledger.BuiltFrom Sample.bareSnapshot := hbuilt
  obtain ⟨-, hclaim, -, hchecks, -⟩ := balances_read_within hservice
  obtain ⟨report, hverify, -, hlisted⟩ := hchecks ⟨.perDenom, .symbol⟩
  have hpast := hlisted ⟨Sample.owner, 4294967295, ⟨"BNB", 5⟩, []⟩ (by decide)
    ⟨Sample.owner, -1, []⟩ ⟨List.mem_singleton_self _, rfl⟩ (Nat.zero_le _)
  exact ⟨hbuilt, hclaim Sample.lastRequest, report, hverify, hpast⟩

end TokenApproval
