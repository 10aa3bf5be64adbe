import TokenApproval.Proofs.Approval.Faults

/-!
# The first fault decides

A claim and a registration are refused for the first fault among their steps, each taken by itself,
and the signer is reached last (`first_fault_decides`).
-/

namespace TokenApproval

namespace ApprovalService

variable (service : ApprovalService)

/-! ## Claims up to their signature -/

section

variable {service} {validated : Except RequestFault ValidRequest} {request : ClaimRequest}
  {who : Requester} {account : Account} {position : Nat} {coin : Coin} {proof : Proof}
  {root : StateRoot}

/-- Behind the whitelist, the account of the request is served. -/
theorem decidedBy_checkWhitelist {α Step : Type} {step : Step} {steps : List Step}
    {fault : Step → Option ApprovalError} {digest? : Option (Octets 32)} {log : List Event}
    {next : Unit → Run (Prepared α)}
    (hwho : service.requester? validated = some who)
    (hfault : fault step = service.whitelistFault validated)
    (hnext : (next ()).DecidedBy log steps fault digest?) :
    (service.checkWhitelist who.address >>= next).DecidedBy log (step :: steps) fault digest? := by
  have hstep : fault step =
      if service.settings.whitelist.allows who.address then none
      else some (.notWhitelisted (service.settings.network.formatAccount who.address)) := by
    rw [hfault, whitelistFault, hwho]
    rfl
  unfold checkWhitelist
  by_cases hserved : service.settings.whitelist.allows who.address
  · rw [if_pos hserved] at hstep ⊢
    exact Run.decidedBy_bind_of_returns (Run.returns_pure_iff.mpr ⟨rfl, rfl⟩) (hnext.passed hstep)
  · rw [if_neg hserved] at hstep ⊢
    exact Run.decidedBy_bind_of_refuses (Run.refuses_throw _ log) hstep

/-- The leaf and the payload are written in one step; a warning in between does not refuse. -/
theorem decidedBy_writeClaim {valid : ValidRequest} {address : AccountId} {log : List Event}
    (hcoin : account.balances[position]? = some coin)
    (hbytes : service.claimBytes? request =
      some (service.claimBytes valid account position proof root)) :
    (service.writeClaim valid address account position coin proof root).DecidedBy log
      [ClaimStep.encoding] (service.claimFault request)
      ((service.claimPayload? request).map service.settings.payloadFormat.digest) := by
  unfold writeClaim
  unfold claimBytes at hbytes
  have hfault := encodingFault_of_bytes hbytes
  have hpayload := claimPayload?_of_bytes hbytes
  have hleaf := LeafEncoder.errsOnly_encodeAt service.settings.encoder hcoin
  cases hencoded : service.settings.encoder.encodeAt account position with
  | error cause =>
    rw [hencoded] at hfault
    refine Run.decidedBy_bind_of_refuses (Run.refuses_throw _ _) (hfault.trans ?_)
    exact congrArg some (ofLeaf_misfit (hleaf cause hencoded))
  | ok leaf =>
    rw [hencoded] at hfault hpayload
    refine Run.decidedBy_bind_of_returns (Run.returns_pure_iff.mpr ⟨rfl, rfl⟩) ?_
    refine Run.decidedBy_bind_of_returns (b := ()) (returns_warnOfStrayProof_iff.mpr rfl) ?_
    refine Run.decidedBy_lift (hfault.trans ?_) ?_
    · rw [ClaimPayload.digest, faultOf_map]
      refine faultOf_congr fun cause hcause => ?_
      exact ofLeaf_misfit (ClaimPayload.errsOnly_encode _ _ cause hcause)
    · intro digest hdigest
      obtain ⟨bytes, hbytes, rfl⟩ := Outcome.map_eq_ok_iff.mp hdigest
      refine Run.decidedBy_pure ?_
      rw [hpayload]
      show ((ClaimPayload.encode _ _).toOption).map _ = _
      rw [hbytes]
      rfl

theorem decidedBy_prepareClaim :
    (service.prepareClaim request).DecidedBy [] claimSteps (service.claimFault request)
      ((service.claimPayload? request).map service.settings.payloadFormat.digest) := by
  unfold prepareClaim claimSteps
  refine Run.decidedBy_lift rfl fun valid hvalid => ?_
  obtain ⟨hsymbol, hindex⟩ := fields_of_validate hvalid
  refine Run.decidedBy_lift (identityFault_of_valid hvalid) fun found hidentified => ?_
  obtain ⟨address, key⟩ := found
  have hwho := requester?_of_identified hvalid hidentified
  refine decidedBy_checkWhitelist hwho rfl ?_
  refine Run.decidedBy_noted ?account fun account hfound => ?_
  case account =>
    rw [claimFault, hwho]
    rfl
  have haccount := account?_of_found hwho hfound
  rw [hindex]
  refine Run.decidedBy_lift ?position fun position hposition => ?_
  case position =>
    rw [hsymbol]
    exact positionFault_of_account haccount
  rw [hsymbol] at hposition
  obtain ⟨coin, hfirst⟩ := Account.position?_eq_some_iff.mp (Outcome.elim_eq_ok_iff.mp hposition)
  have hentry := selected?_of_first haccount hfirst
  refine Run.decidedBy_noted ?proof fun proof hproof => ?_
  case proof =>
    rw [claimFault, hwho, hentry, hsymbol]
    rfl
  refine Run.decidedBy_noted rfl fun root hroot => ?_
  refine Run.decidedBy_lift_steps [ClaimStep.index, .negativeAmount, .zeroAmount] ?selection
    fun index hselected => ?_
  case selection =>
    rw [hsymbol]
    exact selectionFault_of_selected hentry hfirst
  rw [hsymbol] at hproof hselected
  -- the selection goes back to the position at which the proof was looked up
  obtain ⟨other, hother, -⟩ := LeafEncoder.select_eq_ok_iff.mp hselected
  obtain rfl : index = position := by
    have hposition' := Account.position?_eq_some_iff.mpr ⟨other, hother⟩
    rw [Account.position?_eq_some_iff.mpr ⟨coin, hfirst⟩] at hposition'
    exact (Option.some.inj hposition').symm
  refine Run.decidedBy_bind_of_returns (returns_coinAt_iff.mpr ⟨hfirst.entry, rfl⟩) ?_
  refine Run.decidedBy_lift ?ownership fun _ _ => ?_
  case ownership =>
    rw [claimFault, hentry, ← hsymbol]
    exact ownershipFault_of_requester hwho
  exact decidedBy_writeClaim hfirst.entry
    (claimBytes?_of_found hwho haccount hentry hproof hroot)

end

/-! ## Registrations up to their signature -/

section

variable {service} {request : RegisterRequest}

theorem decidedBy_prepareRegister :
    (service.prepareRegister request).DecidedBy [] registerSteps (service.registerFault request)
      ((service.registerPayload? request).map service.settings.payloadFormat.digest) := by
  unfold prepareRegister registerSteps
  refine Run.decidedBy_lift rfl fun valid hvalid => ?_
  have hsymbol := symbol_of_validate hvalid
  refine Run.decidedBy_lift (identityFault_of_valid hvalid) fun found hidentified => ?_
  obtain ⟨address, key⟩ := found
  have hwho := requester?_of_identified hvalid hidentified
  refine decidedBy_checkWhitelist hwho rfl ?_
  refine Run.decidedBy_noted ?asset fun asset hasset => ?_
  case asset =>
    rw [hsymbol]
    rfl
  rw [hsymbol] at hasset
  have howner : service.registerFault request .owner =
      if asset.owner = address then none else some (.notAssetOwner request.tokenSymbol) := by
    rw [registerFault, hwho, hasset]
    rfl
  have hzero : service.registerFault request .zeroAmount =
      if asset.amount = 0 then some (.zeroBalance request.tokenSymbol) else none := by
    rw [registerFault, hasset]
    rfl
  rw [← hsymbol] at howner hzero
  refine Run.decidedBy_unless ?_ ?_ fun _ => ?_
  · intro hother
    rw [howner, if_neg hother]
  · intro hother
    rw [howner, if_pos (Decidable.not_not.mp hother)]
  refine Run.decidedBy_unless ?_ ?_ fun _ => ?_
  · intro hnone
    rw [hzero, if_pos hnone]
  · intro hnone
    rw [hzero, if_neg hnone]
  refine Run.decidedBy_lift ?denomLength fun _ _ => ?_
  case denomLength =>
    rw [hsymbol]
    exact denomLengthFault_eq
  refine Run.decidedBy_lift ?ownership fun _ _ => ?_
  case ownership =>
    rw [registerFault, hasset, ← hsymbol]
    exact ownershipFault_of_requester hwho
  refine Run.decidedBy_noted rfl fun root hroot => ?_
  have hbytes := registerBytes?_of_found hwho hasset hroot
  rw [← hsymbol] at hbytes
  refine Run.decidedBy_lift ?encoding fun digest hdigest => ?_
  case encoding =>
    rw [registerFault, hbytes, RegisterPayload.digest, faultOf_map]
    refine faultOf_congr fun cause hcause => ?_
    exact ofLeaf_misfit (RegisterPayload.errsOnly_encode _ cause hcause)
  obtain ⟨bytes, hencoded, rfl⟩ := Outcome.map_eq_ok_iff.mp hdigest
  refine Run.decidedBy_pure ?_
  rw [registerPayload?, hbytes]
  show ((RegisterPayload.encode _).toOption).map _ = _
  rw [hencoded]
  rfl

end

/-! ## What is noted before a signature -/

section

variable {service}

theorem notesOnly_checkWhitelist (address : AccountId) :
    (service.checkWhitelist address).NotesOnly Unsigned :=
  Run.notesOnly_ite (Run.notesOnly_pure ()) (Run.notesOnly_throw _)

theorem notesOnly_coinAt (account : Account) (index : Nat) :
    (coinAt account index).NotesOnly Unsigned := by
  unfold coinAt
  split
  · exact Run.notesOnly_throw _
  · exact Run.notesOnly_pure _

theorem notesOnly_warnOfStrayProof (address : AccountId) (denom : String) (leaf : Leaf)
    (proof : Proof) (root : StateRoot) :
    (service.warnOfStrayProof address denom leaf proof root).NotesOnly Unsigned := by
  refine Run.notesOnly_ite (Run.notesOnly_pure ()) (Run.notesOnly_note ?_)
  intro digest h
  cases h

theorem notesOnly_writeClaim (valid : ValidRequest) (address : AccountId) (account : Account)
    (position : Nat) (coin : Coin) (proof : Proof) (root : StateRoot) :
    (service.writeClaim valid address account position coin proof root).NotesOnly Unsigned :=
  Run.notesOnly_bind (Run.notesOnly_lift _ _) fun _ =>
    Run.notesOnly_bind (notesOnly_warnOfStrayProof _ _ _ _ _) fun _ =>
      Run.notesOnly_bind (Run.notesOnly_lift _ _) fun _ => Run.notesOnly_pure _

theorem notesOnly_prepareClaim (request : ClaimRequest) :
    (service.prepareClaim request).NotesOnly Unsigned := by
  refine Run.notesOnly_bind (Run.notesOnly_lift _ _) fun valid => ?_
  refine Run.notesOnly_bind (Run.notesOnly_lift _ _) fun found => ?_
  refine Run.notesOnly_bind (notesOnly_checkWhitelist _) fun _ => ?_
  refine Run.notesOnly_bind (Run.notesOnly_noted _ _ nofun) fun account => ?_
  refine Run.notesOnly_bind (Run.notesOnly_lift _ _) fun position => ?_
  refine Run.notesOnly_bind (Run.notesOnly_noted _ _ nofun) fun proof => ?_
  refine Run.notesOnly_bind (Run.notesOnly_noted _ _ nofun) fun root => ?_
  refine Run.notesOnly_bind (Run.notesOnly_lift _ _) fun index => ?_
  refine Run.notesOnly_bind (notesOnly_coinAt _ _) fun coin => ?_
  refine Run.notesOnly_bind (Run.notesOnly_lift _ _) fun _ => ?_
  exact notesOnly_writeClaim _ _ _ _ _ _ _

theorem notesOnly_prepareRegister (request : RegisterRequest) :
    (service.prepareRegister request).NotesOnly Unsigned := by
  refine Run.notesOnly_bind (Run.notesOnly_lift _ _) fun valid => ?_
  refine Run.notesOnly_bind (Run.notesOnly_lift _ _) fun found => ?_
  refine Run.notesOnly_bind (notesOnly_checkWhitelist _) fun _ => ?_
  refine Run.notesOnly_bind (Run.notesOnly_noted _ _ nofun) fun asset => ?_
  refine Run.notesOnly_ite (Run.notesOnly_throw _) (Run.notesOnly_ite (Run.notesOnly_throw _) ?_)
  refine Run.notesOnly_bind (Run.notesOnly_lift _ _) fun _ => ?_
  refine Run.notesOnly_bind (Run.notesOnly_lift _ _) fun _ => ?_
  refine Run.notesOnly_bind (Run.notesOnly_noted _ _ nofun) fun root => ?_
  exact Run.notesOnly_bind (Run.notesOnly_lift _ _) fun _ => Run.notesOnly_pure _

end

/-! ## Whole approvals -/

theorem signingFault_eq {payload? : Option Bytes} {format : PayloadFormat} {signer : Signer} :
    (do let payload ← payload?; faultOf .signingFailed (signer.sign (format.digest payload))) =
      (payload?.map format.digest).bind fun digest =>
        faultOf .signingFailed (signer.sign digest) := by
  cases payload? <;> rfl

theorem claim_firstFaultDecides (settings : ApprovalSettings) (ledger : Ledger) (signer : Signer)
    (request : ClaimRequest) :
    FirstFaultDecides (fun signer => (mk settings ledger signer).claim request) signer
      (claimSteps ++ [.signing]) ((mk settings ledger signer).claimFault request)
      (((mk settings ledger signer).claimPayload? request).map settings.payloadFormat.digest) :=
  firstFaultDecides (fun _ => rfl) decidedBy_prepareClaim (notesOnly_prepareClaim request)
    (fun step hstep => (checked_claimFault request step hstep).notSigning) signingFault_eq

theorem register_firstFaultDecides (settings : ApprovalSettings) (ledger : Ledger)
    (signer : Signer) (request : RegisterRequest) :
    FirstFaultDecides (fun signer => (mk settings ledger signer).register request) signer
      (registerSteps ++ [.signing]) ((mk settings ledger signer).registerFault request)
      (((mk settings ledger signer).registerPayload? request).map settings.payloadFormat.digest) :=
  firstFaultDecides (fun _ => rfl) decidedBy_prepareRegister (notesOnly_prepareRegister request)
    (fun step hstep => (checked_registerFault request step hstep).notSigning) signingFault_eq

section

variable {service} {digest : Octets 32}

theorem payload_of_claim_signed {request : ClaimRequest}
    (h : .sign digest ∈ (service.claim request).events) :
    ∃ bytes, service.claimPayload? request = some bytes
      ∧ digest = service.settings.payloadFormat.digest bytes := by
  obtain ⟨bytes, hbytes, hdigest⟩ := Option.map_eq_some_iff.mp
    (digest_of_sign_mem decidedBy_prepareClaim (notesOnly_prepareClaim request) h)
  exact ⟨bytes, hbytes, hdigest.symm⟩

theorem payload_of_register_signed {request : RegisterRequest}
    (h : .sign digest ∈ (service.register request).events) :
    ∃ bytes, service.registerPayload? request = some bytes
      ∧ digest = service.settings.payloadFormat.digest bytes := by
  obtain ⟨bytes, hbytes, hdigest⟩ := Option.map_eq_some_iff.mp
    (digest_of_sign_mem decidedBy_prepareRegister (notesOnly_prepareRegister request) h)
  exact ⟨bytes, hbytes, hdigest.symm⟩

theorem claim_refused_iff {request : ClaimRequest} {error : ApprovalError} :
    (service.claim request).result = .error error ↔
      (claimSteps ++ [ClaimStep.signing]).findSome? (service.claimFault request) = some error :=
  (claim_firstFaultDecides service.settings service.ledger service.signer request).refused_iff error

end

/-- **The first fault decides.** Every claim and every registration is refused for the first fault
among its steps, taken one by one, and approved if there is none. The signer comes behind all of
them: it is asked at most once, for the digest of the payload, and another one changes no refusal
but its own. -/
theorem first_fault_decides (settings : ApprovalSettings) (ledger : Ledger) (signer : Signer) :
    (∀ request, FirstFaultDecides (fun signer => (mk settings ledger signer).claim request) signer
      (claimSteps ++ [.signing]) ((mk settings ledger signer).claimFault request)
      (((mk settings ledger signer).claimPayload? request).map settings.payloadFormat.digest))
    ∧ ∀ request, FirstFaultDecides (fun signer => (mk settings ledger signer).register request)
      signer (registerSteps ++ [.signing]) ((mk settings ledger signer).registerFault request)
      (((mk settings ledger signer).registerPayload? request).map
        settings.payloadFormat.digest) := by
  constructor
  · exact claim_firstFaultDecides settings ledger signer
  · exact register_firstFaultDecides settings ledger signer

end ApprovalService

end TokenApproval
