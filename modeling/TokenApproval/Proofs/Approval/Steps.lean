import TokenApproval.Proofs.Approval.Runs
import TokenApproval.Proofs.Outcome

/-!
# Runs that are decided by steps

An approval goes through steps, and every step has a fault or none, whatever the others have.
`Run.DecidedBy` says of the part of a run that comes before the signature that the first fault
refuses it, and each of its rules takes one step off the front. The signature is the last step of
every approval: `firstFaultDecides` adds it, and so says of a whole approval by whom it is decided
(`FirstFaultDecides`).
-/

namespace TokenApproval

def faultOf {ε α : Type} (refusal : ε → ApprovalError) : Except ε α → Option ApprovalError
  | .error error => some (refusal error)
  | .ok _ => none

section

variable {ε α β : Type} {refusal other : ε → ApprovalError} {x : Except ε α}

/-- Where two refusals take every error of a step for the same, so does its fault. -/
theorem faultOf_congr (h : Outcome.ErrsOnly (fun error => refusal error = other error) x) :
    faultOf refusal x = faultOf other x := by
  cases x with
  | error error => exact congrArg some (h error rfl)
  | ok value => rfl

theorem faultOf_map (f : α → β) : faultOf refusal (x.map f) = faultOf refusal x := by
  cases x <;> rfl

end

/-! ## Kinds of faults -/

/-- There is no fault, or it is one of the kind. -/
def FaultOnly (p : ApprovalError → Prop) (fault? : Option ApprovalError) : Prop :=
  ∀ error, fault? = some error → p error

/-- There is no fault, or it is another one than a failure to sign. -/
def NotSigning (fault? : Option ApprovalError) : Prop :=
  ∀ cause, fault? ≠ some (.signingFailed cause)

/-- The refusal is by a check of the service: neither did the signer fail, nor was a balance looked
up past the last one. -/
def ApprovalError.Checked : ApprovalError → Prop
  | .signingFailed _ => False
  | .internal _ => False
  | _ => True

section

variable {ε α : Type} {p : ApprovalError → Prop}

theorem faultOnly_none : FaultOnly p none := nofun

theorem faultOnly_some {error : ApprovalError} (h : p error) : FaultOnly p (some error) := by
  rintro _ ⟨⟩
  exact h

theorem faultOnly_bind {found? : Option α} {fault? : α → Option ApprovalError}
    (h : ∀ found, FaultOnly p (fault? found)) : FaultOnly p (found? >>= fault?) := by
  cases found? with
  | none => exact faultOnly_none
  | some found => exact h found

theorem faultOnly_ite {cause : Prop} [Decidable cause] {fault? other? : Option ApprovalError}
    (hfault : FaultOnly p fault?) (hother : FaultOnly p other?) :
    FaultOnly p (if cause then fault? else other?) := by
  split
  · exact hfault
  · exact hother

theorem faultOnly_faultOf {refusal : ε → ApprovalError} (x : Except ε α)
    (h : ∀ error, p (refusal error)) : FaultOnly p (faultOf refusal x) := by
  cases x with
  | error error => exact faultOnly_some (h error)
  | ok value => exact faultOnly_none

theorem FaultOnly.notSigning {fault? : Option ApprovalError}
    (h : FaultOnly ApprovalError.Checked fault?) : NotSigning fault? :=
  fun cause hfault => h (.signingFailed cause) hfault

end

namespace Run

variable {ε α β Step : Type} {log log' : List Event} {step : Step} {steps : List Step}
  {fault : Step → Option ApprovalError} {digest? : Option (Octets 32)}

/-! ## Up to the signature -/

/-- Started on `log`, the run is refused for the first fault of the steps, or none of them has a
fault and what it returns is of the digest. -/
def DecidedBy (run : Run (Prepared α)) (log : List Event) (steps : List Step)
    (fault : Step → Option ApprovalError) (digest? : Option (Octets 32)) : Prop :=
  (∃ error log', run.Refuses log error log' ∧ steps.findSome? fault = some error)
    ∨ ∃ prepared log', run.Returns log prepared log' ∧ steps.findSome? fault = none
      ∧ digest? = some prepared.digest

theorem decidedBy_pure {prepared : Prepared α} (h : digest? = some prepared.digest) :
    (pure prepared : Run (Prepared α)).DecidedBy log ([] : List Step) fault digest? :=
  .inr ⟨prepared, log, rfl, rfl, h⟩

theorem decidedBy_throw {error : ApprovalError} (hfault : fault step = some error) :
    (throw error : Run (Prepared α)).DecidedBy log (step :: steps) fault digest? :=
  .inl ⟨error, log, refuses_throw error log, by rw [List.findSome?_cons, hfault]⟩

theorem DecidedBy.passed {run : Run (Prepared α)} (h : run.DecidedBy log steps fault digest?)
    (hfault : fault step = none) : run.DecidedBy log (step :: steps) fault digest? := by
  unfold DecidedBy at h ⊢
  rw [List.findSome?_cons, hfault]
  exact h

theorem DecidedBy.of_refuses {run : Run (Prepared α)} {error : ApprovalError}
    (h : run.DecidedBy log steps fault digest?) (hrefuses : run.Refuses log error log') :
    steps.findSome? fault = some error := by
  rcases h with ⟨other, final, hother, hfault⟩ | ⟨prepared, final, hreturns, -⟩
  · obtain ⟨herror, -⟩ := Prod.mk.inj (hother.symm.trans hrefuses)
    rw [hfault, Except.error.inj herror]
  · cases hreturns.symm.trans hrefuses

theorem DecidedBy.of_returns {run : Run (Prepared α)} {prepared : Prepared α}
    (h : run.DecidedBy log steps fault digest?) (hreturns : run.Returns log prepared log') :
    steps.findSome? fault = none ∧ digest? = some prepared.digest := by
  rcases h with ⟨error, final, hrefuses, -⟩ | ⟨other, final, hother, hfault, hdigest⟩
  · cases hrefuses.symm.trans hreturns
  · obtain ⟨hprepared, -⟩ := Prod.mk.inj (hother.symm.trans hreturns)
    rw [← Except.ok.inj hprepared]
    exact ⟨hfault, hdigest⟩

variable {first : Run β} {next : β → Run (Prepared α)}

theorem decidedBy_bind_of_refuses {error : ApprovalError} (hfirst : first.Refuses log error log')
    (hfault : fault step = some error) :
    (first >>= next).DecidedBy log (step :: steps) fault digest? :=
  .inl ⟨error, log', refuses_bind_of_refuses hfirst, by rw [List.findSome?_cons, hfault]⟩

theorem decidedBy_bind_of_returns {b : β} (hfirst : first.Returns log b log')
    (hnext : (next b).DecidedBy log' steps fault digest?) :
    (first >>= next).DecidedBy log steps fault digest? := by
  rcases hnext with ⟨error, final, hrefuses, hfault⟩ | ⟨prepared, final, hreturns, hfault, hdigest⟩
  · exact .inl ⟨error, final, refuses_bind_of_returns hfirst hrefuses, hfault⟩
  · exact .inr ⟨prepared, final, returns_bind_iff.mpr ⟨b, log', hfirst, hreturns⟩, hfault, hdigest⟩

/-- A step that refuses upon a cause. -/
theorem decidedBy_unless {cause : Prop} [Decidable cause] {error : ApprovalError}
    {run : Run (Prepared α)} (hrefused : cause → fault step = some error)
    (hpassed : ¬ cause → fault step = none)
    (hrun : ¬ cause → run.DecidedBy log steps fault digest?) :
    (if cause then throw error else run).DecidedBy log (step :: steps) fault digest? := by
  by_cases hcause : cause
  · rw [if_pos hcause]
    exact decidedBy_throw (hrefused hcause)
  · rw [if_neg hcause]
    exact (hrun hcause).passed (hpassed hcause)

/-- Steps that together make up a result that is taken over. -/
theorem decidedBy_lift_steps {refusal : ε → ApprovalError} {x : Except ε β} (made : List Step)
    (hfault : made.findSome? fault = faultOf refusal x)
    (hnext : ∀ b, x = .ok b → (next b).DecidedBy log steps fault digest?) :
    (lift refusal x >>= next).DecidedBy log (made ++ steps) fault digest? := by
  unfold DecidedBy
  rw [List.findSome?_append, hfault]
  cases hx : x with
  | error error =>
    exact .inl ⟨refusal error, log, refuses_bind_of_refuses (refuses_throw _ _), rfl⟩
  | ok b => exact decidedBy_bind_of_returns (returns_pure_iff.mpr ⟨rfl, rfl⟩) (hnext b hx)

/-- A step that takes over a result. -/
theorem decidedBy_lift {refusal : ε → ApprovalError} {x : Except ε β}
    (hfault : fault step = faultOf refusal x)
    (hnext : ∀ b, x = .ok b → (next b).DecidedBy log steps fault digest?) :
    (lift refusal x >>= next).DecidedBy log (step :: steps) fault digest? :=
  decidedBy_lift_steps [step] (List.findSome?_singleton.trans hfault) hnext

/-- A step that notes a look-up and takes over its result. -/
theorem decidedBy_noted {event : Event} {refusal : ε → ApprovalError} {x : Except ε β}
    (hfault : fault step = faultOf refusal x)
    (hnext : ∀ b, x = .ok b → (next b).DecidedBy (event :: log) steps fault digest?) :
    ((do note event; lift refusal x) >>= next).DecidedBy log (step :: steps) fault digest? := by
  cases hx : x with
  | error error =>
    rw [hx] at hfault
    exact decidedBy_bind_of_refuses (refuses_noted rfl log) hfault
  | ok b =>
    rw [hx] at hfault
    exact decidedBy_bind_of_returns (returns_noted_iff.mpr ⟨rfl, rfl⟩) ((hnext b hx).passed hfault)

end Run

/-! ## The signature -/

namespace ApprovalService

variable {α Step : Type} {service : ApprovalService}

/-- The event is none of the signer. -/
def Unsigned (event : Event) : Prop := ∀ digest, event ≠ .sign digest

/-- A request that is refused before the signature leaves the signer alone. -/
theorem outcome_approve_of_refuses {prepare : Run (Prepared α)} {error : ApprovalError}
    {log : List Event} (h : prepare.Refuses [] error log) :
    (prepare >>= service.approve).outcome = (.error error, log.reverse) :=
  Run.outcome_of_refuses (Run.refuses_bind_of_refuses h)

/-- Where nothing refuses a request before the signature, the signer decides. -/
theorem outcome_approve_of_returns {prepare : Run (Prepared α)} {prepared : Prepared α}
    {log : List Event} (h : prepare.Returns [] prepared log) :
    (prepare >>= service.approve).outcome =
      (match service.signer.sign prepared.digest with
        | .error cause => .error (.signingFailed cause)
        | .ok signature => .ok (prepared.answer signature),
      log.reverse ++ [.sign prepared.digest]) := by
  rw [← List.reverse_cons]
  cases hsign : service.signer.sign prepared.digest with
  | error cause =>
    have hrefuses : (service.sign prepared.digest).Refuses log (.signingFailed cause)
        (.sign prepared.digest :: log) := Run.refuses_noted hsign log
    exact Run.outcome_of_refuses
      (Run.refuses_bind_of_returns h (Run.refuses_bind_of_refuses hrefuses))
  | ok signature =>
    have hreturns := returns_sign_iff.mpr ⟨hsign, Eq.refl (.sign prepared.digest :: log)⟩
    exact Run.outcome_of_returns (Run.returns_bind_iff.mpr ⟨_, _, h,
      Run.returns_bind_iff.mpr ⟨_, _, hreturns, Run.returns_pure_iff.mpr ⟨rfl, rfl⟩⟩⟩)

/-- A digest reaches the signer only as that of what the steps prepared. -/
theorem digest_of_sign_mem {steps : List Step} {fault : Step → Option ApprovalError}
    {digest? : Option (Octets 32)} {prepare : Run (Prepared α)} {digest : Octets 32}
    (hdecided : prepare.DecidedBy [] steps fault digest?) (hnotes : prepare.NotesOnly Unsigned)
    (hsign : .sign digest ∈ (prepare >>= service.approve).events) : digest? = some digest := by
  have hunsigned := fun hmem => hnotes.of_mem_log rfl (.sign digest) hmem digest rfl
  rcases hdecided with ⟨error, log, hrefuses, -⟩ | ⟨prepared, log, hreturns, -, hdigest⟩
  · rw [Run.events, outcome_approve_of_refuses hrefuses, List.mem_reverse] at hsign
    rw [Run.Refuses] at hrefuses
    rw [hrefuses] at hunsigned
    exact absurd hsign hunsigned
  · rw [Run.events, outcome_approve_of_returns hreturns, List.mem_append, List.mem_reverse,
      List.mem_singleton] at hsign
    rw [Run.Returns] at hreturns
    rw [hreturns] at hunsigned
    rcases hsign with hsign | hsign
    · exact absurd hsign hunsigned
    · rw [hdigest, Event.sign.inj hsign]

/-! ## Whole approvals -/

/-- How a request ends with a signer, if `run` has it approved with any: it is decided by steps, the
last of which is the signature of the digest. -/
structure FirstFaultDecides (run : Signer → Run α) (signer : Signer) (steps : List Step)
    (fault : Step → Option ApprovalError) (digest? : Option (Octets 32)) : Prop where
  /-- The refusal is the fault of the first step that has one. -/
  refused_iff : ∀ error,
    (run signer).result = .error error ↔ steps.findSome? fault = some error
  /-- Every signer gives the same refusal, behind the same events, unless signing failed. -/
  same_refusal : ∀ error, (run signer).result = .error error →
    (∀ cause, error ≠ .signingFailed cause) → ∀ other, (run other).outcome = (run signer).outcome
  /-- An approval or a failure to sign comes behind everything else, and after one signature. -/
  signed_last :
    (∃ response, (run signer).result = .ok response)
      ∨ (∃ cause, (run signer).result = .error (.signingFailed cause)) →
    ∃ notes digest, digest? = some digest ∧ (run signer).events = notes ++ [.sign digest]
      ∧ ∀ other, .sign other ∉ notes
  /-- The signer is not asked upon any other refusal. -/
  unsigned : ∀ error, (run signer).result = .error error →
    (∀ cause, error ≠ .signingFailed cause) → ∀ digest, .sign digest ∉ (run signer).events

variable {run : Signer → Run α} {signer : Signer} {steps : List Step}
  {fault : Step → Option ApprovalError} {digest? : Option (Octets 32)} {notes : List Event}

/-- If no signer is asked, the one refusal is that of every run. -/
theorem firstFaultDecides_of_refused {error : ApprovalError}
    (houtcome : ∀ signer, (run signer).outcome = (.error error, notes))
    (hfault : steps.findSome? fault = some error) (hsigning : ∀ cause, error ≠ .signingFailed cause)
    (hnotes : ∀ event ∈ notes, Unsigned event) :
    FirstFaultDecides run signer steps fault digest? := by
  have hresult : (run signer).result = .error error := congrArg Prod.fst (houtcome signer)
  have hevents : (run signer).events = notes := congrArg Prod.snd (houtcome signer)
  constructor
  case refused_iff =>
    intro other
    rw [hresult, hfault, Except.error.injEq, Option.some.injEq]
  case same_refusal =>
    intro _ _ _ other
    rw [houtcome, houtcome]
  case signed_last =>
    rw [hresult]
    rintro (⟨response, h⟩ | ⟨cause, h⟩)
    · cases h
    · exact absurd (Except.error.inj h) (hsigning cause)
  case unsigned =>
    intro _ _ _ digest hmem
    rw [hevents] at hmem
    exact hnotes _ hmem digest rfl

/-- If every signer is asked, a run ends as its signer does. -/
theorem firstFaultDecides_of_prepared {prepared : Prepared α}
    (houtcome : (run signer).outcome =
      (match signer.sign prepared.digest with
        | .error cause => .error (.signingFailed cause)
        | .ok signature => .ok (prepared.answer signature),
      notes ++ [.sign prepared.digest]))
    (hfault : steps.findSome? fault = faultOf .signingFailed (signer.sign prepared.digest))
    (hdigest : digest? = some prepared.digest) (hnotes : ∀ event ∈ notes, Unsigned event) :
    FirstFaultDecides run signer steps fault digest? := by
  have hresult : (run signer).result = _ := congrArg Prod.fst houtcome
  have hrefused : ∀ error, (run signer).result = .error error ↔
      ∃ cause, signer.sign prepared.digest = .error cause ∧ error = .signingFailed cause := by
    intro error
    rw [hresult]
    cases signer.sign prepared.digest with
    | error cause => simp [eq_comm]
    | ok signature => simp
  constructor
  case refused_iff =>
    intro error
    rw [hrefused, hfault]
    cases signer.sign prepared.digest with
    | error cause => simp [faultOf, eq_comm]
    | ok signature => simp [faultOf]
  case same_refusal =>
    intro error h hother
    obtain ⟨cause, -, rfl⟩ := (hrefused error).mp h
    exact absurd rfl (hother cause)
  case signed_last =>
    intro _
    exact ⟨notes, prepared.digest, hdigest, congrArg Prod.snd houtcome,
      fun other hmem => hnotes _ hmem other rfl⟩
  case unsigned =>
    intro error h hother
    obtain ⟨cause, -, rfl⟩ := (hrefused error).mp h
    exact absurd rfl (hother cause)

/-- A request that is prepared step by step and then signed is decided by its first fault, if none
of these steps fails as a signature does. -/
theorem firstFaultDecides {settings : ApprovalSettings} {ledger : Ledger}
    {prepare : Run (Prepared α)} {last : Step}
    (hrun : ∀ signer, run signer = prepare >>= (ApprovalService.mk settings ledger signer).approve)
    (hdecided : prepare.DecidedBy [] steps fault digest?) (hnotes : prepare.NotesOnly Unsigned)
    (hsteps : ∀ step ∈ steps, NotSigning (fault step))
    (hlast : fault last =
      digest?.bind fun digest => faultOf .signingFailed (signer.sign digest)) :
    FirstFaultDecides run signer (steps ++ [last]) fault digest? := by
  have hunsigned : ∀ {log : List Event}, (prepare.run.run []).2 = log →
      ∀ event ∈ log.reverse, Unsigned event := by
    intro log hlog event hevent
    exact hnotes.of_mem_log hlog event (List.mem_reverse.mp hevent)
  -- the preparation does not depend on the signer, so its outcome is the same for all of them
  rcases prepare.returns_or_refuses [] with ⟨prepared, log, hreturns⟩ | ⟨error, log, hrefuses⟩
  · obtain ⟨hnone, hdigest⟩ := hdecided.of_returns hreturns
    refine firstFaultDecides_of_prepared ?_ ?_ hdigest (hunsigned (congrArg Prod.snd hreturns))
    · rw [hrun]
      exact outcome_approve_of_returns hreturns
    · rw [List.findSome?_append, hnone, List.findSome?_singleton, hlast, hdigest]
      rfl
  · have hfault := hdecided.of_refuses hrefuses
    have houtcome : ∀ signer, (run signer).outcome = (.error error, log.reverse) := by
      intro signer
      rw [hrun]
      exact outcome_approve_of_refuses hrefuses
    refine firstFaultDecides_of_refused houtcome ?_ ?_ (hunsigned (congrArg Prod.snd hrefuses))
    · rw [List.findSome?_append, hfault]
      rfl
    · rintro cause rfl
      obtain ⟨step, hstep, hsigning⟩ := List.exists_of_findSome?_eq_some hfault
      exact hsteps step hstep cause hsigning

end ApprovalService

end TokenApproval
