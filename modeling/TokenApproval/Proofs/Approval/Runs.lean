import TokenApproval.Approval.Service

/-!
# How runs end

A run is started on a log of events and, when no step refuses, ends with a value and a longer log.
`Run.Returns` says so for one run, and `returns_bind_iff` splits a sequence of runs where its first
part ends. Every step of the service then has one lemma that says when it returns and what it
notes, so that a whole approval is taken apart without opening a step again.
-/

namespace TokenApproval

namespace Run

variable {ε α β : Type} {log log' : List Event}

/-- Started on `log`, the run ends with `value` and leaves `log'`. -/
def Returns (run : Run α) (log : List Event) (value : α) (log' : List Event) : Prop :=
  run.run.run log = (.ok value, log')

theorem result_eq_ok_iff {run : Run α} {value : α} :
    run.result = .ok value ↔ ∃ log, run.Returns [] value log := by
  constructor
  · intro h
    exact ⟨(run.run.run []).2, Prod.ext h rfl⟩
  · rintro ⟨log, h⟩
    show (run.run.run []).1 = .ok value
    rw [h]

theorem result_congr {run other : Run α} (h : run.outcome = other.outcome) :
    run.result = other.result :=
  congrArg Prod.fst h

theorem events_of_returns {run : Run α} {value : α} (h : run.Returns [] value log) :
    run.events = log.reverse := by
  show (run.run.run []).2.reverse = log.reverse
  rw [h]

/-! ## Sequences -/

theorem returns_pure_iff {a b : α} :
    (pure a : Run α).Returns log b log' ↔ b = a ∧ log' = log := by
  show ((.ok a, log) : Except ApprovalError α × List Event) = (.ok b, log') ↔ _
  rw [Prod.mk.injEq, Except.ok.injEq, eq_comm, @eq_comm _ log]

theorem not_returns_throw {error : ApprovalError} {a : α} :
    ¬ (throw error : Run α).Returns log a log' := by
  intro h
  have hresult : (Except.error error : Except ApprovalError α) = .ok a := congrArg Prod.fst h
  cases hresult

/-- A sequence goes on from the log that its first part left, unless that part was refused. -/
theorem run_bind (first : Run α) (next : α → Run β) (log : List Event) :
    (first >>= next).run.run log =
      match first.run.run log with
      | (.ok a, mid) => (next a).run.run mid
      | (.error error, mid) => (.error error, mid) := by
  simp only [bind, ExceptT.bind, ExceptT.mk, ExceptT.run, StateT.run, StateT.bind]
  rcases first log with ⟨_ | _, _⟩ <;> rfl

/-- A sequence ends where its second part ends, started on the log that the first part left. -/
theorem returns_bind_iff {first : Run α} {next : α → Run β} {b : β} :
    (first >>= next).Returns log b log' ↔
      ∃ a mid, first.Returns log a mid ∧ (next a).Returns mid b log' := by
  unfold Returns
  rw [run_bind]
  constructor
  · intro h
    rcases hfirst : first.run.run log with ⟨error | a, mid⟩
    · rw [hfirst] at h
      cases congrArg Prod.fst h
    · rw [hfirst] at h
      exact ⟨a, mid, rfl, h⟩
  · rintro ⟨a, mid, hfirst, hnext⟩
    rw [hfirst]
    exact hnext

/-- What stands behind a refusal or a run stands behind the run. -/
theorem unless_bind {cause : Prop} [Decidable cause] (error : ApprovalError) (run : Run α)
    (next : α → Run β) :
    (if cause then throw error else run) >>= next =
      if cause then throw error else run >>= next := by
  split
  · rfl
  · rfl

/-- A run behind a refusal returns if there is no cause to refuse. -/
theorem returns_unless_iff {cause : Prop} [Decidable cause] {error : ApprovalError} {run : Run α}
    {a : α} :
    (if cause then throw error else run : Run α).Returns log a log' ↔
      ¬ cause ∧ run.Returns log a log' := by
  split
  · next hcause => simp [not_returns_throw, hcause]
  · next hcause => simp [hcause]

theorem returns_note_iff {event : Event} {u : Unit} :
    (note event).Returns log u log' ↔ log' = event :: log := by
  show ((.ok (), event :: log) : Except ApprovalError Unit × List Event) = (.ok u, log') ↔ _
  rw [Prod.mk.injEq, @eq_comm _ log']
  simp

theorem returns_lift_iff {refusal : ε → ApprovalError} {x : Except ε α} {a : α} :
    (lift refusal x).Returns log a log' ↔ x = .ok a ∧ log' = log := by
  cases x with
  | error error => simp [lift, not_returns_throw]
  | ok value => rw [lift, returns_pure_iff, Except.ok.injEq, @eq_comm _ a]

/-- A noted look-up returns what it finds, and notes that it was made. -/
theorem returns_noted_iff {event : Event} {refusal : ε → ApprovalError} {x : Except ε α} {a : α} :
    (do note event; lift refusal x : Run α).Returns log a log' ↔
      x = .ok a ∧ log' = event :: log := by
  rw [returns_bind_iff]
  constructor
  · rintro ⟨_, mid, hnote, hlift⟩
    obtain rfl := returns_note_iff.mp hnote
    exact returns_lift_iff.mp hlift
  · rintro ⟨hx, rfl⟩
    exact ⟨(), _, returns_note_iff.mpr rfl, returns_lift_iff.mpr ⟨hx, rfl⟩⟩

/-- What stands behind a result that is taken over is reached with this result only. -/
theorem lift_bind_congr {refusal : ε → ApprovalError} {x : Except ε α} {next other : α → Run β}
    (h : ∀ a, x = .ok a → next a = other a) :
    lift refusal x >>= next = lift refusal x >>= other := by
  cases x with
  | error error => rfl
  | ok a => exact h a rfl

/-! ## Refusals -/

/-- Started on `log`, the run is refused with `error` and leaves `log'`. -/
def Refuses (run : Run α) (log : List Event) (error : ApprovalError) (log' : List Event) : Prop :=
  run.run.run log = (.error error, log')

theorem returns_or_refuses (run : Run α) (log : List Event) :
    (∃ value log', run.Returns log value log') ∨ ∃ error log', run.Refuses log error log' := by
  rcases hrun : run.run.run log with ⟨error | value, log'⟩
  · exact .inr ⟨error, log', hrun⟩
  · exact .inl ⟨value, log', hrun⟩

theorem outcome_of_returns {run : Run α} {value : α} (h : run.Returns [] value log) :
    run.outcome = (.ok value, log.reverse) := by
  rw [Returns] at h
  rw [outcome, h]

theorem outcome_of_refuses {run : Run α} {error : ApprovalError} (h : run.Refuses [] error log) :
    run.outcome = (.error error, log.reverse) := by
  rw [Refuses] at h
  rw [outcome, h]

theorem refuses_throw (error : ApprovalError) (log : List Event) :
    (throw error : Run α).Refuses log error log :=
  rfl

theorem refuses_lift {refusal : ε → ApprovalError} {x : Except ε α} {error : ε}
    (h : x = .error error) (log : List Event) :
    (lift refusal x).Refuses log (refusal error) log := by
  rw [h]
  exact refuses_throw _ _

/-- A refused first part refuses a sequence. -/
theorem refuses_bind_of_refuses {first : Run α} {next : α → Run β} {error : ApprovalError}
    (h : first.Refuses log error log') : (first >>= next).Refuses log error log' := by
  rw [Refuses] at h ⊢
  rw [run_bind, h]

/-- A sequence is refused where its second part is, started on the log that the first part left. -/
theorem refuses_bind_of_returns {first : Run α} {next : α → Run β} {a : α} {mid : List Event}
    {error : ApprovalError} (h : first.Returns log a mid)
    (hnext : (next a).Refuses mid error log') : (first >>= next).Refuses log error log' := by
  rw [Returns] at h
  rw [Refuses, run_bind, h]
  exact hnext

theorem refuses_noted {event : Event} {refusal : ε → ApprovalError} {x : Except ε α} {error : ε}
    (h : x = .error error) (log : List Event) :
    (do note event; lift refusal x : Run α).Refuses log (refusal error) (event :: log) :=
  refuses_bind_of_returns (a := ()) (returns_note_iff.mpr rfl) (refuses_lift h _)

/-! ## What a run may note -/

/-- Whatever the log, the run adds to it only events with a property. -/
def NotesOnly (p : Event → Prop) (run : Run α) : Prop :=
  ∀ log, ∃ notes, (run.run.run log).2 = notes ++ log ∧ ∀ event ∈ notes, p event

variable {p : Event → Prop}

theorem notesOnly_pure (a : α) : (pure a : Run α).NotesOnly p :=
  fun _ => ⟨[], rfl, by simp⟩

theorem notesOnly_throw (error : ApprovalError) : (throw error : Run α).NotesOnly p :=
  fun _ => ⟨[], rfl, by simp⟩

theorem notesOnly_note {event : Event} (h : p event) : (note event).NotesOnly p :=
  fun _ => ⟨[event], rfl, by simpa using h⟩

theorem notesOnly_lift (refusal : ε → ApprovalError) (x : Except ε α) :
    (lift refusal x).NotesOnly p := by
  cases x with
  | error error => exact notesOnly_throw _
  | ok a => exact notesOnly_pure a

theorem notesOnly_bind {first : Run α} {next : α → Run β} (hfirst : first.NotesOnly p)
    (hnext : ∀ a, (next a).NotesOnly p) : (first >>= next).NotesOnly p := by
  intro log
  obtain ⟨notes, hnotes, hp⟩ := hfirst log
  rw [run_bind]
  rcases hrun : first.run.run log with ⟨error | a, mid⟩
  · rw [hrun] at hnotes
    exact ⟨notes, hnotes, hp⟩
  · rw [hrun] at hnotes
    obtain rfl : mid = notes ++ log := hnotes
    obtain ⟨more, hmore, hq⟩ := hnext a (notes ++ log)
    refine ⟨more ++ notes, by rw [List.append_assoc]; exact hmore, ?_⟩
    intro event hevent
    rcases List.mem_append.mp hevent with hevent | hevent
    · exact hq event hevent
    · exact hp event hevent

theorem notesOnly_noted {event : Event} (refusal : ε → ApprovalError) (x : Except ε α)
    (h : p event) : (do note event; lift refusal x : Run α).NotesOnly p :=
  notesOnly_bind (notesOnly_note h) fun _ => notesOnly_lift refusal x

theorem notesOnly_ite {cause : Prop} [Decidable cause] {run other : Run α}
    (hrun : run.NotesOnly p) (hother : other.NotesOnly p) :
    (if cause then run else other).NotesOnly p := by
  split
  · exact hrun
  · exact hother

/-- Started on an empty log, a run leaves only such events. -/
theorem NotesOnly.of_mem_log {run : Run α} (h : run.NotesOnly p)
    (hlog : (run.run.run []).2 = log) : ∀ event ∈ log, p event := by
  obtain ⟨notes, hnotes, hp⟩ := h []
  rw [hlog, List.append_nil] at hnotes
  rw [hnotes]
  exact hp

end Run

/-! ## Whom a request names -/

/-- The request is valid, and its key is that of the account. -/
def Scheme.Recovers (scheme : Scheme) (validated : Except RequestFault ValidRequest)
    (address : AccountId) : Prop :=
  ∃ valid key, validated = .ok valid ∧ scheme.identify valid.publicKey.bytes = .ok (address, key)

/-! ## The steps of the service -/

namespace ApprovalService

open Secp256k1 (PublicKey)

variable {service : ApprovalService} {log log' : List Event}

theorem returns_lookupAccount_iff {address : AccountId} {account : Account} :
    (service.lookupAccount address).Returns log account log' ↔
      service.ledger.account address = .ok account ∧ log' = .account address :: log :=
  Run.returns_noted_iff

theorem returns_lookupProof_iff {address : AccountId} {denom : String} {index : UInt32}
    {proof : Proof} :
    (service.lookupProof address denom index).Returns log proof log' ↔
      service.ledger.proof address denom index = .ok proof
        ∧ log' = .proof address index denom :: log :=
  Run.returns_noted_iff

theorem returns_lookupAsset_iff {denom : String} {asset : Asset} :
    (service.lookupAsset denom).Returns log asset log' ↔
      service.ledger.asset denom = .ok asset ∧ log' = .asset denom :: log :=
  Run.returns_noted_iff

theorem returns_lookupStateRoot_iff {root : StateRoot} :
    service.lookupStateRoot.Returns log root log' ↔
      service.ledger.stateRoot = .ok root ∧ log' = .stateRoot :: log :=
  Run.returns_noted_iff

theorem returns_sign_iff {digest : Octets 32} {signature : Octets approvalSignatureLength} :
    (service.sign digest).Returns log signature log' ↔
      service.signer.sign digest = .ok signature ∧ log' = .sign digest :: log :=
  Run.returns_noted_iff

theorem returns_identify_iff {request : ValidRequest} {found : AccountId × PublicKey} :
    (service.identify request).Returns log found log' ↔
      service.settings.scheme.identify request.publicKey.bytes = .ok found ∧ log' = log :=
  Run.returns_lift_iff

theorem returns_checkWhitelist_iff {account : AccountId} {u : Unit} :
    (service.checkWhitelist account).Returns log u log' ↔
      service.settings.whitelist.allows account = true ∧ log' = log := by
  unfold checkWhitelist
  split
  · next hallowed => simp [Run.returns_pure_iff, hallowed]
  · next hallowed => simp [Run.not_returns_throw, hallowed]

theorem returns_checkOwnership_iff {kind : RequestKind} {amount : Int64} {key : PublicKey}
    {request : ValidRequest} {u : Unit} :
    (service.checkOwnership kind amount key request).Returns log u log' ↔
      checkSignature key request.signature.bytes
          (service.settings.scheme.messageHash (service.signDoc kind amount request).bytes) = .ok ()
        ∧ log' = log :=
  Run.returns_lift_iff

theorem returns_coinAt_iff {account : Account} {index : Nat} {coin : Coin} :
    (coinAt account index).Returns log coin log' ↔
      account.balances[index]? = some coin ∧ log' = log := by
  unfold coinAt
  split
  · next hnone => simp [Run.not_returns_throw, hnone]
  · next found hsome => rw [Run.returns_pure_iff, hsome, Option.some.injEq, @eq_comm _ coin]

/-- The warning that a run notes for a leaf, if any. -/
def warnings (service : ApprovalService) (account : AccountId) (denom : String) (leaf : Leaf)
    (proof : Proof) (root : StateRoot) : List Event :=
  if MerkleTree.verifyProof leaf.hash proof.siblings root.octets then []
  else [.strayProof (service.settings.network.formatAccount account) denom leaf.hash]

theorem returns_warnOfStrayProof_iff {account : AccountId} {denom : String} {leaf : Leaf}
    {proof : Proof} {root : StateRoot} {u : Unit} :
    (service.warnOfStrayProof account denom leaf proof root).Returns log u log' ↔
      log' = service.warnings account denom leaf proof root ++ log := by
  unfold warnOfStrayProof warnings
  split
  · simp [Run.returns_pure_iff]
  · exact Run.returns_note_iff

end ApprovalService

end TokenApproval
