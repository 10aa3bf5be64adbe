import TokenApproval.Proofs.Approval.Evidence
import TokenApproval.Proofs.Ledger.Consistency

/-!
# Two backends that are offered the same snapshots

A database and a place for a store in memory are offered one snapshot after the other, and each
keeps what it has when it refuses one. A usable snapshot replaces the contents of both, whatever
these were, and any other is refused by both alike and changes nothing. So after every history with
a usable snapshot both sides present the last one (`backends_agree`).
-/

namespace TokenApproval

/-- A database and a place for a store in memory. -/
structure Backends where
  database : KeyValueStore
  slot : Option MemoryStore

namespace Backends

/-- An empty database, and nothing in memory. -/
def start : Backends := ⟨.empty, none⟩

/-- Offers a snapshot to both sides. -/
def offer (backends : Backends) (snapshot : Snapshot) : Backends where
  database :=
    match backends.database.importSnapshot snapshot with
    | .ok database => database
    | .error _ => backends.database
  slot :=
    match MemoryStore.ofSnapshot snapshot with
    | .ok memory => some memory
    | .error _ => backends.slot

/-- Offers snapshots one after the other. -/
def run (history : List Snapshot) : Backends := history.foldl offer start

/-- Both sides take the snapshot, or both refuse it for the same record and keep what they have. -/
def ReplyAlike (backends : Backends) (snapshot : Snapshot) : Prop :=
  (∃ database memory, backends.database.importSnapshot snapshot = .ok database
      ∧ MemoryStore.ofSnapshot snapshot = .ok memory
      ∧ backends.offer snapshot = ⟨database, some memory⟩)
    ∨ ∃ record, backends.database.importSnapshot snapshot = .error (.repeated record)
      ∧ MemoryStore.ofSnapshot snapshot = .error (.repeated record)
      ∧ backends.offer snapshot = backends

/-! ## One snapshot -/

theorem importSnapshot_of_unique (store : KeyValueStore) {snapshot : Snapshot}
    (h : snapshot.checkUnique = .ok ()) :
    store.importSnapshot snapshot = .ok (KeyValueStore.empty.putSnapshot snapshot) := by
  rw [KeyValueStore.importSnapshot, h, KeyValueStore.clear_eq_empty]
  rfl

theorem importSnapshot_of_error (store : KeyValueStore) {snapshot : Snapshot} {e : LedgerError}
    (h : snapshot.checkUnique = .error e) : store.importSnapshot snapshot = .error e := by
  rw [KeyValueStore.importSnapshot, h]
  rfl

/-- A usable snapshot replaces what both sides hold. -/
theorem offer_of_unique (backends : Backends) {snapshot : Snapshot}
    (h : snapshot.checkUnique = .ok ()) :
    backends.offer snapshot =
      ⟨KeyValueStore.empty.putSnapshot snapshot, some ⟨snapshot, h⟩⟩ := by
  have hmemory : MemoryStore.ofSnapshot snapshot = .ok ⟨snapshot, h⟩ :=
    MemoryStore.ofSnapshot_eq_ok_iff.mpr rfl
  rw [offer, importSnapshot_of_unique backends.database h, hmemory]

/-- A refused snapshot changes nothing. -/
theorem offer_of_error (backends : Backends) {snapshot : Snapshot} {e : LedgerError}
    (h : snapshot.checkUnique = .error e) : backends.offer snapshot = backends := by
  rw [offer, importSnapshot_of_error backends.database h,
    MemoryStore.ofSnapshot_eq_error_iff.mpr h]

theorem replyAlike (backends : Backends) (snapshot : Snapshot) : backends.ReplyAlike snapshot := by
  rcases snapshot.checkUnique_cases with ⟨hunique, -⟩ | ⟨⟨record, herror⟩, -⟩
  · exact .inl ⟨_, ⟨snapshot, hunique⟩, importSnapshot_of_unique backends.database hunique,
      MemoryStore.ofSnapshot_eq_ok_iff.mpr rfl, offer_of_unique backends hunique⟩
  · exact .inr ⟨record, importSnapshot_of_error backends.database herror,
      MemoryStore.ofSnapshot_eq_error_iff.mpr herror, offer_of_error backends herror⟩

/-! ## Histories -/

theorem foldl_offer_of_refused {history : List Snapshot}
    (h : ∀ snapshot ∈ history, snapshot.checkUnique ≠ .ok ()) (backends : Backends) :
    history.foldl offer backends = backends := by
  induction history generalizing backends with
  | nil => rfl
  | cons snapshot history ih =>
    rw [List.foldl_cons]
    rcases snapshot.checkUnique_cases with ⟨hunique, -⟩ | ⟨⟨record, herror⟩, -⟩
    · exact absurd hunique (h snapshot List.mem_cons_self)
    · rw [offer_of_error backends herror]
      exact ih (fun other hother => h other (List.mem_cons_of_mem _ hother)) backends

/-- A history leaves the last usable snapshot on both sides. -/
theorem run_eq {before after : List Snapshot} {latest : Snapshot}
    (hlatest : latest.checkUnique = .ok ()) (hafter : ∀ s ∈ after, s.checkUnique ≠ .ok ()) :
    run (before ++ latest :: after) =
      ⟨KeyValueStore.empty.putSnapshot latest, some ⟨latest, hlatest⟩⟩ := by
  rw [run, List.foldl_append, List.foldl_cons, offer_of_unique _ hlatest,
    foldl_offer_of_refused hafter]

end Backends

/-! ## Approvals on ledgers that agree -/

/-- Approvals read a ledger through its look-ups only. -/
theorem Ledger.Agrees.claim_eq {a b : Ledger} (h : a.Agrees b) (settings : ApprovalSettings)
    (signer : Signer) (request : ClaimRequest) :
    (ApprovalService.mk settings a signer).claim request =
      (ApprovalService.mk settings b signer).claim request := by
  obtain ⟨haccount, hproof, -, hstateRoot, -, -⟩ := h
  simp only [ApprovalService.claim, ApprovalService.prepareClaim, ApprovalService.lookupAccount,
    ApprovalService.lookupProof, ApprovalService.lookupStateRoot, haccount, hproof, hstateRoot]
  rfl

theorem Ledger.Agrees.register_eq {a b : Ledger} (h : a.Agrees b) (settings : ApprovalSettings)
    (signer : Signer) (request : RegisterRequest) :
    (ApprovalService.mk settings a signer).register request =
      (ApprovalService.mk settings b signer).register request := by
  obtain ⟨-, -, hasset, hstateRoot, -, -⟩ := h
  simp only [ApprovalService.register, ApprovalService.prepareRegister, ApprovalService.lookupAsset,
    ApprovalService.lookupStateRoot, hasset, hstateRoot]
  rfl

/-! ## Agreement -/

namespace Backends

/-- Both sides answer for one snapshot, and alike. -/
structure AnswerFor (backends : Backends) (memory : MemoryStore) (snapshot : Snapshot) : Prop where
  slot : backends.slot = some memory
  database_presents : backends.database.ledger.Presents snapshot
  memory_presents : memory.ledger.Presents snapshot
  lookups : backends.database.ledger.Agrees memory.ledger
  claims : ∀ settings signer request,
    ((ApprovalService.mk settings backends.database.ledger signer).claim request).outcome =
      ((ApprovalService.mk settings memory.ledger signer).claim request).outcome
  registrations : ∀ settings signer request,
    ((ApprovalService.mk settings backends.database.ledger signer).register request).outcome =
      ((ApprovalService.mk settings memory.ledger signer).register request).outcome
  /-- A check of the proofs finds the same mismatches. -/
  checks : ∀ encoder, ∃ report report', backends.database.ledger.verify encoder = .ok report
    ∧ memory.ledger.verify encoder = .ok report' ∧ report.accounts = report'.accounts
    ∧ report.proofs = report'.proofs ∧ report.mismatches.Perm report'.mismatches

theorem answerFor_of_presents {backends : Backends} {memory : MemoryStore} {snapshot : Snapshot}
    (hslot : backends.slot = some memory) (hdatabase : backends.database.ledger.Presents snapshot)
    (hmemory : memory.ledger.Presents snapshot) : backends.AnswerFor memory snapshot where
  slot := hslot
  database_presents := hdatabase
  memory_presents := hmemory
  lookups := hdatabase.agrees hmemory
  claims settings signer request :=
    congrArg Run.outcome ((hdatabase.agrees hmemory).claim_eq settings signer request)
  registrations settings signer request :=
    congrArg Run.outcome ((hdatabase.agrees hmemory).register_eq settings signer request)
  checks := hdatabase.verify_agrees hmemory

/-- **Agreement of the backends.** Throughout a history both sides reply alike to every snapshot,
and after one with a usable snapshot both answer for the last of these, and alike. -/
theorem backends_agree {history : List Snapshot}
    (husable : ∃ snapshot ∈ history, snapshot.checkUnique = .ok ()) :
    (∀ before snapshot after, history = before ++ snapshot :: after →
        (run before).ReplyAlike snapshot)
      ∧ ∃ before latest after memory, history = before ++ latest :: after
        ∧ latest.checkUnique = .ok () ∧ (∀ snapshot ∈ after, snapshot.checkUnique ≠ .ok ())
        ∧ (run history).AnswerFor memory latest := by
  refine ⟨fun before snapshot _ _ => (run before).replyAlike snapshot, ?_⟩
  obtain ⟨before, latest, after, rfl, hlatest, hafter⟩ := exists_last husable
  have hrun : run (before ++ latest :: after) = _ := run_eq hlatest hafter
  refine ⟨before, latest, after, ⟨latest, hlatest⟩, rfl, hlatest, hafter, ?_⟩
  apply answerFor_of_presents
  · rw [hrun]
  · rw [hrun]
    exact KeyValueStore.importSnapshot_presents (importSnapshot_of_unique .empty hlatest)
  · exact MemoryStore.ledger_presents ⟨latest, hlatest⟩

end Backends

/-! ## A history

A snapshot, then one that lists its account twice. -/

namespace Sample

/-- The snapshot with its account listed twice. -/
def repeatedSnapshot : Snapshot := { snapshot with accounts := [account, account] }

def history : List Snapshot := [snapshot, repeatedSnapshot]

end Sample

namespace Backends

theorem backends_agree_sample :
    (∃ snapshot ∈ Sample.history, snapshot.checkUnique = .ok ())
      ∧ (run [Sample.snapshot]).ReplyAlike Sample.repeatedSnapshot
      ∧ ∃ memory, (run Sample.history).AnswerFor memory Sample.snapshot := by
  have husable : ∃ snapshot ∈ Sample.history, snapshot.checkUnique = .ok () :=
    ⟨Sample.snapshot, List.mem_cons_self, rfl⟩
  obtain ⟨hreplies, before, latest, after, memory, hhistory, hlatest, -, hanswer⟩ :=
    backends_agree husable
  refine ⟨husable, hreplies [Sample.snapshot] Sample.repeatedSnapshot [] rfl, memory, ?_⟩
  -- the second snapshot is refused, so that the first one is the last usable one
  match before with
  | [] =>
    obtain ⟨rfl, -⟩ := List.cons.inj hhistory
    exact hanswer
  | [first] =>
    obtain ⟨-, hrest⟩ := List.cons.inj hhistory
    obtain ⟨rfl, -⟩ := List.cons.inj hrest
    cases hlatest
  | first :: second :: before =>
    obtain ⟨-, hrest⟩ := List.cons.inj hhistory
    exact absurd (List.cons.inj hrest).2.symm (by simp)

end Backends

end TokenApproval
