import TokenApproval.Ledger.Basic
import TokenApproval.Proofs.Data.Shape
import TokenApproval.Proofs.Ledger.Entries
import TokenApproval.Proofs.Outcome

/-!
# Usable snapshots, and the records that they list

A snapshot is usable exactly if no account and no place of a proof is listed twice. Each of these
records is then the only one of its key; of several assets of one token the last one counts.
-/

namespace TokenApproval

variable {α κ : Type}

namespace Snapshot

/-! ## Usable snapshots -/

/-- No account and no place of a proof is listed twice. -/
structure Unique (snapshot : Snapshot) : Prop where
  accounts : (snapshot.accounts.map Account.address).Nodup
  proofs : (snapshot.proofs.map Proof.key).Nodup

theorem firstRepeated?_eq_none_iff [DecidableEq κ] {key : α → κ} {seen : List κ} {list : List α} :
    firstRepeated? key seen list = none ↔
      (list.map key).Nodup ∧ ∀ a ∈ list, key a ∉ seen := by
  induction list generalizing seen with
  | nil => simp [firstRepeated?]
  | cons a list ih =>
    unfold firstRepeated?
    by_cases hseen : key a ∈ seen
    · simp [hseen]
    · rw [if_neg hseen, ih, List.map_cons, List.nodup_cons, List.forall_mem_cons]
      constructor
      · rintro ⟨hnodup, hnew⟩
        refine ⟨⟨?_, hnodup⟩, hseen, fun b hb hold => hnew b hb (List.mem_cons_of_mem _ hold)⟩
        intro hmem
        obtain ⟨b, hb, hkey⟩ := List.mem_map.mp hmem
        exact hnew b hb (hkey ▸ List.mem_cons_self)
      · rintro ⟨⟨hfirst, hnodup⟩, -, hnew⟩
        refine ⟨hnodup, fun b hb hmem => ?_⟩
        rcases List.mem_cons.mp hmem with hkey | hold
        · exact hfirst (hkey ▸ List.mem_map_of_mem hb)
        · exact hnew b hb hold

/-- A snapshot is usable, or it is refused for what it repeats. -/
theorem checkUnique_cases (snapshot : Snapshot) :
    snapshot.checkUnique = .ok () ∧ snapshot.Unique
      ∨ (∃ record, snapshot.checkUnique = .error (.repeated record)) ∧ ¬ snapshot.Unique := by
  unfold checkUnique
  split
  · next account haccount =>
    refine .inr ⟨⟨_, rfl⟩, fun hunique => ?_⟩
    rw [firstRepeated?_eq_none_iff.mpr ⟨hunique.accounts, by simp⟩] at haccount
    cases haccount
  · next haccounts =>
    split
    · next proof hproof =>
      refine .inr ⟨⟨_, rfl⟩, fun hunique => ?_⟩
      rw [firstRepeated?_eq_none_iff.mpr ⟨hunique.proofs, by simp⟩] at hproof
      cases hproof
    · next hproofs =>
      exact .inl ⟨rfl, (firstRepeated?_eq_none_iff.mp haccounts).1,
        (firstRepeated?_eq_none_iff.mp hproofs).1⟩

theorem checkUnique_eq_ok_iff {snapshot : Snapshot} :
    snapshot.checkUnique = .ok () ↔ snapshot.Unique := by
  rcases snapshot.checkUnique_cases with ⟨hcheck, hunique⟩ | ⟨⟨record, hcheck⟩, hrepeated⟩
  · exact ⟨fun _ => hunique, fun _ => hcheck⟩
  · rw [hcheck]
    exact ⟨fun h => (by cases h), fun h => absurd h hrepeated⟩

end Snapshot

/-! ## Records by their keys -/

theorem find?_key_eq_some_iff [BEq κ] [LawfulBEq κ] {key : α → κ} {list : List α}
    (hnodup : (list.map key).Nodup) {k : κ} {a : α} :
    list.find? (key · == k) = some a ↔ a ∈ list ∧ key a = k := by
  constructor
  · intro h
    have hkey : (key a == k) = true := by simpa using List.find?_some h
    exact ⟨List.mem_of_find?_eq_some h, eq_of_beq hkey⟩
  · rintro ⟨ha, rfl⟩
    exact Data.find?_key_of_mem hnodup ha

/-- Where no key stands for two records, a search finds the same record in any order. -/
theorem find?_key_perm [BEq κ] [LawfulBEq κ] {key : α → κ} {list other : List α}
    (hperm : other.Perm list) (hnodup : (list.map key).Nodup) (k : κ) :
    other.find? (key · == k) = list.find? (key · == k) := by
  have hother : (other.map key).Nodup := (hperm.map key).nodup_iff.mpr hnodup
  apply Option.ext
  intro a
  rw [find?_key_eq_some_iff hother, find?_key_eq_some_iff hnodup, hperm.mem_iff]

/-- The last record of such a key is the first one. -/
theorem find?_key_reverse [BEq κ] [LawfulBEq κ] {key : α → κ} {list : List α}
    (hnodup : (list.map key).Nodup) (k : κ) :
    list.reverse.find? (key · == k) = list.find? (key · == k) :=
  find?_key_perm list.reverse_perm hnodup k

/-- Among the elements with a property one is the last. -/
theorem exists_last {p : α → Prop} {list : List α} (h : ∃ a ∈ list, p a) :
    ∃ before last after, list = before ++ last :: after ∧ p last ∧ ∀ a ∈ after, ¬ p a := by
  induction list with
  | nil =>
    obtain ⟨a, ha, -⟩ := h
    cases ha
  | cons first rest ih =>
    by_cases hlater : ∃ a ∈ rest, p a
    · obtain ⟨before, last, after, rfl, hlast, hafter⟩ := ih hlater
      exact ⟨first :: before, last, after, rfl, hlast, hafter⟩
    · obtain ⟨a, ha, hp⟩ := h
      rcases List.mem_cons.mp ha with rfl | hrest
      · exact ⟨[], a, rest, rfl, hp, fun b hb hpb => hlater ⟨b, hb, hpb⟩⟩
      · exact absurd ⟨a, hrest, hp⟩ hlater

/-- The last record of a key stands behind the others of that key. -/
theorem find?_reverse_eq_some_iff [BEq κ] [LawfulBEq κ] {key : α → κ} {list : List α} {k : κ}
    {a : α} :
    list.reverse.find? (key · == k) = some a ↔
      ∃ before after, list = before ++ a :: after ∧ key a = k ∧ ∀ b ∈ after, key b ≠ k := by
  rw [List.find?_eq_some_iff_append]
  constructor
  · rintro ⟨hkey, after, before, hlist, hafter⟩
    refine ⟨before.reverse, after.reverse, ?_, eq_of_beq hkey, ?_⟩
    · rw [← List.reverse_reverse list, hlist]
      simp
    · intro b hb
      have hother := hafter b (List.mem_reverse.mp hb)
      rw [Bool.not_eq_true', beq_eq_false_iff_ne] at hother
      exact hother
  · rintro ⟨before, after, rfl, hkey, hafter⟩
    refine ⟨beq_iff_eq.mpr hkey, after.reverse, before.reverse, by simp, ?_⟩
    intro b hb
    rw [Bool.not_eq_true', beq_eq_false_iff_ne]
    exact hafter b (List.mem_reverse.mp hb)

end TokenApproval

/-! ## What a ledger presents

A ledger presents a snapshot if every look-up gives the record that the snapshot lists, or says that
there is none, and the two listings give all records in order. A store in memory presents its
snapshot. It is also put here in the form in which a database answers: the last record that is
listed for a key. -/

namespace TokenApproval

/-- Every answer of the ledger is one of the snapshot's. -/
structure Ledger.Presents (ledger : Ledger) (snapshot : Snapshot) : Prop where
  account_eq_ok_iff : ∀ address account, ledger.account address = .ok account ↔
    account ∈ snapshot.accounts ∧ account.address = address
  account_missing : ∀ address, (∀ account ∈ snapshot.accounts, account.address ≠ address) →
    ledger.account address = .error .accountNotFound
  proof_eq_ok_iff : ∀ address denom index proof, ledger.proof address denom index = .ok proof ↔
    proof ∈ snapshot.proofs ∧ proof.key = (address, index, denom)
  proof_missing : ∀ address denom index,
    (∀ proof ∈ snapshot.proofs, proof.key ≠ (address, index, denom)) →
    ledger.proof address denom index = .error .proofNotFound
  /-- Of several assets for one token the last one counts. -/
  asset_eq_ok_iff : ∀ denom asset, ledger.asset denom = .ok asset ↔
    ∃ before after, snapshot.assets = before ++ asset :: after ∧ asset.denom = denom
      ∧ ∀ later ∈ after, later.denom ≠ denom
  asset_missing : ∀ denom, (∀ asset ∈ snapshot.assets, asset.denom ≠ denom) →
    ledger.asset denom = .error .assetNotFound
  stateRoot : ledger.stateRoot = .ok snapshot.stateRoot
  /-- Accounts are listed by address. -/
  accounts : ∃ list, ledger.accounts = .ok list ∧ list.Perm snapshot.accounts
    ∧ list.Pairwise fun a b => a.address.octets.bytes < b.address.octets.bytes
  /-- Proofs are listed by address, then position. -/
  proofs : ∃ list, ledger.proofs = .ok list ∧ list.Perm snapshot.proofs
    ∧ list.Pairwise fun a b => a.address.octets.bytes < b.address.octets.bytes
        ∨ a.address = b.address ∧ a.index ≤ b.index

namespace Ledger.Presents

variable {ledger : Ledger} {snapshot : Snapshot}

/-- A proof that a look-up gives is listed, and is of the key that was looked up. -/
theorem mem_of_proof {proofs : List Proof} {proof : Proof} {address : AccountId} {denom : String}
    {index : UInt32} (h : ledger.Presents snapshot) (hproofs : ledger.proofs = .ok proofs)
    (hproof : ledger.proof address denom index = .ok proof) :
    proof ∈ proofs ∧ proof.address = address ∧ proof.index = index ∧ proof.coin.denom = denom := by
  obtain ⟨listed, hlisted, hperm, -⟩ := h.proofs
  obtain rfl := Except.ok.inj (hproofs.symm.trans hlisted)
  obtain ⟨hmem, hkey⟩ := (h.proof_eq_ok_iff address denom index proof).mp hproof
  rw [Proof.key, Prod.mk.injEq, Prod.mk.injEq] at hkey
  exact ⟨hperm.mem_iff.mpr hmem, hkey⟩

end Ledger.Presents

namespace MemoryStore

open KeyValueStore (accountKey proofKey accountKey_lt_iff proofKey_lt_iff accountKey_inj
  proofKey_inj)

theorem ofSnapshot_eq_ok_iff {snapshot : Snapshot} {store : MemoryStore} :
    ofSnapshot snapshot = .ok store ↔ store.snapshot = snapshot := by
  unfold ofSnapshot
  split
  · next e herror =>
    constructor
    · intro h
      cases h
    · rintro rfl
      rw [store.unique] at herror
      cases herror
  · next hunique =>
    constructor
    · intro h
      rw [← Except.ok.inj h]
    · rintro rfl
      rfl

theorem ofSnapshot_eq_error_iff {snapshot : Snapshot} {e : LedgerError} :
    ofSnapshot snapshot = .error e ↔ snapshot.checkUnique = .error e := by
  unfold ofSnapshot
  split
  · next e' herror => rw [herror, Except.error.injEq, Except.error.injEq]
  · next hunique =>
    constructor
    · intro h
      cases h
    · intro h
      rw [hunique] at h
      cases h

/-! ### Order of the listings -/

theorem le_iff_accountKey_le (a b : AccountId) : a.le b = true ↔ accountKey a ≤ accountKey b := by
  rw [AccountId.le, decide_eq_true_iff, ← List.not_lt, ← List.not_lt, accountKey_lt_iff]

/-- The order of proofs in memory is that of their keys in a database. -/
theorem proofLe_iff_proofKey_le (a b : Proof) :
    proofLe a b = true ↔
      proofKey a.address a.coin.denom a.index ≤ proofKey b.address b.coin.denom b.index := by
  rw [← List.not_lt, proofKey_lt_iff, proofLe]
  by_cases haddress : a.address = b.address
  · rw [if_pos haddress, haddress]
    by_cases hindex : a.index = b.index
    · simp [hindex, List.lt_irrefl, UInt32.lt_irrefl]
    · simp [hindex, Ne.symm hindex, List.lt_irrefl]
  · have hne : b.address ≠ a.address := Ne.symm haddress
    rw [if_neg haddress, AccountId.le, decide_eq_true_iff]
    simp [hne]

variable {store : MemoryStore}

theorem unique_snapshot : store.snapshot.Unique := Snapshot.checkUnique_eq_ok_iff.mp store.unique

theorem nodup_accountKey :
    (store.snapshot.accounts.map fun account => accountKey account.address).Nodup := by
  apply List.pairwise_map.mpr
  refine (List.pairwise_map.mp store.unique_snapshot.accounts).imp ?_
  intro a b hab heq
  exact hab (accountKey_inj.mp heq)

theorem nodup_proofKey :
    (store.snapshot.proofs.map fun proof =>
      proofKey proof.address proof.coin.denom proof.index).Nodup := by
  apply List.pairwise_map.mpr
  refine (List.pairwise_map.mp store.unique_snapshot.proofs).imp ?_
  intro a b hab heq
  obtain ⟨haddress, hindex, hdenom⟩ := proofKey_inj.mp heq
  apply hab
  rw [Proof.key, Proof.key, haddress, hindex, hdenom]

/-- The accounts are listed in ascending order of their keys. -/
theorem pairwise_accounts :
    (store.snapshot.accounts.mergeSort fun a b => a.address.le b.address).Pairwise
      fun a b => accountKey a.address < accountKey b.address := by
  refine Bytes.pairwise_lt_mergeSort (fun account : Account => accountKey account.address) ?_
    (List.pairwise_map.mp nodup_accountKey)
  intro a b
  exact le_iff_accountKey_le a.address b.address

/-- The proofs are listed in ascending order of their keys. -/
theorem pairwise_proofs :
    (store.snapshot.proofs.mergeSort proofLe).Pairwise fun a b =>
      proofKey a.address a.coin.denom a.index < proofKey b.address b.coin.denom b.index := by
  refine Bytes.pairwise_lt_mergeSort
    (fun proof : Proof => proofKey proof.address proof.coin.denom proof.index) ?_
    (List.pairwise_map.mp nodup_proofKey)
  intro a b
  exact proofLe_iff_proofKey_le a b

/-- Proofs in ascending order of their keys are listed in that order. -/
theorem proofs_eq_of_ascending {list : List Proof} (hperm : list.Perm store.snapshot.proofs)
    (hlist : list.Pairwise fun a b =>
      proofKey a.address a.coin.denom a.index < proofKey b.address b.coin.denom b.index) :
    store.ledger.proofs = .ok list := by
  have hsorted := (List.mergeSort_perm store.snapshot.proofs proofLe).trans hperm.symm
  refine congrArg Except.ok (hsorted.eq_of_pairwise ?_ store.pairwise_proofs hlist)
  intro a b _ _ hab hba
  exact absurd (List.lt_trans hab hba) (List.lt_irrefl _)

/-! ### Its answers -/

theorem account_missing {address : AccountId}
    (h : ∀ account ∈ store.snapshot.accounts, account.address ≠ address) :
    store.account? address = none := by
  rw [account?, List.find?_eq_none]
  intro account haccount
  rw [beq_iff_eq]
  exact h account haccount

theorem proof_missing {key : ProofKey} (h : ∀ proof ∈ store.snapshot.proofs, proof.key ≠ key) :
    store.proof? key = none := by
  rw [proof?, List.find?_eq_none]
  intro proof hproof
  rw [beq_iff_eq]
  exact h proof hproof

theorem asset_missing {denom : String}
    (h : ∀ asset ∈ store.snapshot.assets, asset.denom ≠ denom) : store.asset? denom = none := by
  rw [asset?, List.find?_eq_none]
  intro asset hasset
  rw [beq_iff_eq]
  exact h asset (List.mem_reverse.mp hasset)

/-- A store in memory presents its snapshot. -/
theorem ledger_presents (store : MemoryStore) : store.ledger.Presents store.snapshot where
  account_eq_ok_iff _ _ :=
    Outcome.elim_eq_ok_iff.trans (find?_key_eq_some_iff store.unique_snapshot.accounts)
  account_missing _ h := by
    simp only [ledger, account_missing h]
    rfl
  proof_eq_ok_iff _ _ _ _ :=
    Outcome.elim_eq_ok_iff.trans (find?_key_eq_some_iff store.unique_snapshot.proofs)
  proof_missing _ _ _ h := by
    simp only [ledger, proof_missing h]
    rfl
  asset_eq_ok_iff _ _ := Outcome.elim_eq_ok_iff.trans find?_reverse_eq_some_iff
  asset_missing _ h := by
    simp only [ledger, asset_missing h]
    rfl
  stateRoot := rfl
  accounts := by
    refine ⟨_, rfl, List.mergeSort_perm _ _, ?_⟩
    exact store.pairwise_accounts.imp fun hab => accountKey_lt_iff.mp hab
  proofs := by
    refine ⟨_, rfl, List.mergeSort_perm _ _, ?_⟩
    refine store.pairwise_proofs.imp fun {a b} hab => ?_
    rcases proofKey_lt_iff.mp hab with haddress | ⟨haddress, hindex | ⟨hindex, -⟩⟩
    · exact .inl haddress
    · exact .inr ⟨haddress, UInt32.le_of_lt hindex⟩
    · exact .inr ⟨haddress, UInt32.le_of_eq hindex⟩

end MemoryStore

end TokenApproval
