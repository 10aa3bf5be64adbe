import TokenApproval.Ledger.Basic
import TokenApproval.Proofs.Ledger.Database
import TokenApproval.Proofs.Ledger.MerkleTree

/-!
# What a check of the proofs reports

A proof fits exactly if the account of its address holds its coin at its position, and the leaf of
that entry reaches the root; a report without mismatches says so of every listed proof.

Four things can be wrong with a proof, each only where those before it are not: there is no account
of its address, the account does not hold its coin at its position, that entry has no leaf, or the
leaf reaches another root. `Misplaced` says them without the search that a check makes. A proof with
none of them places its entry under the root (`misplaced_or_places`). In a ledger of a snapshot no
address has two accounts, so a proof has one reason at most, and the report lists those that have
one, in the order of the proofs.
-/

namespace TokenApproval

namespace Ledger

/-! ## Accounts by address -/

/-- Under each address stands the last account that is listed for it. -/
theorem find?_perAddress (accounts : List Account) (address : AccountId) :
    (perAddress accounts).find? (·.address == address) =
      accounts.reverse.find? (·.address == address) := by
  induction accounts with
  | nil => rfl
  | cons account rest ih =>
    rw [perAddress, List.reverse_cons, List.find?_append]
    by_cases hlater : rest.any (·.address == account.address) = true
    · rw [if_pos hlater, ih]
      by_cases haddress : account.address = address
      · -- the later account is found before this one is reached
        subst haddress
        rw [← List.any_reverse, List.any_eq_true] at hlater
        obtain ⟨found, hfound⟩ := Option.isSome_iff_exists.mp (List.find?_isSome.mpr hlater)
        rw [hfound, Option.some_or]
      · simp [haddress]
    · rw [if_neg hlater]
      by_cases haddress : account.address = address
      · subst haddress
        have hnone : rest.reverse.find? (·.address == account.address) = none := by
          simpa using hlater
        simp [hnone]
      · rw [List.find?_cons_of_neg (by simpa using haddress), ih]
        simp [haddress]

/-- Where no address is repeated, every account counts. -/
theorem perAddress_of_nodup {accounts : List Account}
    (h : (accounts.map Account.address).Nodup) : perAddress accounts = accounts := by
  induction accounts with
  | nil => rfl
  | cons account rest ih =>
    obtain ⟨hfirst, hrest⟩ := List.nodup_cons.mp h
    have hnone : ¬ rest.any (·.address == account.address) = true := by
      rintro hany
      obtain ⟨other, hother, haddress⟩ := List.any_eq_true.mp hany
      exact hfirst (eq_of_beq haddress ▸ List.mem_map_of_mem hother)
    rw [perAddress, if_neg hnone, ih hrest]

/-! ## Proofs that fit -/

/-- The proof places an entry of one of the accounts under the root. -/
structure Places (encoder : LeafEncoder) (root : StateRoot) (accounts : List Account)
    (proof : Proof) (account : Account) (leaf : Leaf) : Prop where
  account_found : accounts.find? (·.address == proof.address) = some account
  entry : account.balances[proof.index.toNat]? = some proof.coin
  encodes : encoder.encodeAt account proof.index.toNat = .ok leaf
  reaches : MerkleTree.computeRoot leaf.hash proof.siblings = root.octets

theorem mismatch?_eq_none_iff {encoder : LeafEncoder} {root : StateRoot} {accounts : List Account}
    {proof : Proof} :
    mismatch? encoder root accounts proof = none ↔
      ∃ account leaf, Places encoder root accounts proof account leaf := by
  unfold mismatch?
  constructor
  · intro h
    cases haccount : accounts.find? (·.address == proof.address) with
    | none => simp only [haccount] at h; cases h
    | some account =>
      cases hentry : account.balances[proof.index.toNat]? with
      | none => simp only [haccount, hentry] at h; cases h
      | some coin =>
        by_cases hcoin : coin = proof.coin
        · subst hcoin
          cases hleaf : encoder.encodeAt account proof.index.toNat with
          | error cause => simp [haccount, hentry, hleaf] at h
          | ok leaf =>
            by_cases hroot : MerkleTree.computeRoot leaf.hash proof.siblings = root.octets
            · exact ⟨account, leaf, haccount, hentry, hleaf, hroot⟩
            · simp [haccount, hentry, hleaf, hroot] at h
        · simp [haccount, hentry, hcoin] at h
  · rintro ⟨account, leaf, haccount, hentry, hleaf, hroot⟩
    simp [haccount, hentry, hleaf, hroot]

/-! ## Checks -/

/-- What a check reports: the mismatches among the proofs, in the order of the proofs. -/
theorem verify_eq_ok_iff {ledger : Ledger} {encoder : LeafEncoder} {report : ConsistencyReport} :
    ledger.verify encoder = .ok report ↔
      ∃ root listed proofs, ledger.stateRoot = .ok root ∧ ledger.accounts = .ok listed
        ∧ ledger.proofs = .ok proofs
        ∧ report = ⟨(perAddress listed).length, proofs.length, proofs.filterMap fun proof =>
            (mismatch? encoder root (perAddress listed) proof).map fun reason =>
              Mismatch.mk proof.address proof.index proof.coin.denom reason⟩ := by
  simp only [verify, Outcome.bind_eq_ok_iff]
  constructor
  · rintro ⟨root, hroot, listed, hlisted, proofs, hproofs, hreport⟩
    exact ⟨root, listed, proofs, hroot, hlisted, hproofs, (Except.ok.inj hreport).symm⟩
  · rintro ⟨root, listed, proofs, hroot, hlisted, hproofs, rfl⟩
    exact ⟨root, hroot, listed, hlisted, proofs, hproofs, rfl⟩

/-- Where a check finds nothing, every proof places an entry. -/
theorem places_of_clean {ledger : Ledger} {encoder : LeafEncoder} {report : ConsistencyReport}
    (hverify : ledger.verify encoder = .ok report) (hclean : report.mismatches = []) :
    ∃ root listed proofs, ledger.stateRoot = .ok root ∧ ledger.accounts = .ok listed
      ∧ ledger.proofs = .ok proofs ∧ ∀ proof ∈ proofs, ∃ account leaf,
        Places encoder root (perAddress listed) proof account leaf := by
  obtain ⟨root, listed, proofs, hroot, hlisted, hproofs, rfl⟩ := verify_eq_ok_iff.mp hverify
  refine ⟨root, listed, proofs, hroot, hlisted, hproofs, fun proof hproof => ?_⟩
  have hnone := List.filterMap_eq_nil_iff.mp hclean proof hproof
  exact mismatch?_eq_none_iff.mp (Option.map_eq_none_iff.mp hnone)

variable {a b ledger : Ledger} {snapshot : Snapshot}

/-- The account that a check finds under an address is the one that a look-up gives. -/
theorem Presents.account_of_find {accounts : List Account} {address : AccountId} {account : Account}
    (h : ledger.Presents snapshot) (haccounts : ledger.accounts = .ok accounts)
    (hfind : (perAddress accounts).find? (·.address == address) = some account) :
    ledger.account address = .ok account := by
  obtain ⟨listed, hlisted, hperm, -⟩ := h.accounts
  obtain rfl := Except.ok.inj (haccounts.symm.trans hlisted)
  have haddress : account.address = address := by simpa using List.find?_some hfind
  rw [find?_perAddress] at hfind
  have hmem := List.mem_reverse.mp (List.mem_of_find?_eq_some hfind)
  exact (h.account_eq_ok_iff address account).mpr ⟨hperm.mem_iff.mp hmem, haddress⟩

/-- Two ledgers of one snapshot are found to have the same mismatches. -/
theorem Presents.verify_agrees (ha : a.Presents snapshot) (hb : b.Presents snapshot)
    (encoder : LeafEncoder) :
    ∃ report report', a.verify encoder = .ok report ∧ b.verify encoder = .ok report'
      ∧ report.accounts = report'.accounts ∧ report.proofs = report'.proofs
      ∧ report.mismatches.Perm report'.mismatches := by
  obtain ⟨proofs, proofs', hproofs, hproofs', hperm⟩ := (ha.agrees hb).proofs
  obtain ⟨accounts, haccounts, -⟩ := ha.accounts
  have haccounts' : b.accounts = .ok accounts := (ha.agrees hb).accounts ▸ haccounts
  exact ⟨_, _,
    verify_eq_ok_iff.mpr ⟨_, _, _, ha.stateRoot, haccounts, hproofs, rfl⟩,
    verify_eq_ok_iff.mpr ⟨_, _, _, hb.stateRoot, haccounts', hproofs', rfl⟩,
    rfl, hperm.length_eq, hperm.filterMap _⟩

end Ledger

/-- A check of one account and one proof, which fits, finds nothing. -/
theorem MemoryStore.verify_of_places (store : MemoryStore) {encoder : LeafEncoder}
    {account : Account} {proof : Proof} {leaf : Leaf}
    (haccounts : store.snapshot.accounts = [account]) (hproofs : store.snapshot.proofs = [proof])
    (hplaces : Ledger.Places encoder store.snapshot.stateRoot [account] proof account leaf) :
    store.ledger.verify encoder = .ok ⟨1, 1, []⟩ := by
  have hclean := Ledger.mismatch?_eq_none_iff.mpr ⟨account, leaf, hplaces⟩
  refine Ledger.verify_eq_ok_iff.mpr
    ⟨store.snapshot.stateRoot, [account], [proof], rfl, ?_, ?_,
      by simp [Ledger.perAddress, hclean]⟩
  · show Except.ok (store.snapshot.accounts.mergeSort _) = _
    rw [haccounts, List.mergeSort_singleton]
  · show Except.ok (store.snapshot.proofs.mergeSort _) = _
    rw [hproofs, List.mergeSort_singleton]

/-! ## What is wrong with a proof -/

/-- The account is listed, and is of the proof's address. -/
def Proof.Owner (accounts : List Account) (proof : Proof) (account : Account) : Prop :=
  account ∈ accounts ∧ account.address = proof.address

/-- The account holds no coin at the proof's position, or one of another token or amount. -/
def Account.Lacks (account : Account) (proof : Proof) : Prop :=
  account.balances.length ≤ proof.index.toNat
    ∨ ∃ coin, account.balances[proof.index.toNat]? = some coin
      ∧ (coin.denom ≠ proof.coin.denom ∨ coin.amount ≠ proof.coin.amount)

theorem Account.lacks_iff {account : Account} {proof : Proof} :
    account.Lacks proof ↔ account.balances[proof.index.toNat]? ≠ some proof.coin := by
  constructor
  · rintro (hpast | ⟨coin, hcoin, hother⟩) hentry
    · rw [List.getElem?_eq_none hpast] at hentry
      cases hentry
    · obtain rfl := Option.some.inj (hcoin.symm.trans hentry)
      rcases hother with hdenom | hamount
      · exact hdenom rfl
      · exact hamount rfl
  · intro hentry
    cases hcoin : account.balances[proof.index.toNat]? with
    | none => exact .inl (List.getElem?_eq_none_iff.mp hcoin)
    | some coin =>
      refine .inr ⟨coin, hcoin, ?_⟩
      by_contra hsame
      simp only [ne_eq, not_or, not_not] at hsame
      have heq : coin = proof.coin := by
        cases coin
        exact Coin.mk.injEq .. ▸ hsame
      exact hentry (heq ▸ hcoin)

theorem Account.not_lacks_iff {account : Account} {proof : Proof} :
    ¬ account.Lacks proof ↔ account.balances[proof.index.toNat]? = some proof.coin := by
  rw [lacks_iff, ne_eq, not_not]

namespace Ledger

/-- What is wrong with a proof, by the reason that a report gives. -/
def Misplaced (encoder : LeafEncoder) (root : StateRoot) (accounts : List Account) (proof : Proof) :
    MismatchReason → Prop
  | .accountMissing => ∀ account, ¬ proof.Owner accounts account
  | .entryMismatch => ∃ account, proof.Owner accounts account ∧ account.Lacks proof
  | .unencodable cause => ∃ account, proof.Owner accounts account ∧ ¬ account.Lacks proof
      ∧ encoder.encodeAt account proof.index.toNat = .error cause
  | .rootMismatch computed => ∃ account leaf, proof.Owner accounts account ∧ ¬ account.Lacks proof
      ∧ encoder.encodeAt account proof.index.toNat = .ok leaf
      ∧ MerkleTree.computeRoot leaf.hash proof.siblings = computed ∧ computed ≠ root.octets

section Reasons

variable {encoder : LeafEncoder} {root : StateRoot} {accounts : List Account} {proof : Proof}
  {reason : MismatchReason}

theorem misplaced_or_places :
    (∃ reason, Misplaced encoder root accounts proof reason)
      ∨ ∃ account leaf, Places encoder root accounts proof account leaf := by
  cases hfind : accounts.find? (·.address == proof.address) with
  | none =>
    refine .inl ⟨.accountMissing, ?_⟩
    rintro account ⟨hmem, haddress⟩
    have hother := List.find?_eq_none.mp hfind account hmem
    simp [haddress] at hother
  | some account =>
    have haddress : account.address = proof.address := by simpa using List.find?_some hfind
    have howner : proof.Owner accounts account := ⟨List.mem_of_find?_eq_some hfind, haddress⟩
    by_cases hlacks : account.Lacks proof
    · exact .inl ⟨.entryMismatch, account, howner, hlacks⟩
    · cases hleaf : encoder.encodeAt account proof.index.toNat with
      | error cause => exact .inl ⟨.unencodable cause, account, howner, hlacks, hleaf⟩
      | ok leaf =>
        by_cases hroot : MerkleTree.computeRoot leaf.hash proof.siblings = root.octets
        · have hentry := Account.not_lacks_iff.mp hlacks
          exact .inr ⟨account, leaf, hfind, hentry, hleaf, hroot⟩
        · exact .inl ⟨.rootMismatch _, account, leaf, howner, hlacks, hleaf, rfl, hroot⟩

variable (hunique : (accounts.map Account.address).Nodup)
include hunique

theorem Misplaced.mismatch?_eq (h : Misplaced encoder root accounts proof reason) :
    mismatch? encoder root accounts proof = some reason := by
  have hfind : ∀ account, proof.Owner accounts account →
      accounts.find? (·.address == proof.address) = some account :=
    fun account howner => (find?_key_eq_some_iff hunique).mpr howner
  unfold mismatch?
  cases reason with
  | accountMissing =>
    have hnone : accounts.find? (·.address == proof.address) = none := by
      refine List.find?_eq_none.mpr fun account hmem heq => h account ⟨hmem, ?_⟩
      simpa using heq
    simp only [hnone]
  | entryMismatch =>
    obtain ⟨account, howner, hlacks⟩ := h
    have hentry := Account.lacks_iff.mp hlacks
    simp only [hfind account howner]
    cases hcoin : account.balances[proof.index.toNat]? with
    | none => rfl
    | some coin =>
      have hother : coin ≠ proof.coin := fun heq => hentry (heq ▸ hcoin)
      simp only [if_pos hother]
  | unencodable cause =>
    obtain ⟨account, howner, hholds, hleaf⟩ := h
    have hentry := Account.not_lacks_iff.mp hholds
    simp [hfind account howner, hentry, hleaf]
  | rootMismatch computed =>
    obtain ⟨account, leaf, howner, hholds, hleaf, rfl, hroot⟩ := h
    have hentry := Account.not_lacks_iff.mp hholds
    simp [hfind account howner, hentry, hleaf, hroot]

/-- With a proof that places its entry nothing is wrong. -/
theorem Places.not_misplaced {account : Account} {leaf : Leaf}
    (h : Places encoder root accounts proof account leaf) :
    ¬ Misplaced encoder root accounts proof reason := by
  intro hreason
  have hnone := mismatch?_eq_none_iff.mpr ⟨account, leaf, h⟩
  rw [hreason.mismatch?_eq hunique] at hnone
  cases hnone

theorem mismatch?_eq_some_iff :
    mismatch? encoder root accounts proof = some reason ↔
      Misplaced encoder root accounts proof reason := by
  constructor
  · intro h
    rcases misplaced_or_places with ⟨other, hother⟩ | hplaces
    · obtain rfl := Option.some.inj (h.symm.trans (hother.mismatch?_eq hunique))
      exact hother
    · rw [mismatch?_eq_none_iff.mpr hplaces] at h
      cases h
  · exact Misplaced.mismatch?_eq hunique

end Reasons

end Ledger

/-! ## Reports -/

/-- The mismatch is of this proof, with what is wrong with it. -/
structure Mismatch.Concerns (encoder : LeafEncoder) (snapshot : Snapshot) (proof : Proof)
    (mismatch : Mismatch) : Prop where
  address_eq : mismatch.address = proof.address
  index_eq : mismatch.index = proof.index
  denom_eq : mismatch.denom = proof.coin.denom
  misplaced :
    Ledger.Misplaced encoder snapshot.stateRoot snapshot.accounts proof mismatch.reason

/-- What a partial function maps, beside what it maps it to. -/
theorem forall₂_filterMap {α β : Type} (f : α → Option β) (list : List α) :
    List.Forall₂ (fun a b => f a = some b) (list.filter fun a => (f a).isSome)
      (list.filterMap f) := by
  induction list with
  | nil => exact .nil
  | cons a list ih =>
    cases hfa : f a with
    | none => simpa [hfa] using ih
    | some b => simpa [hfa] using ih

namespace Ledger

/-- What a check lists for a proof of a snapshot. -/
def listed? (encoder : LeafEncoder) (snapshot : Snapshot) (proof : Proof) : Option Mismatch :=
  (mismatch? encoder snapshot.stateRoot snapshot.accounts proof).map fun reason =>
    ⟨proof.address, proof.index, proof.coin.denom, reason⟩

variable {ledger : Ledger} {snapshot : Snapshot} {encoder : LeafEncoder} {proof : Proof}

theorem listed?_eq_some_iff (hunique : snapshot.Unique) {mismatch : Mismatch} :
    listed? encoder snapshot proof = some mismatch ↔ mismatch.Concerns encoder snapshot proof := by
  rw [listed?, Option.map_eq_some_iff]
  simp only [mismatch?_eq_some_iff hunique.accounts]
  constructor
  · rintro ⟨reason, hreason, rfl⟩
    exact ⟨rfl, rfl, rfl, hreason⟩
  · obtain ⟨address, index, denom, reason⟩ := mismatch
    rintro ⟨rfl, rfl, rfl, hreason⟩
    exact ⟨reason, hreason, rfl⟩

theorem isSome_listed?_iff (hunique : snapshot.Unique) :
    (listed? encoder snapshot proof).isSome = true ↔
      ∃ reason, Misplaced encoder snapshot.stateRoot snapshot.accounts proof reason := by
  rw [listed?, Option.isSome_map, Option.isSome_iff_exists]
  simp only [mismatch?_eq_some_iff hunique.accounts]

theorem listed?_eq_none_iff :
    listed? encoder snapshot proof = none ↔ ∃ account leaf,
      Places encoder snapshot.stateRoot snapshot.accounts proof account leaf := by
  rw [listed?, Option.map_eq_none_iff, mismatch?_eq_none_iff]

theorem BuiltFrom.unique (h : ledger.BuiltFrom snapshot) : snapshot.Unique := by
  rcases h with ⟨memory, hmemory, -⟩ | ⟨store, database, hdatabase, -⟩
  · obtain rfl := MemoryStore.ofSnapshot_eq_ok_iff.mp hmemory
    exact memory.unique_snapshot
  · obtain ⟨_, hcheck, -⟩ := Outcome.bind_eq_ok_iff.mp hdatabase
    exact Snapshot.checkUnique_eq_ok_iff.mp hcheck

/-- A check goes through all proofs of a snapshot, in the order in which the ledger lists them. -/
theorem BuiltFrom.verify_eq (h : ledger.BuiltFrom snapshot) (encoder : LeafEncoder) :
    ∃ proofs, ledger.proofs = .ok proofs ∧ proofs.Perm snapshot.proofs
      ∧ ledger.verify encoder = .ok ⟨snapshot.accounts.length, snapshot.proofs.length,
          proofs.filterMap (listed? encoder snapshot)⟩ := by
  obtain ⟨accounts, haccounts, haccountsPerm, -⟩ := h.presents.accounts
  obtain ⟨proofs, hproofs, hproofsPerm, -⟩ := h.presents.proofs
  refine ⟨proofs, hproofs, hproofsPerm, verify_eq_ok_iff.mpr
    ⟨snapshot.stateRoot, accounts, proofs, h.presents.stateRoot, haccounts, hproofs, ?_⟩⟩
  have hdistinct : (accounts.map Account.address).Nodup :=
    (haccountsPerm.map Account.address).nodup_iff.mpr h.unique.accounts
  rw [perAddress_of_nodup hdistinct]
  -- the check searches the accounts in another order than the snapshot lists them in
  have hfind : ∀ address, accounts.find? (·.address == address) =
      snapshot.accounts.find? (·.address == address) :=
    find?_key_perm haccountsPerm h.unique.accounts
  have hsearch : ∀ proof, mismatch? encoder snapshot.stateRoot accounts proof =
      mismatch? encoder snapshot.stateRoot snapshot.accounts proof := by
    intro proof
    unfold mismatch?
    rw [hfind]
  simp only [hsearch, haccountsPerm.length_eq, hproofsPerm.length_eq]
  rfl

/-- **What a check reports.** A check of a ledger of a snapshot succeeds and counts all accounts and
proofs. Its mismatches are those of the proofs with which something is wrong, in the order in which
the ledger lists its proofs, each of them once and with the only thing that is wrong with it. The
report is clean exactly if every proof of the snapshot places the entry of its account under the
root. -/
theorem verify_reports (h : ledger.BuiltFrom snapshot) (encoder : LeafEncoder) :
    ∃ report proofs failing, ledger.verify encoder = .ok report
      ∧ report.accounts = snapshot.accounts.length ∧ report.proofs = snapshot.proofs.length
      ∧ ledger.proofs = .ok proofs ∧ proofs.Perm snapshot.proofs ∧ proofs.Nodup
      ∧ failing.Sublist proofs
      ∧ (∀ proof, proof ∈ failing ↔ proof ∈ proofs
        ∧ ∃ reason, Misplaced encoder snapshot.stateRoot snapshot.accounts proof reason)
      ∧ List.Forall₂ (Mismatch.Concerns encoder snapshot) failing report.mismatches
      ∧ (∀ proof reason reason', Misplaced encoder snapshot.stateRoot snapshot.accounts proof reason
        → Misplaced encoder snapshot.stateRoot snapshot.accounts proof reason' → reason = reason')
      ∧ (report.isConsistent = true ↔ ∀ proof ∈ snapshot.proofs, ∃ account leaf,
          Places encoder snapshot.stateRoot snapshot.accounts proof account leaf) := by
  obtain ⟨proofs, hproofs, hperm, hverify⟩ := h.verify_eq encoder
  have hunique := h.unique
  refine ⟨_, proofs, proofs.filter fun proof => (listed? encoder snapshot proof).isSome, hverify,
    rfl, rfl, hproofs, hperm, ?_, List.filter_sublist, ?_, ?_, ?_, ?_⟩
  · exact hperm.nodup_iff.mpr (List.Nodup.of_map _ hunique.proofs)
  · intro proof
    rw [List.mem_filter, isSome_listed?_iff hunique]
  · refine (forall₂_filterMap (listed? encoder snapshot) proofs).imp ?_
    intro proof mismatch hlisted
    exact (listed?_eq_some_iff hunique).mp hlisted
  · intro proof reason reason' hreason hreason'
    have hfirst := hreason.mismatch?_eq hunique.accounts
    have hsecond := hreason'.mismatch?_eq hunique.accounts
    exact Option.some.inj (hfirst.symm.trans hsecond)
  · rw [ConsistencyReport.isConsistent, List.isEmpty_iff, List.filterMap_eq_nil_iff]
    simp only [hperm.mem_iff, listed?_eq_none_iff]

end Ledger

/-! ## A changed snapshot

Two of the five proofs lead up from the leaves of one tree; with each of the others something else
is wrong. The snapshot lists them in another order than its ledger does. -/

namespace Changed

open Ledger

def first : AccountId := ⟨Octets.zero 20⟩

def second : AccountId := ⟨Octets.ofNat 20 1⟩

def firstAccount : Account := ⟨first, 1, [⟨"BNB", 1⟩, ⟨"XRP", 7⟩]⟩

def secondAccount : Account := ⟨second, 2, [⟨"BNB", 3⟩, ⟨"XRP", -1⟩]⟩

/-- The leaf of a first balance in `BNB`. -/
def leaf (address : AccountId) (amount : Nat) : Leaf where
  bytes := address.octets.bytes ++ (Text.bytes "BNB" ++ Bytes.zeros 29 ++ Bytes.ofNat 32 amount)
  index := 0
  split := none

def fitting : Proof := ⟨first, 0, ⟨"BNB", 1⟩, [(leaf second 3).hash]⟩

def otherAmount : Proof := ⟨first, 1, ⟨"XRP", 9⟩, []⟩

def alsoFitting : Proof := ⟨second, 0, ⟨"BNB", 3⟩, [(leaf first 1).hash]⟩

def negative : Proof := ⟨second, 1, ⟨"XRP", -1⟩, []⟩

def ownerless : Proof := ⟨⟨Octets.ofNat 20 2⟩, 0, ⟨"BNB", 3⟩, []⟩

def snapshot : Snapshot where
  stateRoot := ⟨MerkleTree.hashPair (leaf first 1).hash (leaf second 3).hash⟩
  accounts := [secondAccount, firstAccount]
  assets := []
  proofs := [negative, ownerless, fitting, otherAmount, alsoFitting]

def store : MemoryStore := ⟨snapshot, rfl⟩

def encoder : LeafEncoder := ⟨.perDenom, .symbol⟩

theorem proofs_eq :
    store.ledger.proofs = .ok [fitting, otherAmount, alsoFitting, negative, ownerless] :=
  store.proofs_eq_of_ascending
    (@List.perm_append_comm _ [fitting, otherAmount, alsoFitting] [negative, ownerless])
    (by decide +kernel)

theorem places_fitting :
    Places encoder snapshot.stateRoot snapshot.accounts fitting firstAccount
      (leaf first 1) := by
  refine ⟨rfl, rfl, rfl, ?_⟩
  rw [fitting, snapshot, MerkleTree.computeRoot, List.foldl_cons, List.foldl_nil]

theorem places_alsoFitting :
    Places encoder snapshot.stateRoot snapshot.accounts alsoFitting secondAccount
      (leaf second 3) := by
  refine ⟨rfl, rfl, rfl, ?_⟩
  rw [alsoFitting, snapshot, MerkleTree.computeRoot, List.foldl_cons, List.foldl_nil,
    MerkleTree.hashPair_comm]

theorem misplaced_otherAmount :
    Misplaced encoder snapshot.stateRoot snapshot.accounts otherAmount .entryMismatch :=
  ⟨firstAccount, ⟨by simp [snapshot], rfl⟩, .inr ⟨⟨"XRP", 7⟩, rfl, .inr (by decide)⟩⟩

theorem misplaced_negative :
    Misplaced encoder snapshot.stateRoot snapshot.accounts negative
      (.unencodable (.negativeAmount "XRP" (-1))) :=
  ⟨secondAccount, ⟨by simp [snapshot], rfl⟩, Account.not_lacks_iff.mpr rfl, rfl⟩

theorem misplaced_ownerless :
    Misplaced encoder snapshot.stateRoot snapshot.accounts ownerless .accountMissing := by
  rintro account ⟨hmem, haddress⟩
  simp only [snapshot, List.mem_cons, List.not_mem_nil, or_false] at hmem
  rcases hmem with rfl | rfl
  · exact absurd haddress (by decide)
  · exact absurd haddress (by decide)

theorem exists_misplaced_iff {proof : Proof}
    (h : proof ∈ [fitting, otherAmount, alsoFitting, negative, ownerless]) :
    (∃ reason, Misplaced encoder snapshot.stateRoot snapshot.accounts proof reason) ↔
      proof ∈ [otherAmount, negative, ownerless] := by
  have hunique := store.unique_snapshot.accounts
  simp only [List.mem_cons, List.not_mem_nil, or_false] at h
  rcases h with rfl | rfl | rfl | rfl | rfl
  · exact iff_of_false (fun ⟨_, h⟩ => places_fitting.not_misplaced hunique h) (by decide)
  · exact iff_of_true ⟨_, misplaced_otherAmount⟩ (by simp)
  · exact iff_of_false (fun ⟨_, h⟩ => places_alsoFitting.not_misplaced hunique h) (by decide)
  · exact iff_of_true ⟨_, misplaced_negative⟩ (by simp)
  · exact iff_of_true ⟨_, misplaced_ownerless⟩ (by simp)

end Changed

open Changed in
theorem Ledger.verify_reports_tampered :
    store.ledger.BuiltFrom snapshot
      ∧ ∃ report, store.ledger.verify encoder = .ok report
        ∧ report.accounts = 2 ∧ report.proofs = 5
        ∧ report.mismatches =
          [⟨first, 1, "XRP", .entryMismatch⟩,
            ⟨second, 1, "XRP", .unencodable (.negativeAmount "XRP" (-1))⟩,
            ⟨⟨Octets.ofNat 20 2⟩, 0, "BNB", .accountMissing⟩] := by
  have hbuilt : store.ledger.BuiltFrom snapshot := store.ledger_builtFrom
  refine ⟨hbuilt, ?_⟩
  obtain ⟨report, proofs, failing, hverify, haccounts, hcounted, hproofs, -, hnodup, hsublist,
    hfailing, hmismatches, honly, -⟩ := verify_reports hbuilt encoder
  obtain rfl := Except.ok.inj (hproofs.symm.trans proofs_eq)
  have hothers : [otherAmount, negative, ownerless].Sublist
      [fitting, otherAmount, alsoFitting, negative, ownerless] :=
    ((List.sublist_cons_self _ _).cons_cons _).cons _
  obtain rfl : failing = [otherAmount, negative, ownerless] := by
    refine (hnodup.perm_iff_eq_of_sublist hsublist hothers).mp
      ((List.perm_ext_iff_of_nodup (hnodup.sublist hsublist) (hnodup.sublist hothers)).mpr ?_)
    intro proof
    rw [hfailing, and_congr_right exists_misplaced_iff]
    exact and_iff_right_of_imp (hothers.subset ·)
  have hlisted : ∀ {proof reason} {mismatch : Mismatch},
      mismatch.Concerns encoder snapshot proof →
      Misplaced encoder snapshot.stateRoot snapshot.accounts proof reason →
      mismatch = ⟨proof.address, proof.index, proof.coin.denom, reason⟩ := by
    rintro proof reason ⟨_, _, _, reason'⟩ ⟨rfl, rfl, rfl, hreason'⟩ hreason
    rw [honly proof reason' reason hreason' hreason]
  refine ⟨report, hverify, haccounts, hcounted, ?_⟩
  generalize report.mismatches = mismatches at hmismatches
  rcases hmismatches with _ | ⟨hfirst, _ | ⟨hsecond, _ | ⟨hthird, ⟨⟩⟩⟩⟩
  rw [hlisted hfirst misplaced_otherAmount, hlisted hsecond misplaced_negative,
    hlisted hthird misplaced_ownerless]
  rfl

end TokenApproval
