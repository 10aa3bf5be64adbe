import TokenApproval.Proofs.Ledger.Database

/-!
# Keys order records, and tell them apart

Every record has one key, which tells its kind and what it is the record of
(`RecordId.key_injective`, `RecordId.lead_isPrefixOf_key_iff`). Keys of one kind compare like what
they are the keys of: account keys by address, proof keys by address, then position as a number,
then token. A scan goes over the keys of one start in ascending order, so after an import it lists
all records of one kind, and no others, in that order.
-/

namespace TokenApproval.KeyValueStore

/-! ## Keys of one kind -/

theorem compare_addressPart (a b : AccountId) :
    compare (addressPart a) (addressPart b) = compare a.octets.bytes b.octets.bytes := by
  apply compare_eq_compare
  · rw [Bytes.compare_eq_lt_iff, Bytes.compare_eq_lt_iff, addressPart_lt_iff]
  · rw [Bytes.compare_eq_lt_iff, Bytes.compare_eq_lt_iff, addressPart_lt_iff]

theorem compare_paddedDigits (i j : UInt32) :
    compare (Text.encode (paddedDigits i.toNat)) (Text.encode (paddedDigits j.toNat)) =
      compare i.toNat j.toNat := by
  apply compare_eq_compare
  · rw [Bytes.compare_eq_lt_iff, Nat.compare_eq_lt, paddedDigits_lt_iff, UInt32.lt_iff_toNat_lt]
  · rw [Bytes.compare_eq_lt_iff, Nat.compare_eq_lt, paddedDigits_lt_iff, UInt32.lt_iff_toNat_lt]

theorem compare_accountKey (a b : AccountId) :
    compare (accountKey a) (accountKey b) = compare a.octets.bytes b.octets.bytes := by
  rw [accountKey_eq, accountKey_eq, Bytes.compare_append_left, compare_addressPart]

/-- Places of proofs compare by address, then by position, then by token. -/
def comparePlaces (p q : ProofKey) : Ordering :=
  (compare p.1.octets.bytes q.1.octets.bytes).then
    ((compare p.2.1.toNat q.2.1.toNat).then (compare (Text.bytes p.2.2) (Text.bytes q.2.2)))

/-- The parts of a proof key in front of the token have constant width, so that they compare one
after the other. -/
theorem compare_proofKey (a b : AccountId) (i j : UInt32) (d e : String) :
    compare (proofKey a d i) (proofKey b e j) = comparePlaces (a, i, d) (b, j, e) := by
  rw [proofKey_eq, proofKey_eq, Bytes.compare_append_left,
    Bytes.compare_append ((length_addressPart a).trans (length_addressPart b).symm),
    Bytes.compare_append_left,
    Bytes.compare_append (length_encode_paddedDigits.trans length_encode_paddedDigits.symm),
    Bytes.compare_append_left, compare_addressPart, compare_paddedDigits, comparePlaces]

/-! ## Keys of all kinds -/

/-- What a key is the key of. -/
inductive RecordId where
  | account (address : AccountId)
  | proof (address : AccountId) (index : UInt32) (denom : String)
  | asset (denom : String)
  | stateRoot
deriving DecidableEq

inductive RecordKind where
  | account
  | proof
  | asset
  | stateRoot
deriving DecidableEq

namespace RecordId

def kind : RecordId → RecordKind
  | .account _ => .account
  | .proof _ _ _ => .proof
  | .asset _ => .asset
  | .stateRoot => .stateRoot

/-- The key under which the record is put. -/
def key : RecordId → Bytes
  | .account address => accountKey address
  | .proof address index denom => proofKey address denom index
  | .asset denom => assetKey denom
  | .stateRoot => stateRootKey

end RecordId

/-- How the keys of a kind start; there is one key only of the state root. -/
def RecordKind.lead : RecordKind → Bytes
  | .account => accountLead
  | .proof => proofLead
  | .asset => assetLead
  | .stateRoot => stateRootKey

namespace RecordId

theorem lead_isPrefixOf_key_iff (id : RecordId) (kind : RecordKind) :
    kind.lead.isPrefixOf id.key = true ↔ id.kind = kind := by
  have hroot : stateRootKey.isPrefixOf stateRootKey = true := rfl
  cases id with
  | account address =>
    cases kind <;> simp [key, RecordId.kind, RecordKind.lead, accountLead_starts,
      proofLead_excludes, assetLead_excludes, stateRootKey_excludes]
  | proof address index denom =>
    cases kind <;> simp [key, RecordId.kind, RecordKind.lead, accountLead_excludes,
      proofLead_starts, assetLead_excludes, stateRootKey_excludes]
  | asset denom =>
    cases kind <;> simp [key, RecordId.kind, RecordKind.lead, accountLead_excludes,
      proofLead_excludes, assetLead_starts, stateRootKey_excludes]
  | stateRoot =>
    cases kind <;> simp [key, RecordId.kind, RecordKind.lead, accountLead_excludes,
      proofLead_excludes, assetLead_excludes, hroot]

/-- No two records have one key, of whichever kinds they are. -/
theorem key_injective : Function.Injective key := by
  intro id other h
  have hkind : id.kind = other.kind := by
    rw [eq_comm, ← lead_isPrefixOf_key_iff, ← h, lead_isPrefixOf_key_iff]
  match id, other, hkind with
  | .account _, .account _, _ => exact congrArg account (accountKey_inj.mp h)
  | .proof _ _ _, .proof _ _ _, _ =>
    obtain ⟨rfl, rfl, rfl⟩ := proofKey_inj.mp h
    rfl
  | .asset _, .asset _, _ => exact congrArg asset (assetKey_inj.mp h)
  | .stateRoot, .stateRoot, _ => rfl

end RecordId

/-! ## Scans -/

/-- The ledger lists the accounts of a snapshot by address, and its proofs by their places. -/
structure ListsInOrder (ledger : Ledger) (snapshot : Snapshot) : Prop where
  accounts : ∃ list, ledger.accounts = .ok list ∧ list.Perm snapshot.accounts
    ∧ list.Pairwise fun a b => compare a.address.octets.bytes b.address.octets.bytes = .lt
  proofs : ∃ list, ledger.proofs = .ok list ∧ list.Perm snapshot.proofs
    ∧ list.Pairwise fun p q => comparePlaces p.key q.key = .lt

theorem importSnapshot_listsInOrder {store database : KeyValueStore} {snapshot : Snapshot}
    (h : store.importSnapshot snapshot = .ok database) : ListsInOrder database.ledger snapshot := by
  obtain ⟨_, hunique, hput⟩ := Outcome.bind_eq_ok_iff.mp h
  obtain rfl := Except.ok.inj hput
  let memory : MemoryStore := ⟨snapshot, hunique⟩
  rw [clear_eq_empty, show (empty.putSnapshot snapshot).ledger = memory.ledger from
    ledger_putSnapshot memory]
  constructor
  · refine ⟨_, rfl, List.mergeSort_perm _ _, memory.pairwise_accounts.imp ?_⟩
    intro a b hab
    rwa [← compare_accountKey, Bytes.compare_eq_lt_iff]
  · refine ⟨_, rfl, List.mergeSort_perm _ _, memory.pairwise_proofs.imp ?_⟩
    intro p q hpq
    rwa [Proof.key, Proof.key, ← compare_proofKey, Bytes.compare_eq_lt_iff]

/-- **Keys are faithful and keep the order.** Proof keys compare exactly like their places, and
account keys like their addresses. No two records have one key, and a key starts like the keys of
its own kind and of no other. So after an import, whatever the database held before, scans list
exactly the records of their kind, in the order of what they are the records of. -/
theorem keys_faithful :
    (∀ a b i j d e,
        compare (proofKey a d i) (proofKey b e j) = comparePlaces (a, i, d) (b, j, e))
      ∧ (∀ a b, compare (accountKey a) (accountKey b) = compare a.octets.bytes b.octets.bytes)
      ∧ Function.Injective RecordId.key
      ∧ (∀ (id : RecordId) (kind : RecordKind),
        kind.lead.isPrefixOf id.key = true ↔ id.kind = kind)
      ∧ ∀ (store database : KeyValueStore) (snapshot : Snapshot),
        store.importSnapshot snapshot = .ok database → ListsInOrder database.ledger snapshot :=
  ⟨compare_proofKey, compare_accountKey, RecordId.key_injective, RecordId.lead_isPrefixOf_key_iff,
    fun _ _ _ => importSnapshot_listsInOrder⟩

/-! Positions are in the order of their numbers, and what stands in a token does not count. -/

def laterProof : Proof := ⟨⟨Octets.zero 20⟩, 10, ⟨"A/2", 1⟩, []⟩

def earlierProof : Proof := ⟨⟨Octets.zero 20⟩, 2, ⟨"B/10", 1⟩, []⟩

def crossedSnapshot : Snapshot where
  stateRoot := ⟨Octets.zero 32⟩
  accounts := []
  assets := []
  proofs := [laterProof, earlierProof]

theorem keys_faithful_sample :
    ∃ database, empty.importSnapshot crossedSnapshot = .ok database
      ∧ database.ledger.proofs = .ok [earlierProof, laterProof] := by
  obtain ⟨hcompare, -, -, -, hscans⟩ := keys_faithful
  have himport : empty.importSnapshot crossedSnapshot =
      .ok (empty.clear.putSnapshot crossedSnapshot) := rfl
  refine ⟨_, himport, ?_⟩
  obtain ⟨list, hlist, hperm, hsorted⟩ := (hscans _ _ _ himport).proofs
  have horder : [earlierProof, laterProof].Pairwise
      fun p q => comparePlaces p.key q.key = .lt := by decide
  have hlisted : list = [earlierProof, laterProof] := by
    refine (hperm.trans (List.Perm.swap _ _ _)).eq_of_pairwise ?_ hsorted horder
    intro p q _ _ hpq hqp
    rw [Proof.key, Proof.key, ← hcompare, Bytes.compare_eq_lt_iff] at hpq hqp
    exact absurd (List.lt_trans hpq hqp) (List.lt_irrefl _)
  rw [hlist, hlisted]

end TokenApproval.KeyValueStore
