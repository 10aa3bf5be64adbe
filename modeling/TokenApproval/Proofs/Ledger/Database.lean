import TokenApproval.Proofs.Ledger.Entries
import TokenApproval.Proofs.Ledger.Shapes
import TokenApproval.Proofs.Ledger.Snapshot

/-!
# A database answers like a store in memory

A snapshot is put into a cleared database. What is then found under a key of one kind comes from the
records of that kind alone, and is read back as the record that was put in; so the database is the
same ledger as the store of that snapshot in memory (`ledger_putSnapshot`).
-/

namespace TokenApproval.KeyValueStore

open Data (Reader Tree)

variable {α : Type}

/-! ## What is found under a key -/

/-- No record is found under a key with another start. -/
theorem find?_other {list : List α} {key : α → Bytes} {lead k : Bytes}
    (hk : lead.isPrefixOf k = true) (hkey : ∀ a, lead.isPrefixOf (key a) = false) :
    list.find? (key · == k) = none := by
  rw [List.find?_eq_none]
  intro a _ heq
  have hprefix := hkey a
  rw [eq_of_beq heq, hk] at hprefix
  cases hprefix

theorem ne_stateRootKey {lead k : Bytes} (hk : lead.isPrefixOf k = true)
    (hroot : lead.isPrefixOf stateRootKey = false) : k ≠ stateRootKey := by
  rintro rfl
  rw [hroot] at hk
  cases hk

theorem text?_putSnapshot (snapshot : Snapshot) (k : Bytes) :
    (empty.putSnapshot snapshot).text? k =
      ((snapshot.proofs.reverse.find? (fun proof =>
          proofKey proof.address proof.coin.denom proof.index == k)).map
        fun proof => stored (Proof.shape.write proof)).or
      (((snapshot.assets.reverse.find? (fun asset => assetKey asset.denom == k)).map
        fun asset => stored (Asset.shape.write asset)).or
      (((snapshot.accounts.reverse.find? (fun account => accountKey account.address == k)).map
        fun account => stored (Account.shape.write account)).or
      (if k = stateRootKey then some (stored snapshot.stateRoot.tree) else none))) := by
  rw [putSnapshot, text?_foldl_put, text?_foldl_put, text?_foldl_put, text?_put]
  rfl

theorem text?_stateRootKey (snapshot : Snapshot) :
    (empty.putSnapshot snapshot).text? stateRootKey = some (stored snapshot.stateRoot.tree) := by
  have hlead : stateRootKey.isPrefixOf stateRootKey = true := rfl
  obtain ⟨haccount, hproof, hasset⟩ := stateRootKey_excludes
  rw [text?_putSnapshot, find?_other hlead fun _ => hproof _ _ _,
    find?_other hlead fun _ => hasset _, find?_other hlead fun _ => haccount _, if_pos rfl]
  rfl

/-- Under a key of an account there are accounts only. -/
theorem text?_of_accountLead (snapshot : Snapshot) {k : Bytes}
    (hk : accountLead.isPrefixOf k = true) :
    (empty.putSnapshot snapshot).text? k =
      (snapshot.accounts.reverse.find? (fun account => accountKey account.address == k)).map
        fun account => stored (Account.shape.write account) := by
  obtain ⟨hasset, hproof, hroot⟩ := accountLead_excludes
  rw [text?_putSnapshot, find?_other hk fun _ => hproof _ _ _, find?_other hk fun _ => hasset _,
    if_neg (ne_stateRootKey hk hroot)]
  simp

/-- Under a key of a proof there are proofs only. -/
theorem text?_of_proofLead (snapshot : Snapshot) {k : Bytes} (hk : proofLead.isPrefixOf k = true) :
    (empty.putSnapshot snapshot).text? k =
      (snapshot.proofs.reverse.find? (fun proof =>
          proofKey proof.address proof.coin.denom proof.index == k)).map
        fun proof => stored (Proof.shape.write proof) := by
  obtain ⟨hasset, haccount, hroot⟩ := proofLead_excludes
  rw [text?_putSnapshot, find?_other hk fun _ => hasset _, find?_other hk fun _ => haccount _,
    if_neg (ne_stateRootKey hk hroot)]
  simp

/-- Under a key of an asset there are assets only. -/
theorem text?_of_assetLead (snapshot : Snapshot) {k : Bytes} (hk : assetLead.isPrefixOf k = true) :
    (empty.putSnapshot snapshot).text? k =
      (snapshot.assets.reverse.find? (fun asset => assetKey asset.denom == k)).map
        fun asset => stored (Asset.shape.write asset) := by
  obtain ⟨haccount, hproof, hroot⟩ := assetLead_excludes
  rw [text?_putSnapshot, find?_other hk fun _ => hproof _ _ _, find?_other hk fun _ => haccount _,
    if_neg (ne_stateRootKey hk hroot)]
  simp

/-! ## What a database answers -/

theorem decode_account (account : Account) :
    Json.decode Account.shape.read (stored (Account.shape.write account)) = .ok account :=
  Json.decode_render (Data.Shape.fits_write account.restores) account.read_write

theorem decode_asset (asset : Asset) :
    Json.decode Asset.shape.read (stored (Asset.shape.write asset)) = .ok asset :=
  Json.decode_render (Data.Shape.fits_write asset.restores) asset.read_write

theorem decode_proof (proof : Proof) :
    Json.decode Proof.shape.read (stored (Proof.shape.write proof)) = .ok proof :=
  Json.decode_render (Data.Shape.fits_write proof.restores) proof.read_write

theorem decode_stateRoot (root : StateRoot) :
    Json.decode StateRoot.reader (stored root.tree) = .ok root :=
  Json.decode_render True.intro root.reader_tree

theorem ascending_putSnapshot (snapshot : Snapshot) : (empty.putSnapshot snapshot).Ascending :=
  ascending_foldl_put (ascending_foldl_put (ascending_foldl_put (ascending_put List.Pairwise.nil)))

variable (store : MemoryStore)

theorem account_putSnapshot (address : AccountId) :
    (empty.putSnapshot store.snapshot).ledger.account address = store.ledger.account address := by
  have hkey : ∀ account : Account,
      (accountKey account.address == accountKey address) = (account.address == address) :=
    fun _ => beq_eq_beq.mpr accountKey_inj
  have hfound : (empty.putSnapshot store.snapshot).text? (accountKey address) =
      (store.account? address).map fun account => stored (Account.shape.write account) := by
    rw [text?_of_accountLead _ (accountLead_starts address),
      find?_key_reverse store.nodup_accountKey, MemoryStore.account?]
    simp only [hkey]
  exact get_eq_elim hfound decode_account

theorem proof_putSnapshot (address : AccountId) (denom : String) (index : UInt32) :
    (empty.putSnapshot store.snapshot).ledger.proof address denom index =
      store.ledger.proof address denom index := by
  have hkey : ∀ proof : Proof,
      (proofKey proof.address proof.coin.denom proof.index == proofKey address denom index) =
        (proof.key == (address, index, denom)) := by
    intro proof
    rw [beq_eq_beq, proofKey_inj, Proof.key, Prod.mk.injEq, Prod.mk.injEq]
  have hfound : (empty.putSnapshot store.snapshot).text? (proofKey address denom index) =
      (store.proof? (address, index, denom)).map fun proof => stored (Proof.shape.write proof) := by
    rw [text?_of_proofLead _ (proofLead_starts address denom index),
      find?_key_reverse store.nodup_proofKey, MemoryStore.proof?]
    simp only [hkey]
  exact get_eq_elim hfound decode_proof

/-- On both sides the last asset of a token stands. -/
theorem asset_putSnapshot (denom : String) :
    (empty.putSnapshot store.snapshot).ledger.asset denom = store.ledger.asset denom := by
  have hkey : ∀ asset : Asset, (assetKey asset.denom == assetKey denom) = (asset.denom == denom) :=
    fun _ => beq_eq_beq.mpr assetKey_inj
  have hfound : (empty.putSnapshot store.snapshot).text? (assetKey denom) =
      (store.asset? denom).map fun asset => stored (Asset.shape.write asset) := by
    rw [text?_of_assetLead _ (assetLead_starts denom), MemoryStore.asset?]
    simp only [hkey]
  exact get_eq_elim hfound decode_asset

theorem stateRoot_putSnapshot :
    (empty.putSnapshot store.snapshot).ledger.stateRoot = store.ledger.stateRoot := by
  have hfound : (empty.putSnapshot store.snapshot).text? stateRootKey =
      (some store.snapshot.stateRoot).map fun root => stored root.tree :=
    text?_stateRootKey store.snapshot
  exact get_eq_elim hfound decode_stateRoot

/-! ## What a database lists -/

/-- Under the keys of one start stand the texts of the records of that start. -/
theorem map_find?_eq_some_iff {key : α → Bytes} {write : α → Tree} {list : List α}
    (hnodup : (list.map key).Nodup) {k value : Bytes} :
    (list.reverse.find? (key · == k)).map (fun a => stored (write a)) = some value ↔
      ∃ a ∈ list, key a = k ∧ stored (write a) = value := by
  rw [find?_key_reverse hnodup, Option.map_eq_some_iff]
  constructor
  · rintro ⟨a, hfound, hvalue⟩
    obtain ⟨ha, hkey⟩ := (find?_key_eq_some_iff hnodup).mp hfound
    exact ⟨a, ha, hkey, hvalue⟩
  · rintro ⟨a, ha, hkey, hvalue⟩
    exact ⟨a, (find?_key_eq_some_iff hnodup).mpr ⟨ha, hkey⟩, hvalue⟩

theorem accounts_putSnapshot :
    (empty.putSnapshot store.snapshot).ledger.accounts = store.ledger.accounts := by
  apply scan_eq_ok (ascending_putSnapshot store.snapshot) store.pairwise_accounts
  case hlead => exact fun account _ => accountLead_starts account.address
  case hread => exact fun account _ => decode_account account
  case hfound =>
    intro k value hk
    rw [text?_of_accountLead _ hk, map_find?_eq_some_iff store.nodup_accountKey]
    simp only [List.mem_mergeSort]

theorem proofs_putSnapshot :
    (empty.putSnapshot store.snapshot).ledger.proofs = store.ledger.proofs := by
  apply scan_eq_ok (ascending_putSnapshot store.snapshot) store.pairwise_proofs
  case hlead => exact fun proof _ => proofLead_starts proof.address proof.coin.denom proof.index
  case hread => exact fun proof _ => decode_proof proof
  case hfound =>
    intro k value hk
    rw [text?_of_proofLead _ hk, map_find?_eq_some_iff store.nodup_proofKey]
    simp only [List.mem_mergeSort]

/-- The database of a snapshot is the same ledger as its store in memory. -/
theorem ledger_putSnapshot : (empty.putSnapshot store.snapshot).ledger = store.ledger := by
  have haccount := funext (account_putSnapshot store)
  have hproof := funext fun address => funext fun denom =>
    funext (proof_putSnapshot store address denom)
  have hasset := funext (asset_putSnapshot store)
  have hstateRoot := stateRoot_putSnapshot store
  have haccounts := accounts_putSnapshot store
  have hproofs := proofs_putSnapshot store
  cases hdatabase : (empty.putSnapshot store.snapshot).ledger
  cases hmemory : store.ledger
  simp only [hdatabase, hmemory] at haccount hproof hasset hstateRoot haccounts hproofs
  rw [haccount, hproof, hasset, hstateRoot, haccounts, hproofs]

end TokenApproval.KeyValueStore

/-! ## Ledgers that agree

Two ledgers that present one snapshot give the same answers to every look-up and list the same
accounts. The proofs that they list are the same, and in the same order but for those of one address
and position. -/

namespace TokenApproval.Ledger

/-- Two ledgers give the same answers. -/
structure Agrees (a b : Ledger) : Prop where
  account : ∀ address, a.account address = b.account address
  proof : ∀ address denom index, a.proof address denom index = b.proof address denom index
  asset : ∀ denom, a.asset denom = b.asset denom
  stateRoot : a.stateRoot = b.stateRoot
  accounts : a.accounts = b.accounts
  proofs : ∃ list list', a.proofs = .ok list ∧ b.proofs = .ok list' ∧ list.Perm list'

variable {a b : Ledger} {snapshot : Snapshot}

/-- Look-ups that succeed alike and are told apart by one error else are the same. -/
theorem lookup_eq {ε α : Type} {x y : Except ε α} {P : α → Prop} (missing : ε)
    (hx : ∀ r, x = .ok r ↔ P r) (hy : ∀ r, y = .ok r ↔ P r)
    (hnone : (∀ r, ¬ P r) → x = .error missing ∧ y = .error missing) : x = y := by
  by_cases hsome : ∃ r, P r
  · obtain ⟨r, hr⟩ := hsome
    rw [(hx r).mpr hr, (hy r).mpr hr]
  · obtain ⟨hxerror, hyerror⟩ := hnone fun r hr => hsome ⟨r, hr⟩
    rw [hxerror, hyerror]

/-- Accounts in strictly ascending order are listed in one way only. -/
theorem accounts_unique {list list' : List Account} (h : list.Perm list')
    (hlist : list.Pairwise fun x y => x.address.octets.bytes < y.address.octets.bytes)
    (hlist' : list'.Pairwise fun x y => x.address.octets.bytes < y.address.octets.bytes) :
    list = list' := by
  refine h.eq_of_pairwise ?_ hlist hlist'
  intro x y _ _ hxy hyx
  exact absurd (List.lt_trans hxy hyx) (List.lt_irrefl _)

/-- Ledgers that present one snapshot agree. -/
theorem Presents.agrees (ha : a.Presents snapshot) (hb : b.Presents snapshot) : a.Agrees b where
  account address := by
    refine lookup_eq .accountNotFound (ha.account_eq_ok_iff address)
      (hb.account_eq_ok_iff address) fun hnone => ?_
    have hmissing : ∀ account ∈ snapshot.accounts, account.address ≠ address :=
      fun account hmem hkey => hnone account ⟨hmem, hkey⟩
    exact ⟨ha.account_missing address hmissing, hb.account_missing address hmissing⟩
  proof address denom index := by
    refine lookup_eq .proofNotFound (ha.proof_eq_ok_iff address denom index)
      (hb.proof_eq_ok_iff address denom index) fun hnone => ?_
    have hmissing : ∀ proof ∈ snapshot.proofs, proof.key ≠ (address, index, denom) :=
      fun proof hmem hkey => hnone proof ⟨hmem, hkey⟩
    exact ⟨ha.proof_missing address denom index hmissing,
      hb.proof_missing address denom index hmissing⟩
  asset denom := by
    refine lookup_eq .assetNotFound (ha.asset_eq_ok_iff denom) (hb.asset_eq_ok_iff denom)
      fun hnone => ?_
    have hmissing : ∀ asset ∈ snapshot.assets, asset.denom ≠ denom := by
      intro asset hmem hkey
      -- the last asset of the token would be found
      have hlisted : ∃ asset ∈ snapshot.assets, asset.denom = denom := ⟨asset, hmem, hkey⟩
      obtain ⟨before, last, after, hsplit, hlast, hafter⟩ := exists_last hlisted
      exact hnone last ⟨before, after, hsplit, hlast, hafter⟩
    exact ⟨ha.asset_missing denom hmissing, hb.asset_missing denom hmissing⟩
  stateRoot := ha.stateRoot.trans hb.stateRoot.symm
  accounts := by
    obtain ⟨list, hlist, hperm, hsorted⟩ := ha.accounts
    obtain ⟨list', hlist', hperm', hsorted'⟩ := hb.accounts
    rw [hlist, hlist', accounts_unique (hperm.trans hperm'.symm) hsorted hsorted']
  proofs := by
    obtain ⟨list, hlist, hperm, -⟩ := ha.proofs
    obtain ⟨list', hlist', hperm', -⟩ := hb.proofs
    exact ⟨list, list', hlist, hlist', hperm.trans hperm'.symm⟩

end TokenApproval.Ledger

namespace TokenApproval

/-- A database that takes a snapshot presents it, whatever it held before. -/
theorem KeyValueStore.importSnapshot_presents {store database : KeyValueStore} {snapshot : Snapshot}
    (h : store.importSnapshot snapshot = .ok database) : database.ledger.Presents snapshot := by
  obtain ⟨_, hunique, hput⟩ := Outcome.bind_eq_ok_iff.mp h
  obtain rfl := Except.ok.inj hput
  have hpresents := (MemoryStore.mk snapshot hunique).ledger_presents
  rw [← ledger_putSnapshot] at hpresents
  rw [clear_eq_empty]
  exact hpresents

/-- A store of a snapshot in memory presents it. -/
theorem MemoryStore.ofSnapshot_presents {snapshot : Snapshot} {memory : MemoryStore}
    (h : ofSnapshot snapshot = .ok memory) : memory.ledger.Presents snapshot := by
  obtain rfl := ofSnapshot_eq_ok_iff.mp h
  exact memory.ledger_presents

/-- The ledger is that of a snapshot, in memory or put into a database. -/
def Ledger.BuiltFrom (ledger : Ledger) (snapshot : Snapshot) : Prop :=
  (∃ memory, MemoryStore.ofSnapshot snapshot = .ok memory ∧ ledger = memory.ledger)
    ∨ ∃ store database, KeyValueStore.importSnapshot store snapshot = .ok database
      ∧ ledger = database.ledger

theorem Ledger.BuiltFrom.presents {ledger : Ledger} {snapshot : Snapshot}
    (h : ledger.BuiltFrom snapshot) : ledger.Presents snapshot := by
  rcases h with ⟨memory, hmemory, rfl⟩ | ⟨store, database, hdatabase, rfl⟩
  · exact MemoryStore.ofSnapshot_presents hmemory
  · exact KeyValueStore.importSnapshot_presents hdatabase

theorem MemoryStore.ledger_builtFrom (store : MemoryStore) :
    store.ledger.BuiltFrom store.snapshot :=
  .inl ⟨store, MemoryStore.ofSnapshot_eq_ok_iff.mpr rfl, rfl⟩

end TokenApproval
