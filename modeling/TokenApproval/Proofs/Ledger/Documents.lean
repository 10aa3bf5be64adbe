import TokenApproval.Ledger.Documents
import TokenApproval.Proofs.Hex
import TokenApproval.Proofs.Json.Reading
import TokenApproval.Proofs.Ledger.Snapshot
import TokenApproval.Proofs.Outcome

/-!
# Which documents make a snapshot

`SnapshotDocuments.violations` lists everything that is wrong with four documents, in the order in
which they are gone through: rule by rule in each entry, entry by entry in each document, and what
is listed twice last. Documents make a snapshot exactly if the list is empty, which is to say that
they are well formed, and are refused for the first entry of the list otherwise
(`documents_accepted_iff`).
-/

namespace TokenApproval

open Outcome (Reports reports_ok reports_error reports_bind reports_mapM reports_forM
  reports_mapError faults)

/-- The four documents of a snapshot. -/
structure SnapshotDocuments where
  stateRoot : StateRootDocument
  accounts : List AccountDocument
  assets : AssetDocuments
  proofs : List ProofDocument

/-! ## Assets by token -/

namespace AssetDocuments

/-- The tokens stand in ascending order of their bytes, each once. -/
def Ascending (assets : AssetDocuments) : Prop :=
  List.Pairwise (fun a b : String × AssetDocument => Text.bytes a.1 < Text.bytes b.1) assets

theorem mem_insert {entry other : String × AssetDocument} {assets : AssetDocuments}
    (h : other ∈ insert entry assets) : other = entry ∨ other ∈ assets := by
  induction assets with
  | nil => exact .inl (List.mem_singleton.mp h)
  | cons first rest ih =>
    unfold insert at h
    split at h
    · exact List.mem_cons.mp h
    · split at h
      · rcases List.mem_cons.mp h with heq | hrest
        · exact .inl heq
        · exact .inr (List.mem_cons_of_mem first hrest)
      · rcases List.mem_cons.mp h with heq | hrest
        · exact .inr (heq ▸ List.mem_cons_self)
        · exact (ih hrest).imp_right (List.mem_cons_of_mem first)

theorem ascending_insert {entry : String × AssetDocument} {assets : AssetDocuments}
    (h : assets.Ascending) : (insert entry assets).Ascending := by
  induction assets with
  | nil => exact List.pairwise_singleton _ entry
  | cons first rest ih =>
    obtain ⟨hfirst, hrest⟩ := List.pairwise_cons.mp h
    unfold insert
    split
    · next hlt =>
      refine List.pairwise_cons.mpr ⟨fun other hother => ?_, h⟩
      rcases List.mem_cons.mp hother with rfl | hlater
      · exact hlt
      · exact List.lt_trans hlt (hfirst other hlater)
    · next hle =>
      split
      · next heq => exact List.pairwise_cons.mpr ⟨fun other => heq ▸ hfirst other, hrest⟩
      · next hne =>
        -- the bytes of different tokens differ, so that the new one stands behind the first
        have hlt : Text.bytes first.1 < Text.bytes entry.1 := by
          rcases List.le_iff_lt_or_eq.mp (List.not_lt.mp hle) with hlt | heq
          · exact hlt
          · exact absurd (Text.bytes_inj.mp heq).symm hne
        refine List.pairwise_cons.mpr ⟨fun other hother => ?_, ih hrest⟩
        rcases mem_insert hother with rfl | hlater
        · exact hlt
        · exact hfirst other hlater

theorem ascending_foldl_insert (entries : List (String × AssetDocument)) {assets : AssetDocuments}
    (h : assets.Ascending) :
    Ascending (entries.foldl (fun acc entry => insert entry acc) assets) := by
  induction entries generalizing assets with
  | nil => exact h
  | cons entry entries ih => exact ih (ascending_insert h)

/-- Assets that are read stand in order, whatever the order and the repetitions in the text. -/
theorem ascending_of_read {format : Data.Format} {value : Data.Value} {assets : AssetDocuments}
    (h : reader format value = .ok assets) : assets.Ascending := by
  obtain ⟨entries, -, rfl⟩ := Outcome.map_eq_ok_iff.mp h
  exact ascending_foldl_insert entries .nil

end AssetDocuments

/-! ## What is wrong with an entry -/

def namingFaults (network : Network) (text : String) : List LedgerError :=
  (faults (network.parseAccount text)).map fun cause => .invalidRecord (.address cause)

def coinFaults (owner : String) (coin : Coin) : List LedgerError :=
  if coin.amount < 0 then [.invalidRecord (.negativeCoin owner coin.denom)] else []

def nodeFaults (owner node : String) : List LedgerError :=
  (faults (Octets.ofHex 32 node)).map fun cause => .invalidRecord (.proofNode owner cause)

def StateRootDocument.faults (document : StateRootDocument) : List LedgerError :=
  (Outcome.faults (StateRoot.ofHex document.stateRoot)).map fun cause =>
    .invalidRecord (.stateRoot cause)

/-- The address comes before the coins. -/
def AccountDocument.faults (network : Network) (document : AccountDocument) : List LedgerError :=
  namingFaults network document.address
    ++ document.summaryCoins.flatMap (coinFaults document.address)

/-- The amount comes before the owner. -/
def AssetDocument.faults (network : Network) (entry : String × AssetDocument) :
    List LedgerError :=
  (if entry.2.amount < 0 then [.invalidRecord (.negativeAsset entry.1)] else [])
    ++ namingFaults network entry.2.owner

/-- The amount comes before the nodes, and these before the address. -/
def ProofDocument.faults (network : Network) (document : ProofDocument) : List LedgerError :=
  coinFaults document.address document.coin
    ++ document.proof.flatMap (nodeFaults document.address)
    ++ namingFaults network document.address

section

variable {network : Network}

theorem reports_documentAccount (text : String) :
    Reports (documentAccount network text) (namingFaults network text) :=
  reports_mapError _ _

theorem reports_checkCoin (owner : String) (coin : Coin) :
    Reports (checkCoin owner coin) (coinFaults owner coin) := by
  unfold checkCoin coinFaults
  split
  · exact reports_error _
  · exact reports_ok ()

theorem AccountDocument.reports_record (document : AccountDocument) :
    Reports (record network document) (document.faults network) := by
  refine reports_bind (reports_documentAccount document.address) fun address _ => ?_
  rw [← List.append_nil (document.summaryCoins.flatMap _)]
  exact reports_bind (reports_forM fun coin _ => reports_checkCoin document.address coin)
    fun _ _ => reports_ok _

theorem AssetDocument.reports_record (entry : String × AssetDocument) :
    Reports (record network entry) (faults network entry) := by
  unfold record faults
  split
  · -- the faults of the owner are not reached
    intro e
    rw [List.singleton_append, List.head?_cons, Except.error.injEq, Option.some.injEq]
  · rw [List.nil_append, ← List.append_nil (namingFaults network entry.2.owner)]
    exact reports_bind (reports_documentAccount entry.2.owner) fun _ _ => reports_ok _

theorem ProofDocument.reports_record (document : ProofDocument) :
    Reports (record network document) (document.faults network) := by
  unfold faults
  rw [List.append_assoc]
  refine reports_bind (reports_checkCoin document.address document.coin) fun _ _ => ?_
  refine reports_bind (reports_mapM fun node _ => reports_mapError _ _) fun siblings _ => ?_
  rw [← List.append_nil (namingFaults network document.address)]
  exact reports_bind (reports_documentAccount document.address) fun _ _ => reports_ok _

end

/-! ## What is listed twice -/

section

variable {α κ : Type} [DecidableEq κ]

/-- The keys of a list that stand before, in `before` or in the list. -/
def repeats (before : List κ) : List κ → List κ
  | [] => []
  | key :: rest => (if key ∈ before then [key] else []) ++ repeats (before ++ [key]) rest

theorem repeats_eq_nil_iff {before keys : List κ} :
    repeats before keys = [] ↔ keys.Nodup ∧ ∀ key ∈ keys, key ∉ before := by
  induction keys generalizing before with
  | nil => simp [repeats]
  | cons key keys ih =>
    rw [repeats, List.append_eq_nil_iff, ih, List.nodup_cons, List.forall_mem_cons]
    by_cases hkey : key ∈ before
    · simp [hkey]
    · simp only [hkey, if_false, List.mem_append, List.mem_singleton, not_or, not_false_iff,
        true_and]
      constructor
      · rintro ⟨hnodup, hnew⟩
        exact ⟨⟨fun hmem => (hnew key hmem).2 rfl, hnodup⟩, fun k hk => (hnew k hk).1⟩
      · rintro ⟨⟨hfirst, hnodup⟩, hnew⟩
        refine ⟨hnodup, fun k hk => ⟨hnew k hk, ?_⟩⟩
        rintro rfl
        exact hfirst hk

/-- The element at which a repetition is found has the first repeated key. -/
theorem map_firstRepeated? (key : α → κ) (list : List α) {seen before : List κ}
    (hseen : ∀ k, k ∈ seen ↔ k ∈ before) :
    (Snapshot.firstRepeated? key seen list).map key = (repeats before (list.map key)).head? := by
  induction list generalizing seen before with
  | nil => rfl
  | cons a list ih =>
    rw [Snapshot.firstRepeated?, List.map_cons, repeats]
    by_cases hkey : key a ∈ seen
    · rw [if_pos hkey, if_pos ((hseen _).mp hkey)]
      rfl
    · rw [if_neg hkey, if_neg fun h => hkey ((hseen _).mpr h)]
      refine ih fun k => ?_
      rw [List.mem_cons, List.mem_append, List.mem_singleton, hseen, or_comm]

end

def repeatedAccount (address : AccountId) : LedgerError := .repeated (.account address)

def repeatedProof : ProofKey → LedgerError
  | (address, index, denom) => .repeated (.proof address index denom)

theorem Snapshot.reports_checkUnique (snapshot : Snapshot) :
    Reports snapshot.checkUnique
      ((repeats [] (snapshot.accounts.map Account.address)).map repeatedAccount
        ++ (repeats [] (snapshot.proofs.map Proof.key)).map repeatedProof) := by
  have haccounts := map_firstRepeated? Account.address snapshot.accounts
    fun k => Iff.refl (k ∈ [])
  have hproofs := map_firstRepeated? Proof.key snapshot.proofs fun k => Iff.refl (k ∈ [])
  intro e
  rw [List.head?_append, List.head?_map, List.head?_map, ← haccounts, ← hproofs, checkUnique]
  cases firstRepeated? Account.address [] snapshot.accounts with
  | some account => simp [repeatedAccount]
  | none =>
    cases firstRepeated? Proof.key [] snapshot.proofs with
    | some proof => simp [repeatedProof, Proof.key]
    | none => simp

/-! ## Records of entries -/

def AccountDocument.Describes (network : Network) (document : AccountDocument)
    (account : Account) : Prop :=
  network.parseAccount document.address = .ok account.address
    ∧ account.accountNumber = document.accountNumber ∧ account.balances = document.summaryCoins

def AssetDocument.Describes (network : Network) (entry : String × AssetDocument)
    (asset : Asset) : Prop :=
  network.parseAccount entry.2.owner = .ok asset.owner ∧ asset.denom = entry.1
    ∧ asset.amount = entry.2.amount

def ProofDocument.Describes (network : Network) (document : ProofDocument) (proof : Proof) : Prop :=
  network.parseAccount document.address = .ok proof.address ∧ proof.index = document.index
    ∧ proof.coin = document.coin
    ∧ List.Forall₂ (fun node (sibling : Octets 32) => Hex.decode node = .ok sibling.bytes)
        document.proof proof.siblings

section

variable {network : Network}

theorem documentAccount_eq_ok_iff {text : String} {address : AccountId} :
    documentAccount network text = .ok address ↔ network.parseAccount text = .ok address :=
  Outcome.mapError_eq_ok_iff

theorem AccountDocument.describes_of_record {document : AccountDocument} {account : Account}
    (h : record network document = .ok account) : document.Describes network account := by
  obtain ⟨address, haddress, hrest⟩ := Outcome.bind_eq_ok_iff.mp h
  obtain ⟨-, -, haccount⟩ := Outcome.bind_eq_ok_iff.mp hrest
  obtain rfl := Except.ok.inj haccount
  exact ⟨documentAccount_eq_ok_iff.mp haddress, rfl, rfl⟩

theorem AssetDocument.describes_of_record {entry : String × AssetDocument} {asset : Asset}
    (h : record network entry = .ok asset) : Describes network entry asset := by
  unfold record at h
  split at h
  · cases h
  · obtain ⟨owner, howner, hasset⟩ := Outcome.bind_eq_ok_iff.mp h
    obtain rfl := Except.ok.inj hasset
    exact ⟨documentAccount_eq_ok_iff.mp howner, rfl, rfl⟩

theorem ProofDocument.describes_of_record {document : ProofDocument} {proof : Proof}
    (h : record network document = .ok proof) : document.Describes network proof := by
  obtain ⟨-, -, hnodes⟩ := Outcome.bind_eq_ok_iff.mp h
  obtain ⟨siblings, hsiblings, haddress⟩ := Outcome.bind_eq_ok_iff.mp hnodes
  obtain ⟨address, hnamed, hproof⟩ := Outcome.bind_eq_ok_iff.mp haddress
  obtain rfl := Except.ok.inj hproof
  refine ⟨documentAccount_eq_ok_iff.mp hnamed, rfl, rfl, ?_⟩
  refine (Outcome.mapM_eq_ok_iff.mp hsiblings).imp fun node sibling hnode => ?_
  exact Octets.ofHex_eq_ok_iff.mp (Outcome.mapError_eq_ok_iff.mp hnode)

/-! An entry describes one record only. -/

theorem AccountDocument.describes_unique :
    Relator.RightUnique (AccountDocument.Describes network) := by
  rintro document ⟨address, number, balances⟩ ⟨address', number', balances'⟩
    ⟨haddress, hnumber, hbalances⟩ ⟨haddress', hnumber', hbalances'⟩
  obtain rfl := Except.ok.inj (haddress.symm.trans haddress')
  rw [Account.mk.injEq]
  exact ⟨rfl, hnumber.trans hnumber'.symm, hbalances.trans hbalances'.symm⟩

theorem AssetDocument.describes_unique :
    Relator.RightUnique (AssetDocument.Describes network) := by
  rintro entry ⟨owner, denom, amount⟩ ⟨owner', denom', amount'⟩
    ⟨howner, hdenom, hamount⟩ ⟨howner', hdenom', hamount'⟩
  obtain rfl := Except.ok.inj (howner.symm.trans howner')
  rw [Asset.mk.injEq]
  exact ⟨rfl, hdenom.trans hdenom'.symm, hamount.trans hamount'.symm⟩

theorem ProofDocument.describes_unique :
    Relator.RightUnique (ProofDocument.Describes network) := by
  rintro document ⟨address, index, coin, siblings⟩ ⟨address', index', coin', siblings'⟩
    ⟨haddress, hindex, hcoin, hsiblings⟩ ⟨haddress', hindex', hcoin', hsiblings'⟩
  obtain rfl := Except.ok.inj (haddress.symm.trans haddress')
  have hunique : Relator.RightUnique fun (node : String) (sibling : Octets 32) =>
      Hex.decode node = .ok sibling.bytes := by
    intro node a b ha hb
    exact Octets.ext (Except.ok.inj (ha.symm.trans hb))
  rw [Proof.mk.injEq]
  exact ⟨rfl, hindex.trans hindex'.symm, hcoin.trans hcoin'.symm,
    List.right_unique_forall₂' hunique hsiblings hsiblings'⟩

end

/-! ## Whole documents -/

namespace SnapshotDocuments

def snapshot (network : Network) (documents : SnapshotDocuments) : Except LedgerError Snapshot :=
  Snapshot.ofDocuments documents.stateRoot documents.accounts documents.assets documents.proofs
    network

/-- The accounts that the entries name, where they name one. -/
def accountKeys (network : Network) (documents : SnapshotDocuments) : List AccountId :=
  documents.accounts.filterMap fun document => (network.parseAccount document.address).toOption

/-- The places that the proofs are for, where they name an account. -/
def proofKeys (network : Network) (documents : SnapshotDocuments) : List ProofKey :=
  documents.proofs.filterMap fun document =>
    (network.parseAccount document.address).toOption.map fun address =>
      (address, document.index, document.coin.denom)

/-- Everything that is wrong with the documents, in the order in which it is looked for. -/
def violations (network : Network) (documents : SnapshotDocuments) : List LedgerError :=
  documents.stateRoot.faults
    ++ documents.accounts.flatMap (AccountDocument.faults network)
    ++ documents.assets.flatMap (AssetDocument.faults network)
    ++ documents.proofs.flatMap (ProofDocument.faults network)
    ++ (repeats [] (documents.accountKeys network)).map repeatedAccount
    ++ (repeats [] (documents.proofKeys network)).map repeatedProof

/-- The records are those of the documents, one for each entry and in the same order. -/
structure Describe (network : Network) (documents : SnapshotDocuments) (snapshot : Snapshot) :
    Prop where
  stateRoot : Hex.decode documents.stateRoot.stateRoot = .ok snapshot.stateRoot.octets.bytes
  accounts : List.Forall₂ (AccountDocument.Describes network) documents.accounts snapshot.accounts
  assets : List.Forall₂ (AssetDocument.Describes network) documents.assets snapshot.assets
  proofs : List.Forall₂ (ProofDocument.Describes network) documents.proofs snapshot.proofs

/-- Every text spells what it should, no amount is negative, and nothing is listed twice, however
it is spelled. -/
structure WellFormed (network : Network) (documents : SnapshotDocuments) : Prop where
  root_spelled : ∃ bytes, Hex.decode documents.stateRoot.stateRoot = .ok bytes ∧ bytes.length = 32
  accounts_named : ∀ document ∈ documents.accounts, ∃ address,
    network.parseAccount document.address = .ok address
  coins_nonneg : ∀ document ∈ documents.accounts, ∀ coin ∈ document.summaryCoins, 0 ≤ coin.amount
  assets_nonneg : ∀ entry ∈ documents.assets, 0 ≤ entry.2.amount
  owners_named : ∀ entry ∈ documents.assets, ∃ owner,
    network.parseAccount entry.2.owner = .ok owner
  proofs_nonneg : ∀ document ∈ documents.proofs, 0 ≤ document.coin.amount
  nodes_spelled : ∀ document ∈ documents.proofs, ∀ node ∈ document.proof, ∃ bytes,
    Hex.decode node = .ok bytes ∧ bytes.length = 32
  proofs_named : ∀ document ∈ documents.proofs, ∃ address,
    network.parseAccount document.address = .ok address
  accounts_distinct : documents.accounts.Pairwise fun a b => ∀ address,
    network.parseAccount a.address = .ok address → network.parseAccount b.address ≠ .ok address
  proofs_distinct : documents.proofs.Pairwise fun a b => ∀ address,
    network.parseAccount a.address = .ok address → network.parseAccount b.address = .ok address →
      ¬ (a.index = b.index ∧ a.coin.denom = b.coin.denom)

variable {network : Network} {documents : SnapshotDocuments} {snapshot : Snapshot}

theorem describe_of_snapshot (h : documents.snapshot network = .ok snapshot) :
    documents.Describe network snapshot := by
  obtain ⟨root, hroot, hrest⟩ := Outcome.bind_eq_ok_iff.mp h
  obtain ⟨accounts, haccounts, hrest⟩ := Outcome.bind_eq_ok_iff.mp hrest
  obtain ⟨assets, hassets, hrest⟩ := Outcome.bind_eq_ok_iff.mp hrest
  obtain ⟨proofs, hproofs, hrest⟩ := Outcome.bind_eq_ok_iff.mp hrest
  obtain ⟨-, -, hsnapshot⟩ := Outcome.bind_eq_ok_iff.mp hrest
  obtain rfl := Except.ok.inj hsnapshot
  obtain ⟨octets, hoctets, rfl⟩ := Outcome.map_eq_ok_iff.mp (Outcome.mapError_eq_ok_iff.mp hroot)
  constructor
  case stateRoot => exact Octets.ofHex_eq_ok_iff.mp hoctets
  case accounts =>
    exact (Outcome.mapM_eq_ok_iff.mp haccounts).imp fun _ _ => AccountDocument.describes_of_record
  case assets =>
    exact (Outcome.mapM_eq_ok_iff.mp hassets).imp fun _ _ => AssetDocument.describes_of_record
  case proofs =>
    exact (Outcome.mapM_eq_ok_iff.mp hproofs).imp fun _ _ => ProofDocument.describes_of_record

theorem Describe.unique {other : Snapshot} (h : documents.Describe network snapshot)
    (hother : documents.Describe network other) : other = snapshot := by
  obtain ⟨⟨root⟩, accounts, assets, proofs⟩ := snapshot
  obtain ⟨⟨root'⟩, accounts', assets', proofs'⟩ := other
  obtain rfl : root' = root :=
    Octets.ext (Except.ok.inj (hother.stateRoot.symm.trans h.stateRoot))
  obtain rfl : accounts' = accounts :=
    List.right_unique_forall₂' AccountDocument.describes_unique hother.accounts h.accounts
  obtain rfl : assets' = assets :=
    List.right_unique_forall₂' AssetDocument.describes_unique hother.assets h.assets
  obtain rfl : proofs' = proofs :=
    List.right_unique_forall₂' ProofDocument.describes_unique hother.proofs h.proofs
  rfl

/-! ## The first violation -/

theorem filterMap_eq_map_of_forall₂ {α β κ : Type} {f : α → Option κ} {g : β → κ} {list : List α}
    {values : List β} (h : List.Forall₂ (fun a b => f a = some (g b)) list values) :
    list.filterMap f = values.map g := by
  induction h with
  | nil => rfl
  | cons hfirst _ ih => rw [List.filterMap_cons_some hfirst, List.map_cons, ih]

theorem accountKeys_eq {accounts : List Account}
    (h : documents.accounts.mapM (AccountDocument.record network) = .ok accounts) :
    documents.accountKeys network = accounts.map Account.address := by
  refine filterMap_eq_map_of_forall₂ ((Outcome.mapM_eq_ok_iff.mp h).imp ?_)
  intro document account hrecord
  rw [(AccountDocument.describes_of_record hrecord).1]
  rfl

theorem proofKeys_eq {proofs : List Proof}
    (h : documents.proofs.mapM (ProofDocument.record network) = .ok proofs) :
    documents.proofKeys network = proofs.map Proof.key := by
  refine filterMap_eq_map_of_forall₂ ((Outcome.mapM_eq_ok_iff.mp h).imp ?_)
  intro document proof hrecord
  obtain ⟨haddress, hindex, hcoin, -⟩ := ProofDocument.describes_of_record hrecord
  rw [haddress, Proof.key, hindex, hcoin]
  rfl

theorem reports_snapshot : Reports (documents.snapshot network) (documents.violations network) := by
  unfold violations
  simp only [List.append_assoc]
  refine reports_bind (reports_mapError _ _) fun root _ => ?_
  refine reports_bind (reports_mapM fun document _ => document.reports_record) fun accounts ha => ?_
  refine reports_bind (reports_mapM fun entry _ => AssetDocument.reports_record entry)
    fun assets _ => ?_
  refine reports_bind (reports_mapM fun document _ => document.reports_record) fun proofs hp => ?_
  rw [accountKeys_eq ha, proofKeys_eq hp, ← List.append_nil (_ ++ _)]
  exact reports_bind (Snapshot.reports_checkUnique ⟨root, accounts, assets, proofs⟩)
    fun _ _ => reports_ok _

/-! ## Documents without violations -/

theorem namingFaults_eq_nil_iff {text : String} :
    namingFaults network text = [] ↔ ∃ address, network.parseAccount text = .ok address := by
  rw [namingFaults, List.map_eq_nil_iff, Outcome.faults_eq_nil_iff]

theorem nonneg_iff {amount : Int64} : 0 ≤ amount ↔ ¬ amount < 0 := Int64.not_lt.symm

theorem coinFaults_eq_nil_iff {owner : String} {coin : Coin} :
    coinFaults owner coin = [] ↔ 0 ≤ coin.amount := by
  unfold coinFaults
  rw [nonneg_iff]
  split
  · next hneg => simp [hneg]
  · next hnonneg => simp [hnonneg]

theorem exists_octets_iff {n : Nat} {text : String} :
    (∃ octets, Octets.ofHex n text = .ok octets) ↔
      ∃ bytes, Hex.decode text = .ok bytes ∧ bytes.length = n := by
  constructor
  · rintro ⟨octets, h⟩
    exact ⟨octets.bytes, Octets.ofHex_eq_ok_iff.mp h, octets.length_bytes⟩
  · rintro ⟨bytes, h, hlength⟩
    exact ⟨⟨bytes, hlength⟩, Octets.ofHex_eq_ok_iff.mpr h⟩

theorem nodeFaults_eq_nil_iff {owner node : String} :
    nodeFaults owner node = [] ↔ ∃ bytes, Hex.decode node = .ok bytes ∧ bytes.length = 32 := by
  rw [nodeFaults, List.map_eq_nil_iff, Outcome.faults_eq_nil_iff, exists_octets_iff]

theorem rootFaults_eq_nil_iff {document : StateRootDocument} :
    document.faults = [] ↔
      ∃ bytes, Hex.decode document.stateRoot = .ok bytes ∧ bytes.length = 32 := by
  rw [StateRootDocument.faults, List.map_eq_nil_iff, Outcome.faults_eq_nil_iff,
    ← exists_octets_iff, StateRoot.ofHex]
  simp only [Outcome.map_eq_ok_iff]
  constructor
  · rintro ⟨-, octets, h, -⟩
    exact ⟨octets, h⟩
  · rintro ⟨octets, h⟩
    exact ⟨⟨octets⟩, octets, h, rfl⟩

theorem assetFaults_eq_nil_iff {entry : String × AssetDocument} :
    AssetDocument.faults network entry = [] ↔
      0 ≤ entry.2.amount ∧ ∃ owner, network.parseAccount entry.2.owner = .ok owner := by
  unfold AssetDocument.faults
  rw [List.append_eq_nil_iff, namingFaults_eq_nil_iff, nonneg_iff]
  split
  · next hneg => simp [hneg]
  · next hnonneg => simp [hnonneg]

theorem accountKeys_nodup_iff :
    (documents.accountKeys network).Nodup ↔
      documents.accounts.Pairwise fun a b => ∀ address,
        network.parseAccount a.address = .ok address →
          network.parseAccount b.address ≠ .ok address := by
  rw [accountKeys, List.Nodup, List.pairwise_filterMap]
  simp only [Outcome.toOption_eq_some_iff]
  refine List.Pairwise.iff fun a b => ?_
  constructor
  · intro h address ha hb
    exact h address ha address hb rfl
  · rintro h address ha other hb rfl
    exact h address ha hb

theorem proofKeys_nodup_iff :
    (documents.proofKeys network).Nodup ↔
      documents.proofs.Pairwise fun a b => ∀ address,
        network.parseAccount a.address = .ok address →
          network.parseAccount b.address = .ok address →
            ¬ (a.index = b.index ∧ a.coin.denom = b.coin.denom) := by
  rw [proofKeys, List.Nodup, List.pairwise_filterMap]
  simp only [Option.map_eq_some_iff, Outcome.toOption_eq_some_iff]
  refine List.Pairwise.iff fun a b => ?_
  constructor
  · rintro h address ha hb ⟨hindex, hdenom⟩
    exact h _ ⟨address, ha, rfl⟩ _ ⟨address, hb, rfl⟩ (by rw [hindex, hdenom])
  · rintro h _ ⟨address, ha, rfl⟩ _ ⟨other, hb, rfl⟩ heq
    rw [Prod.mk.injEq, Prod.mk.injEq] at heq
    obtain ⟨rfl, hindex, hdenom⟩ := heq
    exact h address ha hb ⟨hindex, hdenom⟩

/-- Documents are well formed exactly if nothing is wrong with them. -/
theorem violations_eq_nil_iff :
    documents.violations network = [] ↔ documents.WellFormed network := by
  unfold violations AccountDocument.faults ProofDocument.faults
  simp only [List.append_eq_nil_iff, List.flatMap_eq_nil_iff, List.map_eq_nil_iff,
    repeats_eq_nil_iff, rootFaults_eq_nil_iff, namingFaults_eq_nil_iff, coinFaults_eq_nil_iff,
    assetFaults_eq_nil_iff, nodeFaults_eq_nil_iff, accountKeys_nodup_iff, proofKeys_nodup_iff,
    List.not_mem_nil, not_false_iff, implies_true, and_true]
  constructor
  · rintro ⟨⟨⟨⟨⟨hroot, haccounts⟩, hassets⟩, hproofs⟩, hkeys⟩, hplaces⟩
    exact {
      root_spelled := hroot
      accounts_named := fun document h => (haccounts document h).1
      coins_nonneg := fun document h => (haccounts document h).2
      assets_nonneg := fun entry h => (hassets entry h).1
      owners_named := fun entry h => (hassets entry h).2
      proofs_nonneg := fun document h => (hproofs document h).1.1
      nodes_spelled := fun document h => (hproofs document h).1.2
      proofs_named := fun document h => (hproofs document h).2
      accounts_distinct := hkeys
      proofs_distinct := hplaces }
  · intro h
    exact ⟨⟨⟨⟨⟨h.root_spelled, fun document hmem =>
      ⟨h.accounts_named document hmem, h.coins_nonneg document hmem⟩⟩,
      fun entry hmem => ⟨h.assets_nonneg entry hmem, h.owners_named entry hmem⟩⟩,
      fun document hmem => ⟨⟨h.proofs_nonneg document hmem, h.nodes_spelled document hmem⟩,
        h.proofs_named document hmem⟩⟩, h.accounts_distinct⟩, h.proofs_distinct⟩

/-! ## Acceptance -/

theorem exists_snapshot_iff :
    (∃ snapshot, documents.snapshot network = .ok snapshot) ↔ documents.WellFormed network :=
  reports_snapshot.exists_ok_iff.trans violations_eq_nil_iff

theorem snapshot_eq_ok_iff :
    documents.snapshot network = .ok snapshot ↔
      documents.WellFormed network ∧ documents.Describe network snapshot := by
  constructor
  · intro h
    exact ⟨exists_snapshot_iff.mp ⟨snapshot, h⟩, describe_of_snapshot h⟩
  · rintro ⟨hformed, hdescribe⟩
    obtain ⟨other, hother⟩ := exists_snapshot_iff.mpr hformed
    obtain rfl := hdescribe.unique (describe_of_snapshot hother)
    exact hother

theorem Describe.assets_ascending (h : documents.Describe network snapshot)
    (hassets : documents.assets.Ascending) :
    snapshot.assets.Pairwise fun a b => Text.bytes a.denom < Text.bytes b.denom := by
  have hdenoms : documents.assets.map Prod.fst = snapshot.assets.map Asset.denom := by
    rw [← List.filterMap_eq_map]
    exact filterMap_eq_map_of_forall₂ (h.assets.imp fun entry asset hasset =>
      congrArg some hasset.2.1.symm)
  have hkeys : (documents.assets.map Prod.fst).Pairwise fun a b => Text.bytes a < Text.bytes b :=
    List.pairwise_map.mpr hassets
  rw [hdenoms, List.pairwise_map] at hkeys
  exact hkeys

/-- **Acceptance of snapshot documents.** The documents make a snapshot exactly if they are well
formed. It has one record for each entry, with what the entry says and in the order of the entries,
so that the assets stand in ascending order of their tokens. Otherwise the documents are refused for
the first of their violations. -/
theorem documents_accepted_iff (hassets : documents.assets.Ascending) :
    ((∃ snapshot, documents.snapshot network = .ok snapshot) ↔ documents.WellFormed network)
      ∧ (∀ snapshot, documents.snapshot network = .ok snapshot ↔
          documents.WellFormed network ∧ documents.Describe network snapshot
            ∧ snapshot.assets.Pairwise fun a b => Text.bytes a.denom < Text.bytes b.denom)
      ∧ ∀ error, documents.snapshot network = .error error ↔
          (documents.violations network).head? = some error := by
  refine ⟨exists_snapshot_iff, fun snapshot => ?_, reports_snapshot⟩
  rw [snapshot_eq_ok_iff]
  constructor
  · rintro ⟨hformed, hdescribe⟩
    exact ⟨hformed, hdescribe, hdescribe.assets_ascending hassets⟩
  · rintro ⟨hformed, hdescribe, -⟩
    exact ⟨hformed, hdescribe⟩

end SnapshotDocuments

/-! ## Documents in files -/

/-- A snapshot that is loaded is that of well-formed documents with their assets in order. -/
theorem Snapshot.exists_documents_of_load {files : Files} {paths : SnapshotPaths}
    {network : Network} {snapshot : Snapshot} (h : load files paths network = .ok snapshot) :
    ∃ documents : SnapshotDocuments, documents.assets.Ascending
      ∧ documents.WellFormed network ∧ documents.Describe network snapshot := by
  obtain ⟨stateRoot, -, hrest⟩ := Outcome.bind_eq_ok_iff.mp h
  obtain ⟨accounts, -, hrest⟩ := Outcome.bind_eq_ok_iff.mp hrest
  obtain ⟨proofs, -, hrest⟩ := Outcome.bind_eq_ok_iff.mp hrest
  -- without a path there are no assets
  have hassets : ∃ assets : AssetDocuments, assets.Ascending
      ∧ ofDocuments stateRoot accounts assets proofs network = .ok snapshot := by
    dsimp only at hrest
    split at hrest
    · exact ⟨[], .nil, hrest⟩
    · obtain ⟨assets, hread, hsnapshot⟩ := Outcome.bind_eq_ok_iff.mp hrest
      obtain ⟨text, -, hdecoded⟩ := Outcome.bind_eq_ok_iff.mp hread
      obtain ⟨value, -, hvalue⟩ :=
        Json.decode_eq_ok_iff.mp (Outcome.mapError_eq_ok_iff.mp hdecoded)
      exact ⟨assets, AssetDocuments.ascending_of_read hvalue, hsnapshot⟩
  obtain ⟨assets, hascending, hsnapshot⟩ := hassets
  exact ⟨⟨stateRoot, accounts, assets, proofs⟩, hascending,
    SnapshotDocuments.snapshot_eq_ok_iff.mp hsnapshot⟩

/-! ## One account in two spellings

Accounts are told apart by what their texts name, and what is listed twice is reported behind every
fault of an entry. -/

namespace Sample

def hexNetwork : Network := ⟨"Binance-Chain-Ganges", ⟨"tbnb".toList⟩, .hex⟩

def listed : AccountDocument :=
  ⟨"0xFA3B227ADFF8EA1706098928715076D76959AE6C", 1, [⟨"BNB", 5⟩]⟩

def respelled : AccountDocument :=
  ⟨"fa3b227adff8ea1706098928715076d76959ae6c", 2, [⟨"BNB", 7⟩]⟩

def assetsOf (amount : Int64) : AssetDocuments :=
  [("BUSD-BD1", ⟨listed.address, 250⟩), ("XRP-BF2", ⟨respelled.address, amount⟩)]

def documents (accounts : List AccountDocument) (amount : Int64) : SnapshotDocuments :=
  ⟨⟨(Octets.zero 32).hex⟩, accounts, assetsOf amount,
    [⟨listed.address, 0, ⟨"BNB", 5⟩, [(Octets.zero 32).hex]⟩]⟩

def listedAccount : AccountId := ⟨Octets.ofNat 20 0xFA3B227ADFF8EA1706098928715076D76959AE6C⟩

theorem ascending_assetsOf (amount : Int64) : (assetsOf amount).Ascending :=
  List.pairwise_pair.mpr (show Text.bytes "BUSD-BD1" < Text.bytes "XRP-BF2" by decide)

end Sample

namespace SnapshotDocuments

theorem documents_accepted_sample :
    (∀ accounts amount, (Sample.documents accounts amount).assets.Ascending)
      ∧ (∃ snapshot, (Sample.documents [Sample.listed] 7).snapshot Sample.hexNetwork = .ok snapshot
        ∧ (Sample.documents [Sample.listed] 7).Describe Sample.hexNetwork snapshot)
      ∧ (Sample.documents [Sample.listed, Sample.respelled] 7).snapshot Sample.hexNetwork =
        .error (.repeated (.account Sample.listedAccount))
      ∧ (Sample.documents [Sample.listed, Sample.respelled] (-7)).snapshot Sample.hexNetwork =
        .error (.invalidRecord (.negativeAsset "XRP-BF2")) := by
  have hassets : ∀ accounts amount, (Sample.documents accounts amount).assets.Ascending :=
    fun _ amount => Sample.ascending_assetsOf amount
  refine ⟨hassets, ?_, ?_, ?_⟩
  · have hformed : (Sample.documents [Sample.listed] 7).WellFormed Sample.hexNetwork :=
      violations_eq_nil_iff.mp (by decide +kernel)
    obtain ⟨snapshot, hsnapshot⟩ := (documents_accepted_iff (hassets _ _)).1.mpr hformed
    obtain ⟨-, hdescribe, -⟩ := ((documents_accepted_iff (hassets _ _)).2.1 snapshot).mp hsnapshot
    exact ⟨snapshot, hsnapshot, hdescribe⟩
  · exact ((documents_accepted_iff (hassets _ _)).2.2 _).mpr (by decide +kernel)
  · exact ((documents_accepted_iff (hassets _ _)).2.2 _).mpr (by decide +kernel)

end SnapshotDocuments

end TokenApproval
