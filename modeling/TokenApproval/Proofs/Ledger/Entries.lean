import Mathlib.Data.List.Sort
import TokenApproval.Ledger.Stores
import TokenApproval.Proofs.Hex
import TokenApproval.Proofs.Ledger.Shapes
import TokenApproval.Proofs.Outcome
import TokenApproval.Proofs.Text

/-!
# The keys of a database

A key tells what it is the key of, whatever characters a token has: the parts in front of the token
are of fixed length. Keys compare like what they are the keys of, accounts by their bytes and proofs
by address, position and token. The keys of different kinds of records are different.
-/

namespace TokenApproval.KeyValueStore

open Decimal (IsDecimal decimalFrom)

/-! ## Padded positions -/

theorem isDigit_of_mem_paddedDigits {n : Nat} {c : Char} (h : c ∈ paddedDigits n) :
    c.isDigit = true := by
  rcases List.mem_append.mp h with hzero | hdigit
  · obtain rfl := (List.mem_replicate.mp hzero).2
    rfl
  · exact Decimal.isDigit_of_mem hdigit

theorem length_encode_paddedDigits {index : UInt32} :
    (Text.encode (paddedDigits index.toNat)).length = 10 := by
  have hfew : (Nat.toDigits 10 index.toNat).length ≤ 10 :=
    (Nat.length_toDigits_le_iff (by decide) (by decide)).mpr
      (Nat.lt_trans index.toNat_lt (by decide))
  rw [Text.encode_of_ascii fun c hc => Decimal.ascii_of_isDigit (isDigit_of_mem_paddedDigits hc),
    List.length_map, paddedDigits, List.length_append, List.length_replicate]
  omega

theorem decimalFrom_paddedDigits (n : Nat) :
    decimalFrom 0 (Text.encode (paddedDigits n)) = n := by
  rw [Decimal.decimalFrom_encode fun c hc => isDigit_of_mem_paddedDigits hc, paddedDigits,
    Nat.ofDigitChars_append, Nat.ofDigitChars_replicate_zero, Nat.mul_zero,
    Nat.ofDigitChars_ten_toDigits]

/-- Padded positions compare like the positions. -/
theorem paddedDigits_lt_iff {i j : UInt32} :
    Text.encode (paddedDigits i.toNat) < Text.encode (paddedDigits j.toNat) ↔ i < j := by
  have hdecimal : ∀ (n : Nat), ∀ b ∈ Text.encode (paddedDigits n), IsDecimal b := fun n b hb =>
    Decimal.isDecimal_of_mem_encode (fun c hc => isDigit_of_mem_paddedDigits hc) hb
  rw [Decimal.lt_iff_decimal_lt
      (length_encode_paddedDigits.trans length_encode_paddedDigits.symm) (hdecimal _) (hdecimal _),
    decimalFrom_paddedDigits, decimalFrom_paddedDigits, UInt32.lt_iff_toNat_lt]

theorem paddedDigits_inj {i j : UInt32} :
    Text.encode (paddedDigits i.toNat) = Text.encode (paddedDigits j.toNat) ↔ i = j := by
  constructor
  · intro h
    have hvalue := congrArg (decimalFrom 0) h
    rw [decimalFrom_paddedDigits, decimalFrom_paddedDigits] at hvalue
    exact UInt32.toNat_inj.mp hvalue
  · rintro rfl
    rfl

/-! ## Parts of keys -/

/-- The digits of an address in a key. -/
def addressPart (address : AccountId) : Bytes := Hex.digitBytes address.octets.bytes

theorem length_addressPart (address : AccountId) : (addressPart address).length = 40 := by
  rw [addressPart, Hex.length_digitBytes, address.octets.length_bytes]

theorem addressPart_lt_iff {a b : AccountId} :
    addressPart a < addressPart b ↔ a.octets.bytes < b.octets.bytes := Hex.digitBytes_lt_iff

theorem addressPart_inj {a b : AccountId} : addressPart a = addressPart b ↔ a = b := by
  rw [addressPart, addressPart, Hex.digitBytes_inj]
  constructor
  · intro h
    cases a
    cases b
    exact congrArg AccountId.mk (Octets.ext h)
  · rintro rfl
    rfl

theorem accountKey_eq (address : AccountId) :
    accountKey address = accountLead ++ addressPart address := by
  rw [accountKey, Hex.bytes_encode, addressPart]

theorem proofKey_eq (address : AccountId) (denom : String) (index : UInt32) :
    proofKey address denom index =
      proofLead ++ (addressPart address ++ (Text.bytes "/" ++
        (Text.encode (paddedDigits index.toNat) ++ (Text.bytes "/" ++ Text.bytes denom)))) := by
  rw [proofKey, Hex.bytes_encode, Text.bytes_ofList (paddedDigits index.toNat), addressPart]
  simp only [List.append_assoc]

/-! ## Order -/

theorem append_lt_append_left_iff {lead a b : Bytes} : lead ++ a < lead ++ b ↔ a < b := by
  rw [Bytes.append_lt_append_iff rfl]
  simp [List.lt_irrefl]

theorem accountKey_lt_iff {a b : AccountId} :
    accountKey a < accountKey b ↔ a.octets.bytes < b.octets.bytes := by
  rw [accountKey_eq, accountKey_eq, append_lt_append_left_iff, addressPart_lt_iff]

/-- Proof keys compare by address, then position, then token. -/
theorem proofKey_lt_iff {a b : AccountId} {d e : String} {i j : UInt32} :
    proofKey a d i < proofKey b e j ↔
      a.octets.bytes < b.octets.bytes
        ∨ a = b ∧ (i < j ∨ i = j ∧ Text.bytes d < Text.bytes e) := by
  rw [proofKey_eq, proofKey_eq, append_lt_append_left_iff,
    Bytes.append_lt_append_iff ((length_addressPart a).trans (length_addressPart b).symm),
    append_lt_append_left_iff,
    Bytes.append_lt_append_iff (length_encode_paddedDigits.trans length_encode_paddedDigits.symm),
    append_lt_append_left_iff, addressPart_lt_iff, addressPart_inj, paddedDigits_lt_iff,
    paddedDigits_inj]

/-! ## Injectivity -/

theorem accountKey_inj {a b : AccountId} : accountKey a = accountKey b ↔ a = b := by
  rw [accountKey_eq, accountKey_eq, List.append_cancel_left_eq, addressPart_inj]

theorem assetKey_inj {d e : String} : assetKey d = assetKey e ↔ d = e := by
  rw [assetKey, assetKey, List.append_cancel_left_eq, Text.bytes_inj]

theorem proofKey_inj {a b : AccountId} {d e : String} {i j : UInt32} :
    proofKey a d i = proofKey b e j ↔ a = b ∧ i = j ∧ d = e := by
  constructor
  · rw [proofKey_eq, proofKey_eq, List.append_cancel_left_eq]
    intro h
    obtain ⟨haddress, h⟩ := List.append_inj h
      ((length_addressPart a).trans (length_addressPart b).symm)
    obtain ⟨hindex, h⟩ := List.append_inj (List.append_cancel_left h)
      (length_encode_paddedDigits.trans length_encode_paddedDigits.symm)
    exact ⟨addressPart_inj.mp haddress, paddedDigits_inj.mp hindex,
      Text.bytes_inj.mp (List.append_cancel_left h)⟩
  · rintro ⟨rfl, rfl, rfl⟩
    rfl

/-! ## Kinds -/

theorem accountLead_starts (address : AccountId) :
    accountLead.isPrefixOf (accountKey address) = true := by
  rw [List.isPrefixOf_iff_prefix, accountKey_eq]
  exact List.prefix_append _ _

theorem proofLead_starts (address : AccountId) (denom : String) (index : UInt32) :
    proofLead.isPrefixOf (proofKey address denom index) = true := by
  rw [List.isPrefixOf_iff_prefix, proofKey_eq]
  exact List.prefix_append _ _

theorem assetLead_starts (denom : String) : assetLead.isPrefixOf (assetKey denom) = true := by
  rw [List.isPrefixOf_iff_prefix]
  exact List.prefix_append _ _

theorem accountLead_excludes :
    (∀ denom, accountLead.isPrefixOf (assetKey denom) = false)
      ∧ (∀ address denom index, accountLead.isPrefixOf (proofKey address denom index) = false)
      ∧ accountLead.isPrefixOf stateRootKey = false :=
  ⟨fun _ => rfl, fun _ _ _ => by rw [proofKey_eq]; rfl, rfl⟩

theorem proofLead_excludes :
    (∀ denom, proofLead.isPrefixOf (assetKey denom) = false)
      ∧ (∀ address, proofLead.isPrefixOf (accountKey address) = false)
      ∧ proofLead.isPrefixOf stateRootKey = false :=
  ⟨fun _ => rfl, fun _ => rfl, rfl⟩

theorem assetLead_excludes :
    (∀ address, assetLead.isPrefixOf (accountKey address) = false)
      ∧ (∀ address denom index, assetLead.isPrefixOf (proofKey address denom index) = false)
      ∧ assetLead.isPrefixOf stateRootKey = false :=
  ⟨fun _ => rfl, fun _ _ _ => by rw [proofKey_eq]; rfl, rfl⟩

theorem stateRootKey_excludes :
    (∀ address, stateRootKey.isPrefixOf (accountKey address) = false)
      ∧ (∀ address denom index, stateRootKey.isPrefixOf (proofKey address denom index) = false)
      ∧ (∀ denom, stateRootKey.isPrefixOf (assetKey denom) = false) :=
  ⟨fun _ => rfl, fun _ _ _ => by rw [proofKey_eq]; rfl, fun _ => rfl⟩

/-! ## The entries of a database

Entries stand in ascending order of their keys, `Ascending`, and no operation loses that. What is
found under a key after records were put in one after the other is the last of them with that key,
and clearing leaves nothing behind. On ascending entries a scan is determined by what is found under
the keys that it goes over (`scan_eq_ok`). -/

open Data (Reader Tree)

/-- The entries stand in ascending order of their keys. -/
def Ascending (store : KeyValueStore) : Prop := store.entries.Pairwise fun a b => a.1 < b.1

/-- The text under a key. -/
def text? (store : KeyValueStore) (key : Bytes) : Option Bytes := store.entries.lookup key

/-- The text that a tree is stored as. -/
def stored (tree : Tree) : Bytes := Text.bytes (Json.render tree)

/-! ### One entry -/

theorem lookup_insertEntry (key value k : Bytes) (entries : List (Bytes × Bytes)) :
    (insertEntry key value entries).lookup k =
      if k = key then some value else entries.lookup k := by
  induction entries with
  | nil =>
    rw [insertEntry, List.lookup_cons, List.lookup_nil]
    by_cases hkey : k = key
    · simp [hkey]
    · simp [hkey, beq_eq_false_iff_ne.mpr hkey]
  | cons first rest ih =>
    unfold insertEntry
    by_cases hkey : k = key
    · subst hkey
      split
      · simp
      · split
        · simp
        · next hne =>
          have hfirst : (k == first.1) = false := beq_eq_false_iff_ne.mpr hne
          rw [List.lookup_cons, hfirst, ih, if_pos rfl, if_pos rfl]
    · have hother : (k == key) = false := beq_eq_false_iff_ne.mpr hkey
      rw [if_neg hkey]
      split
      · rw [List.lookup_cons, hother]
      · split
        · next heq => rw [List.lookup_cons, hother, List.lookup_cons, ← heq, hother]
        · rw [List.lookup_cons, List.lookup_cons, ih, if_neg hkey]

/-- Only the entry itself is new. -/
theorem mem_insertEntry {key value : Bytes} {entries : List (Bytes × Bytes)} {entry : Bytes × Bytes}
    (h : entry ∈ insertEntry key value entries) : entry = (key, value) ∨ entry ∈ entries := by
  induction entries with
  | nil => exact .inl (List.mem_singleton.mp h)
  | cons first rest ih =>
    unfold insertEntry at h
    split at h
    · exact List.mem_cons.mp h
    · split at h
      · rcases List.mem_cons.mp h with hnew | hold
        · exact .inl hnew
        · exact .inr (List.mem_cons_of_mem _ hold)
      · rcases List.mem_cons.mp h with hfirst | hrest
        · exact .inr (hfirst ▸ List.mem_cons_self)
        · rcases ih hrest with hnew | hold
          · exact .inl hnew
          · exact .inr (List.mem_cons_of_mem _ hold)

theorem pairwise_insertEntry {key value : Bytes} {entries : List (Bytes × Bytes)}
    (h : entries.Pairwise fun a b => a.1 < b.1) :
    (insertEntry key value entries).Pairwise fun a b => a.1 < b.1 := by
  induction entries with
  | nil => exact List.pairwise_singleton _ _
  | cons first rest ih =>
    obtain ⟨hfirst, hrest⟩ := List.pairwise_cons.mp h
    unfold insertEntry
    split
    · next hlt =>
      refine List.pairwise_cons.mpr ⟨?_, h⟩
      intro entry hentry
      rcases List.mem_cons.mp hentry with rfl | hlater
      · exact hlt
      · exact List.lt_trans hlt (hfirst entry hlater)
    · next hnlt =>
      split
      · next heq =>
        exact List.pairwise_cons.mpr ⟨fun entry hentry => heq ▸ hfirst entry hentry, hrest⟩
      · next hne =>
        refine List.pairwise_cons.mpr ⟨?_, ih hrest⟩
        intro entry hentry
        rcases mem_insertEntry hentry with rfl | hlater
        · exact (List.le_iff_lt_or_eq.mp (List.not_lt.mp hnlt)).resolve_right (Ne.symm hne)
        · exact hfirst entry hlater

/-- In ascending entries nothing hides behind another entry of its key. -/
theorem mem_iff_lookup {entries : List (Bytes × Bytes)}
    (h : entries.Pairwise fun a b => a.1 < b.1) {key value : Bytes} :
    (key, value) ∈ entries ↔ entries.lookup key = some value := by
  induction entries with
  | nil => exact ⟨fun hmem => (by cases hmem), fun hfound => (by cases hfound)⟩
  | cons first rest ih =>
    obtain ⟨hfirst, hrest⟩ := List.pairwise_cons.mp h
    rw [List.mem_cons, List.lookup_cons]
    by_cases hkey : key = first.1
    · subst hkey
      rw [beq_self_eq_true]
      constructor
      · rintro (hhead | hlater)
        · rw [← hhead]
        · exact absurd (hfirst _ hlater) (List.lt_irrefl _)
      · intro hvalue
        exact .inl (Prod.ext rfl (Option.some.inj hvalue).symm)
    · rw [beq_eq_false_iff_ne.mpr hkey, ← ih hrest]
      constructor
      · rintro (rfl | hlater)
        · exact absurd rfl hkey
        · exact hlater
      · exact .inr

/-! ### Putting and clearing -/

variable {α : Type} {store : KeyValueStore}

theorem text?_put (key k : Bytes) (tree : Tree) :
    (store.put key tree).text? k = if k = key then some (stored tree) else store.text? k :=
  lookup_insertEntry key (stored tree) k store.entries

theorem ascending_put {key : Bytes} {tree : Tree} (h : store.Ascending) :
    (store.put key tree).Ascending := pairwise_insertEntry h

/-- Of records put in one after the other the last one of a key stands. -/
theorem text?_foldl_put (key : α → Bytes) (write : α → Tree) (list : List α) (k : Bytes) :
    (list.foldl (fun store a => store.put (key a) (write a)) store).text? k =
      ((list.reverse.find? (key · == k)).map fun a => stored (write a)).or (store.text? k) := by
  induction list generalizing store with
  | nil => rfl
  | cons a list ih =>
    rw [List.foldl_cons, ih, text?_put, List.reverse_cons, List.find?_append, List.find?_singleton]
    cases list.reverse.find? (key · == k) with
    | some b => rfl
    | none =>
      by_cases hkey : k = key a
      · simp [hkey]
      · simp [hkey, Ne.symm hkey]

theorem ascending_foldl_put {key : α → Bytes} {write : α → Tree} {list : List α}
    (h : store.Ascending) :
    (list.foldl (fun store a => store.put (key a) (write a)) store).Ascending := by
  induction list generalizing store with
  | nil => exact h
  | cons a list ih => exact ih (ascending_put h)

theorem entries_foldl_erase (keys : List Bytes) :
    (keys.foldl erase store).entries =
      store.entries.filter fun entry => !keys.contains entry.1 := by
  induction keys generalizing store with
  | nil => simp
  | cons key keys ih =>
    rw [List.foldl_cons, ih, erase, List.filter_filter]
    congr 1
    funext entry
    rw [List.contains_cons, Bool.not_or, Bool.and_comm]
    rfl

/-- Clearing leaves nothing behind. -/
theorem clear_eq_empty (store : KeyValueStore) : store.clear = empty := by
  have hnone : store.clear.entries = [] := by
    rw [clear, entries_foldl_erase, List.filter_eq_nil_iff]
    intro entry hentry hkept
    rw [List.contains_eq_mem, decide_eq_true (List.mem_map_of_mem hentry)] at hkept
    cases hkept
  exact congrArg KeyValueStore.mk hnone

/-! ### Reading -/

theorem get_eq_elim {reader : Reader α} {missing : LedgerError} {key : Bytes} {found : Option α}
    {write : α → Tree} (h : store.text? key = found.map fun a => stored (write a))
    (hread : ∀ a, Json.decode reader (stored (write a)) = .ok a) :
    store.get reader missing key = found.elim (.error missing) .ok := by
  unfold get
  unfold text? at h
  rw [h]
  cases found with
  | none => rfl
  | some a =>
    simp only [Option.map_some, hread]
    rfl

/-- A scan goes over the records whose texts are found under the keys of its start. -/
theorem scan_eq_ok {reader : Reader α} {lead : Bytes} {list : List α} {key : α → Bytes}
    {write : α → Tree} (hascending : store.Ascending)
    (hsorted : list.Pairwise fun a b => key a < key b)
    (hlead : ∀ a ∈ list, lead.isPrefixOf (key a) = true)
    (hfound : ∀ k value, lead.isPrefixOf k = true →
      (store.text? k = some value ↔ ∃ a ∈ list, key a = k ∧ stored (write a) = value))
    (hread : ∀ a ∈ list, Json.decode reader (stored (write a)) = .ok a) :
    store.scan reader lead = .ok list := by
  have hentries : (store.entries.filter fun entry => lead.isPrefixOf entry.1) =
      list.map fun a => (key a, stored (write a)) := by
    have : Std.Irrefl fun a b : Bytes × Bytes => a.1 < b.1 := ⟨fun a => List.lt_irrefl a.1⟩
    have : Std.Asymm fun a b : Bytes × Bytes => a.1 < b.1 := ⟨fun a b => List.lt_asymm⟩
    apply List.Pairwise.eq_of_mem_iff (hascending.sublist List.filter_sublist)
      (List.pairwise_map.mpr hsorted)
    rintro ⟨k, value⟩
    rw [List.mem_filter, List.mem_map, mem_iff_lookup hascending]
    constructor
    · rintro ⟨htext, hprefix⟩
      obtain ⟨a, ha, hkey, hvalue⟩ := (hfound k value hprefix).mp htext
      exact ⟨a, ha, Prod.ext hkey hvalue⟩
    · rintro ⟨a, ha, heq⟩
      obtain ⟨rfl, rfl⟩ := Prod.mk.inj heq
      exact ⟨(hfound _ _ (hlead a ha)).mpr ⟨a, ha, rfl, rfl⟩, hlead a ha⟩
  rw [scan, hentries]
  apply Outcome.mapM_map_eq_ok
  intro a ha
  rw [hread a ha]
  rfl

end TokenApproval.KeyValueStore
