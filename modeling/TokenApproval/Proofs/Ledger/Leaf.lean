import Mathlib.Data.List.DropRight
import Mathlib.Data.List.Forall2
import TokenApproval.Ledger.Leaf
import TokenApproval.Proofs.Outcome

/-!
# The layout of leaves, word by word

When a symbol or an amount fits in a word and which bytes the word then has, and which bytes a leaf
has from its words.
-/

namespace TokenApproval.Leaf

/-- A symbol filled up with zeros behind it. -/
def paddedDenom (denom : String) : Bytes :=
  Text.bytes denom ++ Bytes.zeros (32 - (Text.bytes denom).length)

theorem denomWord_eq_ok_iff {denom : String} {word : Octets 32} :
    denomWord denom = .ok word ↔
      (Text.bytes denom).length ≤ 32 ∧ word.bytes = paddedDenom denom := by
  unfold denomWord
  by_cases hlength : (Text.bytes denom).length ≤ 32
  · simp only [hlength, dif_pos, Except.ok.injEq, true_and]
    exact ⟨fun h => h ▸ rfl, fun h => Octets.ext h.symm⟩
  · simp [hlength]

theorem amountWord_eq_ok_iff {denom : String} {amount : Int64} {word : Octets 32} :
    amountWord denom amount = .ok word ↔
      0 ≤ amount ∧ word = Octets.ofNat 32 amount.toInt.toNat := by
  unfold amountWord
  by_cases hnegative : amount < 0
  · simp [hnegative, Int64.not_le.mpr hnegative]
  · simp only [hnegative, if_false, Except.ok.injEq, Int64.not_lt.mp hnegative, true_and]
    exact eq_comm

end TokenApproval.Leaf

/-! ## The layout of leaves

A leaf is the account's identifier followed by words. Every entry of a layout has the same width, so
the bytes of a leaf tell its entries apart, and no leaf is as long as two hashes: its length leaves
20 when divided by 32. All that padding loses are NUL bytes at the end of symbols. -/

namespace TokenApproval

/-- Byte strings of a fixed length are told from what stands behind them. -/
theorem Octets.append_inj {n : Nat} {a b : Octets n} {s t : Bytes} :
    a.bytes ++ s = b.bytes ++ t ↔ a = b ∧ s = t := by
  rw [List.append_eq_append_iff_of_size_eq_left (a.length_bytes.trans b.length_bytes.symm),
    Octets.ext_iff]

/-! ### Symbols up to NUL bytes at their end -/

/-- The bytes of a symbol without the zeros at their end. -/
def trimmedDenom (denom : String) : Bytes := (Text.bytes denom).rdropWhile (· == 0)

/-- Two symbols differ at most by NUL bytes at their end. -/
def SameDenom (a b : String) : Prop := trimmedDenom a = trimmedDenom b

instance (a b : String) : Decidable (SameDenom a b) :=
  inferInstanceAs (Decidable (trimmedDenom a = trimmedDenom b))

namespace SameDenom

variable {a b c : String}

theorem symm (h : SameDenom a b) : SameDenom b a := Eq.symm h

theorem trans (hab : SameDenom a b) (hbc : SameDenom b c) : SameDenom a c := Eq.trans hab hbc

end SameDenom

/-- Zeros behind a byte string do not change what stands before the zeros at its end. -/
theorem Bytes.rdropWhile_append_zeros (bytes : Bytes) (count : Nat) :
    (bytes ++ zeros count).rdropWhile (· == 0) = bytes.rdropWhile (· == 0) := by
  have hzeros : ∀ b ∈ (zeros count).reverse, (b == 0) = true := by
    intro b hb
    rw [List.mem_reverse] at hb
    rw [List.eq_of_mem_replicate hb]
    rfl
  rw [List.rdropWhile, List.reverse_append, List.dropWhile_append_of_pos hzeros]
  rfl

/-- A byte string is what stands before the zeros at its end, and these zeros. -/
theorem Bytes.eq_rdropWhile_append_zeros (bytes : Bytes) :
    ∃ count, bytes = bytes.rdropWhile (· == 0) ++ zeros count := by
  refine ⟨(bytes.rtakeWhile (· == 0)).length, ?_⟩
  have hzeros : bytes.rtakeWhile (· == 0) = zeros (bytes.rtakeWhile (· == 0)).length := by
    refine List.eq_replicate_iff.mpr ⟨rfl, fun b hb => ?_⟩
    exact beq_iff_eq.mp (List.mem_rtakeWhile_imp (p := fun x : UInt8 => x == 0) hb)
  rw [← hzeros, List.rdropWhile_append_rtakeWhile]

namespace Leaf

theorem length_paddedDenom {denom : String} (h : (Text.bytes denom).length ≤ 32) :
    (paddedDenom denom).length = 32 := by
  rw [paddedDenom, List.length_append, Bytes.zeros, List.length_replicate]
  omega

theorem paddedDenom_eq_trimmed {denom : String} (h : (Text.bytes denom).length ≤ 32) :
    paddedDenom denom = trimmedDenom denom ++ Bytes.zeros (32 - (trimmedDenom denom).length) := by
  obtain ⟨count, hcount⟩ := Bytes.eq_rdropWhile_append_zeros (Text.bytes denom)
  have hlength := congrArg List.length hcount
  rw [List.length_append, Bytes.zeros, List.length_replicate] at hlength
  have hfill : count + (32 - (Text.bytes denom).length) = 32 - (trimmedDenom denom).length := by
    rw [trimmedDenom]
    omega
  calc paddedDenom denom
      = trimmedDenom denom ++ Bytes.zeros count
          ++ Bytes.zeros (32 - (Text.bytes denom).length) := by
        rw [paddedDenom, trimmedDenom, ← hcount]
    _ = trimmedDenom denom ++ Bytes.zeros (32 - (trimmedDenom denom).length) := by
        rw [List.append_assoc, Bytes.zeros, Bytes.zeros, List.replicate_append_replicate, hfill,
          Bytes.zeros]

/-- Padding a symbol to a word loses exactly the NUL bytes at its end. -/
theorem paddedDenom_inj {a b : String} (ha : (Text.bytes a).length ≤ 32)
    (hb : (Text.bytes b).length ≤ 32) : paddedDenom a = paddedDenom b ↔ SameDenom a b := by
  constructor
  · intro h
    have htrimmed := congrArg (List.rdropWhile (· == 0)) h
    rwa [paddedDenom, paddedDenom, Bytes.rdropWhile_append_zeros, Bytes.rdropWhile_append_zeros]
      at htrimmed
  · intro h
    have htrimmed : trimmedDenom a = trimmedDenom b := h
    rw [paddedDenom_eq_trimmed ha, paddedDenom_eq_trimmed hb, htrimmed]

theorem paddedDenom_append_inj {a b : String} {s t : Bytes} (ha : (Text.bytes a).length ≤ 32)
    (hb : (Text.bytes b).length ≤ 32) :
    paddedDenom a ++ s = paddedDenom b ++ t ↔ SameDenom a b ∧ s = t := by
  have hlength : (paddedDenom a).length = (paddedDenom b).length := by
    rw [length_paddedDenom ha, length_paddedDenom hb]
  rw [List.append_eq_append_iff_of_size_eq_left hlength, paddedDenom_inj ha hb]

/-! ### Amounts -/

def amountBytes (amount : Int64) : Bytes := Bytes.ofNat 32 amount.toInt.toNat

theorem length_amountBytes (amount : Int64) : (amountBytes amount).length = 32 :=
  Bytes.length_ofNat 32 _

theorem toNat_amountBytes (amount : Int64) :
    (amountBytes amount).toNat = amount.toInt.toNat := by
  have hbound := amount.toInt_lt
  apply Bytes.toNat_ofNat
  exact Nat.lt_trans (show _ < 0x8000000000000000 by omega) (by decide)

theorem amountBytes_inj {m n : Int64} (hm : 0 ≤ m) (hn : 0 ≤ n) :
    amountBytes m = amountBytes n ↔ m = n := by
  constructor
  · intro h
    have htoNat := congrArg Bytes.toNat h
    rw [toNat_amountBytes, toNat_amountBytes] at htoNat
    rw [Int64.le_iff_toInt_le] at hm hn
    have htoInt : m.toInt = n.toInt := by
      have hzero : (0 : Int64).toInt = 0 := rfl
      omega
    exact Int64.toInt_inj.mp htoInt
  · rintro rfl
    rfl

end Leaf

/-! ### Entries -/

/-- A balance fits in the words of an entry. -/
structure Coin.Encodable (coin : Coin) : Prop where
  denom_fits : (Text.bytes coin.denom).length ≤ 32
  amount_nonneg : 0 ≤ coin.amount

instance (coin : Coin) : Decidable coin.Encodable :=
  decidable_of_iff ((Text.bytes coin.denom).length ≤ 32 ∧ 0 ≤ coin.amount)
    ⟨fun h => ⟨h.1, h.2⟩, fun h => ⟨h.denom_fits, h.amount_nonneg⟩⟩

/-- Two balances have the same amount, and the same symbol up to NUL bytes at its end. -/
def Coin.Same (c d : Coin) : Prop := SameDenom c.denom d.denom ∧ c.amount = d.amount

namespace Leaf

variable {layout : EntryLayout} {i j : Nat} {c d : Coin}

/-- The word of a position, where the layout has one. -/
def positionBytes : EntryLayout → Nat → Bytes
  | .symbol, _ => []
  | .indexed, index => Bytes.ofNat 32 index

/-- The bytes of an entry that fits. -/
def entryBytes (layout : EntryLayout) (index : Nat) (coin : Coin) : Bytes :=
  positionBytes layout index ++ (paddedDenom coin.denom ++ amountBytes coin.amount)

def entryWidth : EntryLayout → Nat
  | .symbol => 64
  | .indexed => 96

/-- An entry is made of words, at least two of them. -/
theorem exists_entryWidth_eq (layout : EntryLayout) :
    ∃ count, entryWidth layout = 32 * (count + 2) := by
  cases layout with
  | symbol => exact ⟨0, rfl⟩
  | indexed => exact ⟨1, rfl⟩

theorem length_positionBytes (layout : EntryLayout) (i j : Nat) :
    (positionBytes layout i).length = (positionBytes layout j).length := by
  cases layout with
  | symbol => rfl
  | indexed => rw [positionBytes, positionBytes, Bytes.length_ofNat, Bytes.length_ofNat]

/-- Positions of 64 bits have different words, in the layout that has any. -/
theorem positionBytes_inj (layout : EntryLayout) (i j : UInt64) :
    positionBytes layout i.toNat = positionBytes layout j.toNat ↔ (layout = .indexed → i = j) := by
  cases layout with
  | symbol => simp [positionBytes]
  | indexed =>
    have hfits : ∀ k : UInt64, k.toNat < Nat.pow 256 32 := fun k =>
      Nat.lt_trans k.toNat_lt_size (by decide)
    rw [positionBytes, positionBytes, Bytes.ofNat_inj (hfits i) (hfits j), UInt64.toNat_inj]
    simp

theorem length_entryBytes (h : c.Encodable) :
    (entryBytes layout i c).length = entryWidth layout := by
  rw [entryBytes, List.length_append, List.length_append, length_paddedDenom h.denom_fits,
    length_amountBytes]
  cases layout with
  | symbol => rfl
  | indexed => rw [positionBytes, Bytes.length_ofNat]; rfl

theorem entry_eq_ok_iff {bytes : Bytes} :
    entry layout i c = .ok bytes ↔ c.Encodable ∧ bytes = entryBytes layout i c := by
  simp only [entry, Outcome.bind_eq_ok_iff, denomWord_eq_ok_iff, amountWord_eq_ok_iff]
  constructor
  · rintro ⟨denom, ⟨hfits, hdenom⟩, amount, ⟨hnonneg, rfl⟩, hbytes⟩
    refine ⟨⟨hfits, hnonneg⟩, ?_⟩
    rw [← Except.ok.inj hbytes, hdenom, List.append_assoc]
    cases layout <;> rfl
  · rintro ⟨⟨hfits, hnonneg⟩, rfl⟩
    refine ⟨⟨paddedDenom c.denom, length_paddedDenom hfits⟩, ⟨hfits, rfl⟩, _, ⟨hnonneg, rfl⟩, ?_⟩
    refine congrArg Except.ok ?_
    rw [List.append_assoc]
    cases layout <;> rfl

/-- The bytes of an entry tell its position, if the layout has one, its symbol up to NUL bytes and
its amount. -/
theorem entryBytes_inj (hc : c.Encodable) (hd : d.Encodable) :
    entryBytes layout i c = entryBytes layout j d ↔
      positionBytes layout i = positionBytes layout j ∧ c.Same d := by
  rw [entryBytes, entryBytes,
    List.append_eq_append_iff_of_size_eq_left (length_positionBytes layout i j),
    paddedDenom_append_inj hc.denom_fits hd.denom_fits,
    amountBytes_inj hc.amount_nonneg hd.amount_nonneg, Coin.Same]

/-! ### Consecutive entries -/

variable {start : Nat} {coins others : List Coin}

/-- The bytes of consecutive entries that fit, the first of them at position `start`. -/
def entryList (layout : EntryLayout) : (start : Nat) → List Coin → List Bytes
  | _, [] => []
  | start, coin :: rest => entryBytes layout start coin :: entryList layout (start + 1) rest

theorem entries_eq_ok_iff {list : List Bytes} :
    entries layout start coins = .ok list ↔
      (∀ coin ∈ coins, coin.Encodable) ∧ list = entryList layout start coins := by
  induction coins generalizing start list with
  | nil =>
    rw [entries, entryList, Except.ok.injEq, @eq_comm _ _ list]
    simp
  | cons coin coins ih =>
    simp only [entries, Outcome.bind_eq_ok_iff, entry_eq_ok_iff, ih, List.forall_mem_cons]
    constructor
    · rintro ⟨first, ⟨hcoin, rfl⟩, rest, ⟨hcoins, rfl⟩, hlist⟩
      exact ⟨⟨hcoin, hcoins⟩, (Except.ok.inj hlist).symm⟩
    · rintro ⟨⟨hcoin, hcoins⟩, rfl⟩
      exact ⟨_, ⟨hcoin, rfl⟩, _, ⟨hcoins, rfl⟩, rfl⟩

theorem length_flatten_entryList (layout : EntryLayout) (start : Nat)
    (h : ∀ coin ∈ coins, coin.Encodable) :
    (entryList layout start coins).flatten.length = entryWidth layout * coins.length := by
  induction coins generalizing start with
  | nil => rfl
  | cons coin coins ih =>
    rw [List.forall_mem_cons] at h
    rw [entryList, List.flatten_cons, List.length_append, length_entryBytes h.1, ih _ h.2,
      List.length_cons, Nat.mul_succ, Nat.add_comm]

/-- An entry ends with the word of its amount. -/
theorem exists_amount_of_lt (layout : EntryLayout) (start : Nat) {count : Nat}
    (h : ∀ coin ∈ coins, coin.Encodable) (hcount : count < coins.length) :
    ∃ front amount rest, (entryList layout start coins).flatten =
        front ++ (amountBytes amount ++ rest)
      ∧ front.length + 32 = entryWidth layout * (count + 1) := by
  induction coins generalizing start count with
  | nil => cases hcount
  | cons coin coins ih =>
    rw [List.forall_mem_cons] at h
    have hwidth : (entryBytes layout start coin).length = entryWidth layout :=
      length_entryBytes h.1
    cases count with
    | zero =>
      refine ⟨positionBytes layout start ++ paddedDenom coin.denom, coin.amount,
        (entryList layout (start + 1) coins).flatten, ?_, ?_⟩
      · rw [entryList, List.flatten_cons, entryBytes, List.append_assoc, List.append_assoc,
          List.append_assoc]
      · rw [entryBytes, ← List.append_assoc, List.length_append, length_amountBytes] at hwidth
        rw [hwidth, Nat.zero_add, Nat.mul_one]
    | succ count =>
      obtain ⟨front, amount, rest, hflat, hlength⟩ :=
        ih (start + 1) h.2 (Nat.lt_of_succ_lt_succ hcount)
      refine ⟨entryBytes layout start coin ++ front, amount, rest, ?_, ?_⟩
      · rw [entryList, List.flatten_cons, hflat, List.append_assoc]
      · rw [List.length_append, hwidth, Nat.add_assoc, hlength, Nat.mul_succ _ (count + 1),
          Nat.add_comm]

/-- Entries with the same bytes are the same one by one, as far as both lists go and whatever
follows. -/
theorem same_of_mem_zip {rest more : Bytes} {x y : Coin} (hcoins : ∀ coin ∈ coins, coin.Encodable)
    (hothers : ∀ coin ∈ others, coin.Encodable)
    (h : (entryList layout start coins).flatten ++ rest =
      (entryList layout start others).flatten ++ more)
    (hxy : (x, y) ∈ coins.zip others) : x.Same y := by
  induction coins generalizing start others with
  | nil => cases hxy
  | cons coin coins ih =>
    cases others with
    | nil => cases hxy
    | cons other others =>
      rw [List.forall_mem_cons] at hcoins hothers
      rw [entryList, entryList, List.flatten_cons, List.flatten_cons, List.append_assoc,
        List.append_assoc] at h
      obtain ⟨hfirst, hrest⟩ := List.append_inj h
        (by rw [length_entryBytes hcoins.1, length_entryBytes hothers.1])
      rcases List.mem_cons.mp hxy with heq | hxy
      · obtain ⟨rfl, rfl⟩ := Prod.mk.inj heq
        exact ((entryBytes_inj hcoins.1 hothers.1).mp hfirst).2
      · exact ih hcoins.2 hothers.2 hrest hxy

/-- As many entries in the same places have the same bytes exactly if they are the same one by
one. -/
theorem flatten_entryList_inj (hlength : coins.length = others.length)
    (hcoins : ∀ coin ∈ coins, coin.Encodable) (hothers : ∀ coin ∈ others, coin.Encodable) :
    (entryList layout start coins).flatten = (entryList layout start others).flatten ↔
      List.Forall₂ Coin.Same coins others := by
  constructor
  · intro h
    refine List.forall₂_iff_zip.mpr ⟨hlength, fun hxy => ?_⟩
    exact same_of_mem_zip hcoins hothers (congrArg (· ++ []) h) hxy
  · intro h
    clear hlength
    induction h generalizing start with
    | nil => rfl
    | cons hsame _ ih =>
      rw [List.forall_mem_cons] at hcoins hothers
      rw [entryList, entryList, List.flatten_cons, List.flatten_cons,
        (entryBytes_inj hcoins.1 hothers.1).mpr ⟨rfl, hsame⟩, ih hcoins.2 hothers.2]

end Leaf

/-! ### What does not fit -/

/-- A symbol or a number does not fit in its word. -/
def LeafError.Misfit : LeafError → Prop
  | .denomTooLong _ => True
  | .negativeAmount _ _ => True
  | _ => False

namespace Leaf

open Outcome (ErrsOnly errsOnly_ok errsOnly_error errsOnly_bind)

theorem errsOnly_denomWord (denom : String) : ErrsOnly LeafError.Misfit (denomWord denom) := by
  unfold denomWord
  by_cases hlength : (Text.bytes denom).length ≤ 32
  · rw [dif_pos hlength]
    exact errsOnly_ok _ _
  · rw [dif_neg hlength]
    exact errsOnly_error True.intro

theorem errsOnly_amountWord (denom : String) (amount : Int64) :
    ErrsOnly LeafError.Misfit (amountWord denom amount) := by
  unfold amountWord
  split
  · exact errsOnly_error True.intro
  · exact errsOnly_ok _ _

theorem errsOnly_entry (layout : EntryLayout) (index : Nat) (coin : Coin) :
    ErrsOnly LeafError.Misfit (entry layout index coin) :=
  errsOnly_bind (errsOnly_denomWord _) fun _ =>
    errsOnly_bind (errsOnly_amountWord _ _) fun _ => errsOnly_ok _ _

theorem errsOnly_entries (layout : EntryLayout) (start : Nat) (coins : List Coin) :
    ErrsOnly LeafError.Misfit (entries layout start coins) := by
  induction coins generalizing start with
  | nil => exact errsOnly_ok _ _
  | cons coin coins ih =>
    exact errsOnly_bind (errsOnly_entry _ _ _) fun _ =>
      errsOnly_bind (ih _) fun _ => errsOnly_ok _ _

end Leaf

/-! ### Whole leaves -/

theorem AccountId.octets_inj {a b : AccountId} : a.octets = b.octets ↔ a = b := by
  obtain ⟨a⟩ := a
  obtain ⟨b⟩ := b
  rw [AccountId.mk.injEq]

namespace Leaf

def headBytes (account : Account) : Bytes :=
  account.address.octets.bytes ++ amountBytes account.accountNumber

theorem length_headBytes (account : Account) : (headBytes account).length = 52 := by
  rw [headBytes, List.length_append, Octets.length_bytes, length_amountBytes]

/-- The words before the entries tell the account's identifier and number. -/
theorem headBytes_inj {a b : Account} (ha : 0 ≤ a.accountNumber) (hb : 0 ≤ b.accountNumber) :
    headBytes a = headBytes b ↔ a.address = b.address ∧ a.accountNumber = b.accountNumber := by
  rw [headBytes, headBytes, Octets.append_inj, amountBytes_inj ha hb, AccountId.octets_inj]

end Leaf

/-- Every number and symbol of an account fits in a word. -/
structure Account.Encodable (account : Account) : Prop where
  number_nonneg : 0 ≤ account.accountNumber
  balances : ∀ coin ∈ account.balances, coin.Encodable

/-- Two accounts have the same identifier and number, and their balances are the same one by one, up
to NUL bytes at the end of symbols. -/
@[mk_iff]
structure Account.Same (a b : Account) : Prop where
  address_eq : a.address = b.address
  number_eq : a.accountNumber = b.accountNumber
  balances : List.Forall₂ Coin.Same a.balances b.balances

namespace Leaf

def fullBytes (layout : EntryLayout) (account : Account) : Bytes :=
  headBytes account ++ (entryList layout 0 account.balances).flatten

/-- The leaf of a full account tells the whole account, up to NUL bytes. -/
theorem fullBytes_inj {layout : EntryLayout} {a b : Account} (ha : a.Encodable) (hb : b.Encodable) :
    fullBytes layout a = fullBytes layout b ↔ a.Same b := by
  have hheads : (headBytes a).length = (headBytes b).length := by
    rw [length_headBytes, length_headBytes]
  rw [fullBytes, fullBytes, List.append_eq_append_iff_of_size_eq_left hheads,
    headBytes_inj ha.number_nonneg hb.number_nonneg, Account.same_iff, and_assoc]
  constructor
  · rintro ⟨haddress, hnumber, hentries⟩
    have hcounts := congrArg List.length hentries
    rw [length_flatten_entryList _ _ ha.balances, length_flatten_entryList _ _ hb.balances]
      at hcounts
    obtain ⟨count, hwidth⟩ := exists_entryWidth_eq layout
    have hlength := Nat.eq_of_mul_eq_mul_left (by omega) hcounts
    exact ⟨haddress, hnumber,
      (flatten_entryList_inj hlength ha.balances hb.balances).mp hentries⟩
  · rintro ⟨haddress, hnumber, hbalances⟩
    exact ⟨haddress, hnumber,
      (flatten_entryList_inj hbalances.length_eq ha.balances hb.balances).mpr hbalances⟩

end Leaf

namespace LeafEncoder

open Leaf

variable {encoder : LeafEncoder} {layout : EntryLayout} {account : Account} {index : Nat}
  {leaf : Leaf}

theorem perDenom_eq_ok_iff :
    perDenom layout account index = .ok leaf ↔
      ∃ coin, account.balances[index]? = some coin ∧ coin.Encodable
        ∧ leaf = ⟨account.address.octets.bytes ++ entryBytes layout index coin, index, none⟩ := by
  unfold perDenom
  cases hcoin : account.balances[index]? with
  | none => simp
  | some coin =>
    simp only [Outcome.bind_eq_ok_iff, entry_eq_ok_iff, Option.some.injEq, exists_eq_left']
    constructor
    · rintro ⟨_, ⟨hencodable, rfl⟩, hleaf⟩
      exact ⟨hencodable, (Except.ok.inj hleaf).symm⟩
    · rintro ⟨hencodable, rfl⟩
      exact ⟨_, ⟨hencodable, rfl⟩, rfl⟩

/-- A balance has a leaf of its own if it fits. -/
theorem exists_perDenom_iff {coin : Coin} {bytes : Bytes}
    (hcoin : account.balances[index]? = some coin) :
    (∃ leaf, perDenom layout account index = .ok leaf ∧ leaf.bytes = bytes) ↔
      coin.Encodable ∧ bytes = account.address.octets.bytes ++ entryBytes layout index coin := by
  simp only [perDenom_eq_ok_iff, hcoin, Option.some.injEq, exists_eq_left']
  constructor
  · rintro ⟨leaf, ⟨hencodable, rfl⟩, rfl⟩
    exact ⟨hencodable, rfl⟩
  · rintro ⟨hencodable, rfl⟩
    exact ⟨_, ⟨hencodable, rfl⟩, rfl⟩

/-- A full account has a leaf if everything fits, and the same one whichever entry is selected. -/
theorem exists_fullAccount_iff {bytes : Bytes} :
    (∃ leaf, fullAccount layout account index = .ok leaf ∧ leaf.bytes = bytes) ↔
      account.Encodable ∧ bytes = fullBytes layout account := by
  simp only [fullAccount, Outcome.bind_eq_ok_iff, entries_eq_ok_iff, amountWord_eq_ok_iff]
  constructor
  · rintro ⟨leaf, ⟨number, ⟨hnumber, rfl⟩, list, ⟨hbalances, rfl⟩, hleaf⟩, rfl⟩
    obtain rfl := Except.ok.inj hleaf
    exact ⟨⟨hnumber, hbalances⟩, rfl⟩
  · rintro ⟨⟨hnumber, hbalances⟩, rfl⟩
    exact ⟨_, ⟨_, ⟨hnumber, rfl⟩, _, ⟨hbalances, rfl⟩, rfl⟩, rfl⟩

theorem errsOnly_fullAccount (layout : EntryLayout) (account : Account) (index : Nat) :
    Outcome.ErrsOnly LeafError.Misfit (fullAccount layout account index) :=
  Outcome.errsOnly_bind (errsOnly_amountWord _ _) fun _ =>
    Outcome.errsOnly_bind (errsOnly_entries layout 0 _) fun _ => Outcome.errsOnly_ok _ _

/-- An entry that the account has can only fail to fit. -/
theorem errsOnly_encodeAt (encoder : LeafEncoder) {coin : Coin}
    (hcoin : account.balances[index]? = some coin) :
    Outcome.ErrsOnly LeafError.Misfit (encoder.encodeAt account index) := by
  obtain ⟨version, layout⟩ := encoder
  cases version with
  | perDenom =>
    show Outcome.ErrsOnly _ (perDenom layout account index)
    rw [perDenom, hcoin]
    exact Outcome.errsOnly_bind (errsOnly_entry layout index coin) fun _ => Outcome.errsOnly_ok _ _
  | fullAccount => exact errsOnly_fullAccount layout account index

/-- A selected entry fits if there is a leaf. -/
theorem encodable_of_encodeAt {coin : Coin} (h : encoder.encodeAt account index = .ok leaf)
    (hcoin : account.balances[index]? = some coin) : coin.Encodable := by
  obtain ⟨version, layout⟩ := encoder
  cases version with
  | perDenom =>
    obtain ⟨hencodable, -⟩ := (exists_perDenom_iff hcoin).mp ⟨leaf, h, rfl⟩
    exact hencodable
  | fullAccount =>
    obtain ⟨haccount, -⟩ := exists_fullAccount_iff.mp ⟨leaf, h, rfl⟩
    exact haccount.balances coin (List.mem_of_getElem? hcoin)

/-- The length of a leaf is that of an identifier and a number of words. -/
theorem length_bytes_mod (h : encoder.encodeAt account index = .ok leaf) :
    leaf.bytes.length % 32 = 20 := by
  obtain ⟨version, layout⟩ := encoder
  obtain ⟨count, hwidth⟩ := exists_entryWidth_eq layout
  cases version with
  | perDenom =>
    obtain ⟨coin, -, hcoin, rfl⟩ := perDenom_eq_ok_iff.mp h
    rw [List.length_append, Octets.length_bytes, length_entryBytes hcoin]
    show (20 + entryWidth layout) % 32 = 20
    omega
  | fullAccount =>
    obtain ⟨haccount, hbytes⟩ := exists_fullAccount_iff.mp ⟨leaf, h, rfl⟩
    rw [hbytes, fullBytes, List.length_append, length_headBytes,
      length_flatten_entryList _ _ haccount.balances, hwidth, Nat.mul_assoc]
    omega

end LeafEncoder

/-! ### Splits -/

namespace Leaf

variable {layout : EntryLayout} {index : Nat} {coin : Coin}

theorem take_entryList (layout : EntryLayout) (start count : Nat) (coins : List Coin) :
    (entryList layout start coins).take count = entryList layout start (coins.take count) := by
  induction coins generalizing start count with
  | nil => rw [List.take_nil, entryList, List.take_nil]
  | cons coin coins ih =>
    cases count with
    | zero => rfl
    | succ count => rw [entryList, List.take_succ_cons, ih, List.take_succ_cons, entryList]

theorem drop_entryList (layout : EntryLayout) (start count : Nat) (coins : List Coin) :
    (entryList layout start coins).drop count =
      entryList layout (start + count) (coins.drop count) := by
  induction coins generalizing start count with
  | nil => rw [List.drop_nil, entryList, List.drop_nil, entryList]
  | cons coin coins ih =>
    cases count with
    | zero => rfl
    | succ count =>
      rw [entryList, List.drop_succ_cons, ih, List.drop_succ_cons, Nat.add_right_comm,
        Nat.add_assoc]

theorem length_entryList (layout : EntryLayout) (start : Nat) (coins : List Coin) :
    (entryList layout start coins).length = coins.length := by
  induction coins generalizing start with
  | nil => rfl
  | cons coin coins ih => rw [entryList, List.length_cons, ih, List.length_cons]

/-- What stands before the selected entry of a full account. -/
def beforeEntry (layout : EntryLayout) (account : Account) (index : Nat) : Bytes :=
  headBytes account ++ (entryList layout 0 (account.balances.take index)).flatten

/-- What stands behind the selected entry of a full account. -/
def behindEntry (layout : EntryLayout) (account : Account) (index : Nat) : Bytes :=
  (entryList layout (index + 1) (account.balances.drop (index + 1))).flatten

theorem length_behindEntry {account : Account} (haccount : account.Encodable) :
    (behindEntry layout account index).length =
      entryWidth layout * (account.balances.length - 1 - index) := by
  have hdrop : ∀ coin ∈ account.balances.drop (index + 1), coin.Encodable :=
    fun coin hmem => haccount.balances coin (List.mem_of_mem_drop hmem)
  rw [behindEntry, length_flatten_entryList layout (index + 1) hdrop, List.length_drop,
    Nat.sub_sub, Nat.add_comm]

variable {account : Account} (hcoin : account.balances[index]? = some coin)
include hcoin

theorem fullBytes_eq_split :
    fullBytes layout account = beforeEntry layout account index
      ++ (entryBytes layout index coin ++ behindEntry layout account index) := by
  obtain ⟨hlt, rfl⟩ := List.getElem?_eq_some_iff.mp hcoin
  have hentries : entryList layout 0 account.balances =
      entryList layout 0 (account.balances.take index)
        ++ entryBytes layout index account.balances[index]
          :: entryList layout (index + 1) (account.balances.drop (index + 1)) := by
    rw [← take_entryList, ← entryList, ← List.drop_eq_getElem_cons hlt]
    have hdrop := drop_entryList layout 0 index account.balances
    rw [Nat.zero_add] at hdrop
    rw [← hdrop, List.take_append_drop]
  rw [fullBytes, hentries, List.flatten_append, List.flatten_cons, beforeEntry, behindEntry,
    List.append_assoc]

/-- The place of the selected entry shows in the length of what stands before it. -/
theorem length_beforeEntry (haccount : account.Encodable) :
    (beforeEntry layout account index).length = 52 + entryWidth layout * index := by
  obtain ⟨hlt, -⟩ := List.getElem?_eq_some_iff.mp hcoin
  have htake : ∀ coin ∈ account.balances.take index, coin.Encodable :=
    fun coin hmem => haccount.balances coin (List.mem_of_mem_take hmem)
  rw [beforeEntry, List.length_append, length_headBytes, length_flatten_entryList layout 0 htake,
    List.length_take, Nat.min_eq_left (Nat.le_of_lt hlt)]

end Leaf

namespace LeafEncoder

open Leaf

variable {layout : EntryLayout} {account : Account} {index : Nat} {leaf : Leaf} {coin : Coin}

theorem leaf_of_fullAccount (h : fullAccount layout account index = .ok leaf)
    (hcoin : account.balances[index]? = some coin) :
    leaf = ⟨fullBytes layout account, index,
      some (beforeEntry layout account index, behindEntry layout account index)⟩ := by
  obtain ⟨number, hnumber, h⟩ := Outcome.bind_eq_ok_iff.mp h
  obtain ⟨list, hlist, h⟩ := Outcome.bind_eq_ok_iff.mp h
  obtain ⟨-, rfl⟩ := amountWord_eq_ok_iff.mp hnumber
  obtain ⟨-, rfl⟩ := entries_eq_ok_iff.mp hlist
  obtain ⟨hlt, -⟩ := List.getElem?_eq_some_iff.mp hcoin
  rw [← Except.ok.inj h, length_entryList, if_pos hlt, take_entryList, drop_entryList,
    Nat.zero_add]
  rfl

/-- The leaf of a full account splits around an entry that the account has. -/
theorem split_of_fullAccount (h : fullAccount layout account index = .ok leaf)
    (hcoin : account.balances[index]? = some coin) :
    leaf.split = some (beforeEntry layout account index, behindEntry layout account index)
      ∧ leaf.bytes = beforeEntry layout account index
          ++ (entryBytes layout index coin ++ behindEntry layout account index)
      ∧ (beforeEntry layout account index).length = 52 + entryWidth layout * index := by
  obtain ⟨haccount, -⟩ := exists_fullAccount_iff.mp ⟨leaf, h, rfl⟩
  obtain rfl := leaf_of_fullAccount h hcoin
  exact ⟨rfl, fullBytes_eq_split hcoin, length_beforeEntry hcoin haccount⟩

end LeafEncoder

end TokenApproval
