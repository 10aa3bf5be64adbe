import TokenApproval.Proofs.Ledger.Leaf
import TokenApproval.Proofs.Ledger.Selection

/-!
# What a leaf commits to

Leaves of one encoder are compared as byte strings only, so an account is committed to as far as its
leaf tells it from others. A per-denom leaf tells the selected balance, and its position if the
layout writes one; a full-account leaf tells the account number and the balances one by one, without
a count of them, and not which one is selected. Two accounts whose symbols differ by NUL bytes at
their end share a leaf, and no others do (`leaf_bytes_eq_iff`).
-/

namespace TokenApproval

/-- Lists of balances are the same one by one exactly if they are equally long and hold the same at
each position. -/
theorem Coin.forall₂_same_iff {coins others : List Coin} :
    List.Forall₂ Coin.Same coins others ↔
      coins.length = others.length
        ∧ ∀ (n : Nat) (c d : Coin), coins[n]? = some c → others[n]? = some d →
          c.amount = d.amount ∧ SameDenom c.denom d.denom := by
  rw [List.forall₂_iff_get]
  refine and_congr_right fun hlength => ?_
  constructor
  · intro hsame n c d hc hd
    obtain ⟨hn, rfl⟩ := List.getElem?_eq_some_iff.mp hc
    obtain ⟨hn', rfl⟩ := List.getElem?_eq_some_iff.mp hd
    obtain ⟨hdenom, hamount⟩ := hsame n hn hn'
    exact ⟨hamount, hdenom⟩
  · intro hsame n hn hn'
    obtain ⟨hamount, hdenom⟩ :=
      hsame n _ _ (List.getElem?_eq_getElem hn) (List.getElem?_eq_getElem hn')
    exact ⟨hdenom, hamount⟩

namespace LeafEncoder

open Leaf

variable {encoder : LeafEncoder} {layout : EntryLayout} {a b : Account} {c d : Coin} {x y : Leaf}

theorem perDenom_bytes_eq_iff {i j : UInt64} (hx : perDenom layout a i.toNat = .ok x)
    (hy : perDenom layout b j.toNat = .ok y) (hc : a.balances[i.toNat]? = some c)
    (hd : b.balances[j.toNat]? = some d) :
    x.bytes = y.bytes ↔
      a.address = b.address ∧ c.amount = d.amount ∧ (layout = .indexed → i = j)
        ∧ SameDenom c.denom d.denom := by
  obtain ⟨hcfits, hxbytes⟩ := (exists_perDenom_iff hc).mp ⟨x, hx, rfl⟩
  obtain ⟨hdfits, hybytes⟩ := (exists_perDenom_iff hd).mp ⟨y, hy, rfl⟩
  rw [hxbytes, hybytes, Octets.append_inj, AccountId.octets_inj, entryBytes_inj hcfits hdfits,
    positionBytes_inj, Coin.Same]
  constructor
  · rintro ⟨haddress, hposition, hdenom, hamount⟩
    exact ⟨haddress, hamount, hposition, hdenom⟩
  · rintro ⟨haddress, hamount, hposition, hdenom⟩
    exact ⟨haddress, hposition, hdenom, hamount⟩

theorem fullAccount_bytes_eq_iff {i j : Nat} (hx : fullAccount layout a i = .ok x)
    (hy : fullAccount layout b j = .ok y) : x.bytes = y.bytes ↔ a.Same b := by
  obtain ⟨ha, hxbytes⟩ := exists_fullAccount_iff.mp ⟨x, hx, rfl⟩
  obtain ⟨hb, hybytes⟩ := exists_fullAccount_iff.mp ⟨y, hy, rfl⟩
  rw [hxbytes, hybytes, fullBytes_inj ha hb]

/-- **What a leaf commits to.** Two leaves of one encoder are the same bytes exactly if they are of
one identifier and, for single balances, of one amount, one symbol up to NUL bytes at its end and
one position where the layout has it, or, for full accounts, of one account number and as many
balances with the same amounts and symbols at the same positions. So a full account that has a
balance more or less, or another one at some position, has another leaf. -/
theorem leaf_bytes_eq_iff {i j : UInt64} (hx : encoder.encodeAt a i.toNat = .ok x)
    (hy : encoder.encodeAt b j.toNat = .ok y) (hc : a.balances[i.toNat]? = some c)
    (hd : b.balances[j.toNat]? = some d) :
    (encoder.version = .perDenom →
      (x.bytes = y.bytes ↔
        a.address = b.address ∧ c.amount = d.amount ∧ (encoder.layout = .indexed → i = j)
          ∧ SameDenom c.denom d.denom))
      ∧ (encoder.version = .fullAccount →
        (x.bytes = y.bytes ↔
          a.address = b.address ∧ a.accountNumber = b.accountNumber
            ∧ a.balances.length = b.balances.length
            ∧ ∀ (n : Nat) (e f : Coin), a.balances[n]? = some e → b.balances[n]? = some f →
              e.amount = f.amount ∧ SameDenom e.denom f.denom)
        ∧ (a.balances.length ≠ b.balances.length → x.bytes ≠ y.bytes)
        ∧ ∀ (n : Nat) (e f : Coin), a.balances[n]? = some e → b.balances[n]? = some f →
          ¬ (e.amount = f.amount ∧ SameDenom e.denom f.denom) → x.bytes ≠ y.bytes) := by
  obtain ⟨version, layout⟩ := encoder
  constructor
  · rintro rfl
    exact perDenom_bytes_eq_iff hx hy hc hd
  · rintro rfl
    have hiff := fullAccount_bytes_eq_iff hx hy
    rw [Account.same_iff, Coin.forall₂_same_iff] at hiff
    refine ⟨hiff, fun hcounts hbytes => ?_, fun n e f he hf hother hbytes => ?_⟩
    · obtain ⟨-, -, hlength, -⟩ := hiff.mp hbytes
      exact hcounts hlength
    · obtain ⟨-, -, -, hsame⟩ := hiff.mp hbytes
      exact hother (hsame n e f he hf)

end LeafEncoder

/-! Two balances in the other order make another leaf; a NUL byte at the end of a symbol does not.
-/

namespace Sample

/-- An account with two balances, the first of them named by `denom`. -/
def tokenHolder (denom : String) : Account :=
  ⟨⟨Octets.ofNat 20 0x670ece6a4602dc4a6311b634e9293f94374b3c00⟩, 1, [⟨denom, 5⟩, ⟨"XRP", 7⟩]⟩

/-- The account with its balances in the other order. -/
def reordered (account : Account) : Account := { account with balances := account.balances.reverse }

/-- The encoder of full accounts, without positions. -/
def wholeAccounts : LeafEncoder := ⟨.fullAccount, .symbol⟩

end Sample

namespace LeafEncoder

open Sample

theorem leaf_bytes_eq_iff_sample :
    ∃ plain padded turned,
      wholeAccounts.encodeAt (tokenHolder "BNB") (0 : UInt64).toNat = .ok plain
        ∧ wholeAccounts.encodeAt (tokenHolder "BNB\x00") (0 : UInt64).toNat = .ok padded
        ∧ wholeAccounts.encodeAt (reordered (tokenHolder "BNB")) (0 : UInt64).toNat = .ok turned
        ∧ plain.bytes = padded.bytes ∧ plain.bytes ≠ turned.bytes := by
  have hencodes : ∀ account : Account, account.Encodable →
      ∃ leaf, wholeAccounts.encodeAt account (0 : UInt64).toNat = .ok leaf := by
    intro account haccount
    obtain ⟨leaf, hleaf, -⟩ := exists_fullAccount_iff.mpr ⟨haccount, rfl⟩
    exact ⟨leaf, hleaf⟩
  obtain ⟨plain, hplain⟩ := hencodes (tokenHolder "BNB") ⟨by decide, by decide⟩
  obtain ⟨padded, hpadded⟩ := hencodes (tokenHolder "BNB\x00") ⟨by decide, by decide⟩
  obtain ⟨turned, hturned⟩ := hencodes (reordered (tokenHolder "BNB")) ⟨by decide, by decide⟩
  have hsame : List.Forall₂ Coin.Same (tokenHolder "BNB").balances
      (tokenHolder "BNB\x00").balances := .cons ⟨by decide, rfl⟩ (.cons ⟨by decide, rfl⟩ .nil)
  refine ⟨plain, padded, turned, hplain, hpadded, hturned, ?_, ?_⟩
  · have hiff := ((leaf_bytes_eq_iff hplain hpadded rfl rfl).2 rfl).1
    exact hiff.mpr ⟨rfl, rfl, Coin.forall₂_same_iff.mp hsame⟩
  · have hother := ((leaf_bytes_eq_iff hplain hturned rfl rfl).2 rfl).2.2
    exact hother 0 _ _ rfl rfl (by decide)

end LeafEncoder

/-! ## The values that a leaf is written from

A leaf is the account's identifier and one word for each of its values: those of the selected entry,
or the account number and those of all entries. `LeafEncoder.values` lists them in the order in
which they are written. A leaf is refused for the first value of the list that does not fit in a
word, so for a full account the reason may be an entry other than the selected one; a leaf that is
written is the identifier with the words of the list behind it. -/

/-- A value that takes a word of a leaf. -/
inductive LeafValue where
  | position (index : Nat)
  | symbol (denom : String)
  /-- An amount, with the name that errors give it. -/
  | amount (name : String) (value : Int64)
deriving DecidableEq

namespace LeafValue

/-- Why a value does not fit in a word, if it does not. -/
def misfit? : LeafValue → Option LeafError
  | .position _ => none
  | .symbol denom => if (Text.bytes denom).length ≤ 32 then none else some (.denomTooLong denom)
  | .amount name value => if 0 ≤ value then none else some (.negativeAmount name value)

def bytes : LeafValue → Bytes
  | .position index => Bytes.ofNat 32 index
  | .symbol denom => Leaf.paddedDenom denom
  | .amount _ value => Leaf.amountBytes value

theorem length_bytes {value : LeafValue} (h : value.misfit? = none) : value.bytes.length = 32 := by
  cases value with
  | position index => exact Bytes.length_ofNat 32 index
  | symbol denom =>
    by_cases hfits : (Text.bytes denom).length ≤ 32
    · exact Leaf.length_paddedDenom hfits
    · simp [misfit?, hfits] at h
  | amount name value => exact Leaf.length_amountBytes value

end LeafValue

/-! ### Lists of values -/

namespace Leaf

/-- The values of a balance entry. -/
def entryValues : EntryLayout → (index : Nat) → Coin → List LeafValue
  | .symbol, _, coin => [.symbol coin.denom, .amount coin.denom coin.amount]
  | .indexed, index, coin =>
    [.position index, .symbol coin.denom, .amount coin.denom coin.amount]

/-- The values of consecutive entries, the first of them at position `start`. -/
def balanceValues (layout : EntryLayout) (start : Nat) (coins : List Coin) : List LeafValue :=
  (coins.zipIdx start).flatMap fun (coin, index) => entryValues layout index coin

end Leaf

open Leaf in
/-- The values of a leaf, in the order in which they are written. -/
def LeafEncoder.values (encoder : LeafEncoder) (account : Account) (index : Nat) :
    List LeafValue :=
  match encoder.version with
  | .perDenom => account.balances[index]?.toList.flatMap (entryValues encoder.layout index)
  | .fullAccount =>
    .amount "account_number" account.accountNumber
      :: balanceValues encoder.layout 0 account.balances

namespace Leaf

open Outcome (Reports reports_bind reports_ok reports_error)

variable {layout : EntryLayout} {index start : Nat} {coin : Coin} {coins : List Coin}

theorem flatMap_entryValues (layout : EntryLayout) (index : Nat) (coin : Coin) :
    (entryValues layout index coin).flatMap LeafValue.bytes = entryBytes layout index coin := by
  cases layout <;> simp [entryValues, LeafValue.bytes, entryBytes, positionBytes]

/-- The values of an entry that fits do. -/
theorem misfit?_of_encodable (h : coin.Encodable) {value : LeafValue}
    (hvalue : value ∈ entryValues layout index coin) : value.misfit? = none := by
  cases layout with
  | symbol =>
    simp only [entryValues, List.mem_cons, List.not_mem_nil, or_false] at hvalue
    rcases hvalue with rfl | rfl
    · exact if_pos h.denom_fits
    · exact if_pos h.amount_nonneg
  | indexed =>
    simp only [entryValues, List.mem_cons, List.not_mem_nil, or_false] at hvalue
    rcases hvalue with rfl | rfl | rfl
    · rfl
    · exact if_pos h.denom_fits
    · exact if_pos h.amount_nonneg

theorem balanceValues_cons (layout : EntryLayout) (start : Nat) (coin : Coin) (coins : List Coin) :
    balanceValues layout start (coin :: coins) =
      entryValues layout start coin ++ balanceValues layout (start + 1) coins := by
  rw [balanceValues, List.zipIdx_cons, List.flatMap_cons, balanceValues]

theorem flatMap_balanceValues (layout : EntryLayout) (start : Nat) (coins : List Coin) :
    (balanceValues layout start coins).flatMap LeafValue.bytes =
      (entryList layout start coins).flatten := by
  induction coins generalizing start with
  | nil => rfl
  | cons coin coins ih =>
    rw [balanceValues_cons, List.flatMap_append, flatMap_entryValues, ih, entryList,
      List.flatten_cons]

/-! ### The first value that does not fit -/

/-- Why values do not fit, in the order of the values. -/
def misfits (values : List LeafValue) : List LeafError := values.filterMap LeafValue.misfit?

theorem misfits_cons (value : LeafValue) (values : List LeafValue) :
    misfits (value :: values) = value.misfit?.toList ++ misfits values := by
  rw [misfits, List.filterMap_cons]
  cases value.misfit? <;> rfl

theorem misfits_append (values others : List LeafValue) :
    misfits (values ++ others) = misfits values ++ misfits others :=
  List.filterMap_append

theorem reports_denomWord (denom : String) :
    Reports (denomWord denom) (LeafValue.symbol denom).misfit?.toList := by
  rw [denomWord, LeafValue.misfit?]
  by_cases hfits : (Text.bytes denom).length ≤ 32
  · rw [dif_pos hfits, if_pos hfits]
    exact reports_ok _
  · rw [dif_neg hfits, if_neg hfits]
    exact reports_error _

theorem reports_amountWord (name : String) (amount : Int64) :
    Reports (amountWord name amount) (LeafValue.amount name amount).misfit?.toList := by
  rw [amountWord, LeafValue.misfit?]
  by_cases hnegative : amount < 0
  · rw [if_pos hnegative, if_neg (Int64.not_le.mpr hnegative)]
    exact reports_error _
  · rw [if_neg hnegative, if_pos (Int64.not_lt.mp hnegative)]
    exact reports_ok _

theorem reports_entry (layout : EntryLayout) (index : Nat) (coin : Coin) :
    Reports (entry layout index coin) (misfits (entryValues layout index coin)) := by
  have hvalues : misfits (entryValues layout index coin) =
      (LeafValue.symbol coin.denom).misfit?.toList
        ++ ((LeafValue.amount coin.denom coin.amount).misfit?.toList ++ []) := by
    cases layout <;> simp only [entryValues, misfits_cons] <;> rfl
  rw [hvalues]
  exact reports_bind (reports_denomWord _) fun denom _ =>
    reports_bind (reports_amountWord _ _) fun amount _ => reports_ok _

theorem reports_entries (layout : EntryLayout) (start : Nat) (coins : List Coin) :
    Reports (entries layout start coins) (misfits (balanceValues layout start coins)) := by
  induction coins generalizing start with
  | nil => exact reports_ok []
  | cons coin coins ih =>
    rw [balanceValues_cons, misfits_append, ← List.append_nil (misfits (balanceValues _ _ _))]
    exact reports_bind (reports_entry layout start coin) fun first _ =>
      reports_bind (ih (start + 1)) fun others _ => reports_ok (first :: others)

end Leaf

namespace LeafEncoder

open Leaf
open Outcome (Reports reports_bind reports_ok)

variable {encoder : LeafEncoder} {account : Account} {index : Nat} {coin : Coin} {leaf : Leaf}

theorem values_perDenom (layout : EntryLayout) (hcoin : account.balances[index]? = some coin) :
    values ⟨.perDenom, layout⟩ account index = entryValues layout index coin := by
  rw [values, hcoin]
  exact List.append_nil _

theorem reports_encodeAt (encoder : LeafEncoder) (hcoin : account.balances[index]? = some coin) :
    Reports (encoder.encodeAt account index) (misfits (encoder.values account index)) := by
  obtain ⟨version, layout⟩ := encoder
  cases version with
  | perDenom =>
    show Reports (perDenom layout account index) (misfits _)
    rw [values_perDenom layout hcoin, perDenom, hcoin, ← List.append_nil (misfits _)]
    exact reports_bind (reports_entry layout index coin) fun _ _ => reports_ok _
  | fullAccount =>
    show Reports (fullAccount layout account index) (misfits _)
    rw [values, misfits_cons, ← List.append_nil (misfits _)]
    exact reports_bind (reports_amountWord _ _) fun _ _ =>
      reports_bind (reports_entries layout 0 account.balances) fun _ _ => reports_ok _

/-! ### What is written -/

/-- A full account, or else the selected entry, fits in the words of a leaf. -/
def Fits (encoder : LeafEncoder) (account : Account) (coin : Coin) : Prop :=
  match encoder.version with
  | .perDenom => coin.Encodable
  | .fullAccount => account.Encodable

/-- A leaf holds its values in order, and a leaf of a full account splits around the entry. -/
structure LaysOut (encoder : LeafEncoder) (account : Account) (index : Nat) (coin : Coin)
    (leaf : Leaf) : Prop where
  index_eq : leaf.index = index
  bytes_eq : leaf.bytes =
    account.address.octets.bytes ++ (encoder.values account index).flatMap LeafValue.bytes
  perDenom : encoder.version = .perDenom →
    leaf.bytes.length = 20 + entryWidth encoder.layout ∧ leaf.split = none
  fullAccount : encoder.version = .fullAccount →
    leaf.bytes.length = 52 + entryWidth encoder.layout * account.balances.length
      ∧ ∃ before entry behind, leaf.split = some (before, behind)
        ∧ Leaf.entry encoder.layout index coin = .ok entry ∧ before ++ entry ++ behind = leaf.bytes
        ∧ before.length = 52 + entryWidth encoder.layout * index
        ∧ behind.length = entryWidth encoder.layout * (account.balances.length - 1 - index)

theorem exists_encodeAt_iff (encoder : LeafEncoder)
    (hcoin : account.balances[index]? = some coin) :
    (∃ leaf, encoder.encodeAt account index = .ok leaf) ↔ encoder.Fits account coin := by
  obtain ⟨version, layout⟩ := encoder
  cases version with
  | perDenom =>
    constructor
    · rintro ⟨leaf, hleaf⟩
      exact encodable_of_encodeAt hleaf hcoin
    · intro hfits
      exact ⟨_, perDenom_eq_ok_iff.mpr ⟨coin, hcoin, hfits, rfl⟩⟩
  | fullAccount =>
    constructor
    · rintro ⟨leaf, hleaf⟩
      exact (exists_fullAccount_iff.mp ⟨leaf, hleaf, rfl⟩).1
    · intro hfits
      obtain ⟨leaf, hleaf, -⟩ := exists_fullAccount_iff.mpr ⟨hfits, rfl⟩
      exact ⟨leaf, hleaf⟩

theorem laysOut_of_encodeAt (hcoin : account.balances[index]? = some coin)
    (hleaf : encoder.encodeAt account index = .ok leaf) :
    encoder.LaysOut account index coin leaf := by
  obtain ⟨version, layout⟩ := encoder
  cases version with
  | perDenom =>
    obtain ⟨other, hother, hencodable, rfl⟩ := perDenom_eq_ok_iff.mp hleaf
    obtain rfl := Option.some.inj (hother.symm.trans hcoin)
    constructor
    case index_eq => rfl
    case bytes_eq => rw [values_perDenom layout hcoin, flatMap_entryValues]
    case perDenom =>
      intro _
      refine ⟨?_, rfl⟩
      rw [List.length_append, Octets.length_bytes, length_entryBytes hencodable]
    case fullAccount =>
      intro hversion
      cases hversion
  | fullAccount =>
    obtain ⟨haccount, -⟩ := exists_fullAccount_iff.mp ⟨leaf, hleaf, rfl⟩
    obtain rfl := leaf_of_fullAccount hleaf hcoin
    constructor
    case index_eq => rfl
    case bytes_eq =>
      rw [fullBytes, headBytes, values, List.flatMap_cons, flatMap_balanceValues, List.append_assoc]
      rfl
    case perDenom =>
      intro hversion
      cases hversion
    case fullAccount =>
      intro _
      refine ⟨?_, beforeEntry layout account index, entryBytes layout index coin,
        behindEntry layout account index, rfl, ?_, ?_, length_beforeEntry hcoin haccount,
        length_behindEntry haccount⟩
      · rw [fullBytes, List.length_append, length_headBytes,
          length_flatten_entryList _ _ haccount.balances]
      · exact entry_eq_ok_iff.mpr ⟨haccount.balances coin (List.mem_of_getElem? hcoin), rfl⟩
      · rw [fullBytes_eq_split hcoin, List.append_assoc]

/-! ### Leaves of tokens -/

variable {denom : String} {requested : Option UInt32} {position : Nat}

/-- A token selects its first balance, if its amount is positive and no other position is asked
for. -/
def Selects (account : Account) (denom : String) (requested : Option UInt32) (position : Nat) :
    Prop :=
  ∃ coin, account.FirstEntry denom position coin ∧ 0 < coin.amount
    ∧ ∀ i, requested = some i → i.toNat = position

theorem encode_of_selects (encoder : LeafEncoder)
    (h : Selects account denom requested position) :
    encoder.encode account denom requested = encoder.encodeAt account position := by
  rw [encode, select_eq_ok_iff.mpr h]
  rfl

theorem encode_eq_ok_iff : encoder.encode account denom requested = .ok leaf ↔
    ∃ position, Selects account denom requested position
      ∧ encoder.encodeAt account position = .ok leaf := by
  rw [encode, Outcome.bind_eq_ok_iff]
  simp only [select_eq_ok_iff, Selects]

theorem exists_error_of_not_selects (encoder : LeafEncoder)
    (h : ∀ position, ¬ Selects account denom requested position) :
    ∃ error, encoder.encode account denom requested = .error error := by
  cases hselect : select account denom requested with
  | error error =>
    refine ⟨error, ?_⟩
    rw [encode, hselect]
    rfl
  | ok position => exact absurd (select_eq_ok_iff.mp hselect) (h position)

/-- **What is written, and what is refused.** An entry that the account has gets a leaf exactly if
all that is written fits, and is refused for the first value that does not. The leaf has the length
of its entries, is the same for every entry of a full account and splits around the selected one. A
token gets the leaf of the balance that it selects, and is refused if it selects none. -/
theorem written_or_first_misfit (hcoin : account.balances[index]? = some coin) :
    ((∃ leaf, encoder.encodeAt account index = .ok leaf) ↔ encoder.Fits account coin)
      ∧ (∀ error, encoder.encodeAt account index = .error error ↔
        (encoder.values account index).findSome? LeafValue.misfit? = some error)
      ∧ (∀ leaf, encoder.encodeAt account index = .ok leaf →
        encoder.LaysOut account index coin leaf)
      ∧ (encoder.version = .fullAccount → ∀ other leaf leaf',
        encoder.encodeAt account index = .ok leaf → encoder.encodeAt account other = .ok leaf' →
          leaf.bytes = leaf'.bytes)
      ∧ ∀ denom requested,
        (∀ leaf, encoder.encode account denom requested = .ok leaf ↔
            ∃ position, Selects account denom requested position
              ∧ encoder.encodeAt account position = .ok leaf)
          ∧ (∀ position, Selects account denom requested position →
            encoder.encode account denom requested = encoder.encodeAt account position)
          ∧ ((∀ position, ¬ Selects account denom requested position) →
            ∃ error, encoder.encode account denom requested = .error error) := by
  refine ⟨exists_encodeAt_iff encoder hcoin, fun error => ?_, fun leaf => laysOut_of_encodeAt hcoin,
    ?_, fun denom requested => ⟨fun leaf => encode_eq_ok_iff,
      fun position => encode_of_selects encoder, exists_error_of_not_selects encoder⟩⟩
  · rw [reports_encodeAt encoder hcoin error, misfits, List.head?_filterMap]
  · intro hversion other leaf leaf' hleaf hother
    obtain ⟨version, layout⟩ := encoder
    obtain rfl : version = .fullAccount := hversion
    obtain ⟨-, hbytes⟩ := exists_fullAccount_iff.mp ⟨leaf, hleaf, rfl⟩
    obtain ⟨-, hbytes'⟩ := exists_fullAccount_iff.mp ⟨leaf', hother, rfl⟩
    rw [hbytes, hbytes']

/-! A full account is refused for a balance other than the selected one, which has a leaf of its
own. -/

/-- An account that has lost more of its second token than it had. -/
def overdrawn : Account := ⟨⟨Octets.zero 20⟩, 1, [⟨"BNB", 5⟩, ⟨"XRP", -1⟩]⟩

theorem written_or_first_misfit_sample :
    overdrawn.balances[0]? = some ⟨"BNB", 5⟩
      ∧ encodeAt ⟨.fullAccount, .indexed⟩ overdrawn 0 = .error (.negativeAmount "XRP" (-1))
      ∧ ∃ leaf, encode ⟨.perDenom, .indexed⟩ overdrawn "BNB" (some 0) = .ok leaf
        ∧ leaf.bytes.length = 116 := by
  have hcoin : overdrawn.balances[0]? = some ⟨"BNB", 5⟩ := rfl
  refine ⟨hcoin, ?_, ?_⟩
  · exact ((written_or_first_misfit hcoin).2.1 _).mpr (by decide)
  · obtain ⟨hwritten, -, hlaysOut, -, hselected⟩ :=
      @written_or_first_misfit ⟨.perDenom, .indexed⟩ _ _ _ hcoin
    obtain ⟨leaf, hleaf⟩ := hwritten.mpr (show Coin.Encodable ⟨"BNB", 5⟩ by decide)
    have hselects : Selects overdrawn "BNB" (some 0) 0 := by
      refine ⟨⟨"BNB", 5⟩, ⟨rfl, rfl, fun i hi => absurd hi (Nat.not_lt_zero i)⟩, by decide, ?_⟩
      rintro i ⟨⟩
      rfl
    refine ⟨leaf, ((hselected "BNB" (some 0)).2.1 0 hselects).trans hleaf, ?_⟩
    exact ((hlaysOut leaf hleaf).perDenom rfl).1

end LeafEncoder

end TokenApproval
