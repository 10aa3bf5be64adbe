import TokenApproval.Ledger.Record
import TokenApproval.Proofs.Data.Shape
import TokenApproval.Proofs.Hex
import TokenApproval.Proofs.Json.Reading
import TokenApproval.Proofs.Outcome

/-!
# Written documents are read back

A tree is written as a text of its value (`valueText_write`, by induction on the tree), so what is
read from the value is read from the text.
-/

namespace TokenApproval.Json

open Data (Tree Reader)

theorem encode_quote (text : String) :
    Text.encode (quote text) = 34 :: (Text.encode (text.toList.flatMap escape) ++ [34]) := by
  rw [quote, List.append_assoc, List.singleton_append, Text.encode_cons_ascii (by decide),
    Text.encode_append]
  rfl

theorem valueText_quote (text : String) : ValueText (Text.encode (quote text)) (.text text) := by
  obtain ⟨pieces, hbody, htext⟩ := exists_stringBody text
  have hvalue : stringValue pieces = .text text := by rw [stringValue, htext]
  rw [encode_quote, ← hvalue]
  exact .string hbody

theorem valueText_integer {n : Int} (h : Data.FitsNumber n) :
    ValueText (Text.encode (toString n).toList) (.number (.integer n)) := by
  obtain ⟨literal, htext, hnumber⟩ := numberText_toString h
  have hvalue : numberValue literal = .number (.integer n) := by rw [numberValue, hnumber]
  rw [← hvalue]
  exact .number htext

theorem memberText_write {key : String} {chars : List Char} {value : Data.Value}
    (h : ElementText (Text.encode chars) value) :
    MemberText (Text.encode (quote key ++ ':' :: chars)) (some key, value) := by
  obtain ⟨pieces, hbody, htext⟩ := exists_stringBody key
  rw [Text.encode_append, encode_quote, Text.encode_cons_ascii (by decide), ← htext]
  simpa using MemberText.mk .nil hbody .nil h

mutual

/-- A written tree is a text of its value. -/
theorem valueText_write : ∀ tree : Tree, tree.Fits →
    ValueText (Text.encode (write tree)) tree.value
  | .null, _ => .null
  | .integer n, hfits => by
    rw [write, Tree.value]
    exact valueText_integer hfits
  | .text written, _ => by
    rw [write, Tree.value]
    exact valueText_quote written
  | .list [], _ => .emptyArray .nil
  | .list (item :: items), hfits => by
    rw [write, Text.encode_append, Text.encode_cons_ascii (by decide), List.cons_append]
    exact .array (itemsText_write (item :: items) (List.cons_ne_nil item items) hfits)
  | .record [], _ => .emptyObject .nil
  | .record (member :: members), hfits => by
    rw [write, Text.encode_append, Text.encode_cons_ascii (by decide), List.cons_append]
    exact .object (membersText_write (member :: members) (List.cons_ne_nil member members) hfits)

theorem itemsText_write : ∀ items : List Tree, items ≠ [] → Tree.FitsAll items →
    ItemsText (Text.encode (writeItems items)) (Tree.values items)
  | [], hne, _ => absurd rfl hne
  | [item], _, hfits => by
    rw [writeItems]
    exact .last (valueText_write item hfits.1).element
  | item :: next :: items, _, hfits => by
    have hmore := itemsText_write (next :: items) (List.cons_ne_nil next items) hfits.2
    rw [writeItems, Text.encode_append, Text.encode_cons_ascii (by decide)]
    · exact .more (valueText_write item hfits.1).element hmore
    · exact List.cons_ne_nil next items

theorem membersText_write : ∀ members : List (String × Tree), members ≠ [] →
    Tree.FitsMembers members →
    MembersText (Text.encode (writeMembers members)) (Tree.memberValues members)
  | [], hne, _ => absurd rfl hne
  | [(key, tree)], _, hfits => by
    rw [writeMembers]
    exact .last (memberText_write (valueText_write tree hfits.1).element)
  | (key, tree) :: member :: members, _, hfits => by
    have hmore := membersText_write (member :: members) (List.cons_ne_nil member members) hfits.2
    rw [writeMembers, Text.encode_append, Text.encode_cons_ascii (by decide)]
    · exact .more (memberText_write (valueText_write tree hfits.1).element) hmore
    · exact List.cons_ne_nil member members

end

/-- What is read from the value of a tree is read from its text. -/
theorem decode_render {α : Type} {reader : Reader α} {tree : Tree} {a : α} (h : tree.Fits)
    (hread : reader .json tree.value = .ok a) :
    decode reader (Text.bytes (render tree)) = .ok a := by
  rw [render, Text.bytes_ofList]
  exact decode_eq_ok_iff.mpr ⟨tree.value, (valueText_write tree h).element, hread⟩

end TokenApproval.Json

/-! ## Written ledger records are read back

Every record of the ledger, whatever its texts, amounts and lists, is read back from its object, and
holds only integers that documents can hold. -/

namespace TokenApproval

open Data (Tree Reader Shape Field)

/-! ### Readers -/

namespace Data

theorem fitsNumber_int64 (n : Int64) : FitsNumber n.toInt := by
  have hlow := n.le_toInt
  have hhigh := n.toInt_lt
  constructor
  · exact hlow
  · exact Int.lt_trans hhigh (by decide)

theorem fitsNumber_uint32 (n : UInt32) : FitsNumber n.toNat := by
  have hhigh := n.toNat_lt
  constructor
  · exact Int.le_trans (by decide) (Int.natCast_nonneg _)
  · exact Int.ofNat_lt.mpr (Nat.lt_trans hhigh (by decide))

namespace Reader

theorem int64_read (n : Int64) : int64 .json (.number (.integer n.toInt)) = .ok n := by
  have hlow := n.le_toInt
  have hhigh := n.toInt_lt
  have hrange : -(signedBound : Int) ≤ n.toInt ∧ n.toInt ≤ (signedBound : Int) - 1 := by
    constructor
    · exact hlow
    · exact Int.le_sub_one_of_lt hhigh
  show (if _ then _ else _ : Except Fault Int).map Int64.ofInt = _
  rw [if_pos hrange]
  exact congrArg Except.ok (Int64.ofInt_toInt n)

theorem uint32_read (n : UInt32) : uint32 .json (.number (.integer n.toNat)) = .ok n := by
  have hrange : (0 : Int) ≤ (n.toNat : Int) ∧ (n.toNat : Int) ≤ (UInt32.size : Int) - 1 :=
    ⟨Int.natCast_nonneg _, Int.le_sub_one_of_lt (Int.ofNat_lt.mpr n.toNat_lt_size)⟩
  show (if _ then _ else _ : Except Fault Int).map _ = _
  rw [if_pos hrange]
  exact congrArg Except.ok (UInt32.ofNat_toNat)

theorem octets_read {n : Nat} (o : Octets n) : octets n .json (.text o.hex) = .ok o := by
  show ((Octets.ofHex n o.hex).mapError Fault.octets : Except Fault (Octets n)) = _
  rw [Octets.ofHex_hex]
  rfl

/-- A list is read back if its items are. -/
theorem list_read {α : Type} {item : Reader α} {write : α → Tree} {list : List α}
    (h : ∀ a ∈ list, item .json (write a).value = .ok a) :
    Reader.list item .json (Tree.list (list.map write)).value = .ok list := by
  rw [Tree.value, Tree.values_eq_map, List.map_map]
  have hitems : (list.map (Tree.value ∘ write)).mapM (item .json) = .ok list :=
    Outcome.mapM_map_eq_ok h
  show ((list.map (Tree.value ∘ write)).mapM (item .json) >>= _) = _
  rw [hitems]
  rfl

theorem hashes_read (hashes : List (Octets 32)) :
    Reader.hashes .json (Tree.hashes hashes).value = .ok hashes := by
  have htexts : hashes.map (fun hash => Tree.text hash.hex) =
      (hashes.map Octets.hex).map Tree.text := by
    rw [List.map_map]
    rfl
  have hlist : Reader.list text .json (Tree.hashes hashes).value = .ok (hashes.map Octets.hex) := by
    rw [Tree.hashes, htexts]
    exact list_read fun _ _ => rfl
  show (Reader.list text .json _ >>= _) = _
  rw [hlist]
  show (hashes.map Octets.hex).mapM _ = _
  apply Outcome.mapM_map_eq_ok
  intro hash _
  rw [Octets.ofHex_hex]
  rfl

end Reader

theorem fits_hashes (hashes : List (Octets 32)) : (Tree.hashes hashes).Fits := by
  rw [Tree.hashes, Tree.Fits, Tree.fitsAll_iff]
  intro item hitem
  obtain ⟨hash, -, rfl⟩ := List.mem_map.mp hitem
  exact True.intro

end Data

theorem AccountId.reader_tree (address : AccountId) :
    AccountId.reader .json address.tree.value = .ok address := by
  show ((Reader.octets 20 .json (.text address.octets.hex)).map AccountId.mk) = _
  rw [Reader.octets_read]
  rfl

theorem StateRoot.reader_tree (root : StateRoot) :
    StateRoot.reader .json root.tree.value = .ok root := by
  show ((Reader.octets 32 .json (.text root.octets.hex)).map StateRoot.mk) = _
  rw [Reader.octets_read]
  rfl

/-! ### Records -/

namespace Coin

theorem restores (coin : Coin) : shape.Restores coin :=
  ⟨_, Field.restores_required True.intro rfl,
    _, Field.restores_required (Data.fitsNumber_int64 _) (Reader.int64_read _), rfl⟩

theorem read_write (coin : Coin) : shape.read .json (shape.write coin).value = .ok coin :=
  Shape.read_write (by decide) coin.restores

end Coin

namespace Account

theorem restores (account : Account) : shape.Restores account := by
  have hbalances : (Tree.list (account.balances.map Coin.shape.write)).Fits := by
    rw [Tree.Fits, Tree.fitsAll_iff]
    intro item hitem
    obtain ⟨coin, -, rfl⟩ := List.mem_map.mp hitem
    exact Shape.fits_write coin.restores
  exact ⟨_, Field.restores_required True.intro (AccountId.reader_tree _),
    _, Field.restores_required (Data.fitsNumber_int64 _) (Reader.int64_read _),
    _, Field.restores_required hbalances (Reader.list_read fun coin _ => coin.read_write), rfl⟩

theorem read_write (account : Account) :
    shape.read .json (shape.write account).value = .ok account :=
  Shape.read_write (by decide) account.restores

end Account

namespace Asset

theorem restores (asset : Asset) : shape.Restores asset :=
  ⟨_, Field.restores_required True.intro (AccountId.reader_tree _),
    _, Field.restores_required True.intro rfl,
    _, Field.restores_required (Data.fitsNumber_int64 _) (Reader.int64_read _), rfl⟩

theorem read_write (asset : Asset) : shape.read .json (shape.write asset).value = .ok asset :=
  Shape.read_write (by decide) asset.restores

end Asset

namespace Proof

theorem restores (proof : Proof) : shape.Restores proof :=
  ⟨_, Field.restores_required True.intro (AccountId.reader_tree _),
    _, Field.restores_required (Data.fitsNumber_uint32 _) (Reader.uint32_read _),
    _, Field.restores_required (Shape.fits_write proof.coin.restores) proof.coin.read_write,
    _, Field.restores_required (Data.fits_hashes _) (Reader.hashes_read _), rfl⟩

theorem read_write (proof : Proof) : shape.read .json (shape.write proof).value = .ok proof :=
  Shape.read_write (by decide) proof.restores

end Proof

end TokenApproval
