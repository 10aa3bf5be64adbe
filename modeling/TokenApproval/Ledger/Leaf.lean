import TokenApproval.Hash.Message
import TokenApproval.Ledger.Record
import TokenApproval.Text

/-!
# Leaves of the snapshot tree

The snapshot tree hashes, for every claimable balance, a byte string made of 32-byte words behind
the account's identifier. A balance entry is the token's symbol and its amount, under the `indexed`
layout with the entry's position before them. A per-denom leaf holds the selected entry; a
full-account leaf holds the account number and every entry, and splits around the selected one.
-/

namespace TokenApproval

/-- Which balances a leaf covers. -/
inductive LeafVersion where
  /-- The selected balance. -/
  | perDenom
  /-- All balances of the account. -/
  | fullAccount
deriving DecidableEq, Repr

/-- Whether a balance entry names its position. -/
inductive EntryLayout where
  | symbol
  | indexed
deriving DecidableEq, Repr

inductive LeafError where
  /-- The symbol does not fit in a word. -/
  | denomTooLong (denom : String)
  | negativeAmount (denom : String) (amount : Int64)
  | zeroBalance (denom : String)
  /-- The position asked for is not that of the token. -/
  | indexMismatch (index : UInt32) (denom : String)
  /-- The account has no balance at the position. -/
  | noSuchEntry (index : Nat)
deriving DecidableEq

def LeafError.message : LeafError → String
  | .denomTooLong denom => "denom " ++ Text.quoted denom ++ " is longer than 32 bytes"
  | .negativeAmount denom amount =>
    "amount " ++ toString amount.toInt ++ " of " ++ denom ++ " is negative"
  | .zeroBalance denom => "token " ++ denom ++ " amount is zero"
  | .indexMismatch index denom =>
    "token index " ++ toString index.toNat ++ " does not select " ++ denom
  | .noSuchEntry index => "no balance entry at index " ++ toString index

/-- A leaf with the position of its selected entry and, for a full account, the bytes before and
after that entry. -/
structure Leaf where
  bytes : Bytes
  index : Nat
  split : Option (Bytes × Bytes)
deriving DecidableEq

/-- The hash that stands for the leaf in the tree. -/
def Leaf.hash (leaf : Leaf) : Octets 32 := keccak256 leaf.bytes

namespace Leaf

/-- A symbol filled up with zeros to a word. -/
def denomWord (denom : String) : Except LeafError (Octets 32) :=
  let raw := Text.bytes denom
  if h : raw.length ≤ 32 then
    .ok ⟨raw ++ Bytes.zeros (32 - raw.length), by simp [Bytes.zeros]; omega⟩
  else .error (.denomTooLong denom)

/-- An amount as a big-endian word; `denom` names it in the error. -/
def amountWord (denom : String) (amount : Int64) : Except LeafError (Octets 32) :=
  if amount < 0 then .error (.negativeAmount denom amount)
  else .ok (Octets.ofNat 32 amount.toInt.toNat)

/-- The bytes of a balance entry at a position. -/
def entry (layout : EntryLayout) (index : Nat) (coin : Coin) : Except LeafError Bytes := do
  let position := match layout with
    | .symbol => []
    | .indexed => Bytes.ofNat 32 index
  let denom ← denomWord coin.denom
  let amount ← amountWord coin.denom coin.amount
  return position ++ denom.bytes ++ amount.bytes

/-- The bytes of consecutive entries, the first of them at position `start`. -/
def entries (layout : EntryLayout) : (start : Nat) → List Coin → Except LeafError (List Bytes)
  | _, [] => .ok []
  | start, coin :: rest => do
    let first ← entry layout start coin
    let others ← entries layout (start + 1) rest
    return first :: others

end Leaf

/-- How a deployment writes its leaves. -/
structure LeafEncoder where
  version : LeafVersion
  layout : EntryLayout
deriving DecidableEq, Repr

namespace LeafEncoder

/-- The position of a token in an account, if its balance can be claimed and the position is the one
asked for. -/
def select (account : Account) (denom : String) (requested : Option UInt32) :
    Except LeafError Nat :=
  match account.position? denom with
  | none => .error (.zeroBalance denom)
  | some index =>
    match requested.filter (·.toNat ≠ index) with
    | some other => .error (.indexMismatch other denom)
    | none =>
      match account.balances[index]? with
      | none => .error (.noSuchEntry index)
      | some coin =>
        if coin.amount < 0 then .error (.negativeAmount denom coin.amount)
        else if coin.amount = 0 then .error (.zeroBalance denom)
        else .ok index

/-- The leaf of the selected entry alone. -/
def perDenom (layout : EntryLayout) (account : Account) (index : Nat) : Except LeafError Leaf :=
  match account.balances[index]? with
  | none => .error (.noSuchEntry index)
  | some coin => do
    let entry ← Leaf.entry layout index coin
    return ⟨account.address.octets.bytes ++ entry, index, none⟩

/-- The leaf of the whole account. A position past the last balance selects no entry, so that
nothing stands before the split and all of the leaf behind it. -/
def fullAccount (layout : EntryLayout) (account : Account) (index : Nat) :
    Except LeafError Leaf := do
  let number ← Leaf.amountWord "account_number" account.accountNumber
  let entries ← Leaf.entries layout 0 account.balances
  let head := account.address.octets.bytes ++ number.bytes
  let bytes := head ++ entries.flatten
  let split :=
    if index < entries.length then
      (head ++ (entries.take index).flatten, (entries.drop (index + 1)).flatten)
    else ([], bytes)
  return ⟨bytes, index, some split⟩

/-- The leaf that selects the entry at a position, whatever its amount. -/
def encodeAt (encoder : LeafEncoder) (account : Account) (index : Nat) : Except LeafError Leaf :=
  match encoder.version with
  | .perDenom => perDenom encoder.layout account index
  | .fullAccount => fullAccount encoder.layout account index

/-- The leaf that selects a token with a positive balance. -/
def encode (encoder : LeafEncoder) (account : Account) (denom : String)
    (requested : Option UInt32) : Except LeafError Leaf := do
  let index ← select account denom requested
  encoder.encodeAt account index

end LeafEncoder

end TokenApproval

/-! ## The snapshot tree

Every inner node hashes its two children in ascending order, so a proof is the list of the sibling
hashes from a leaf up to the root, without a note of which stood on the left. -/

namespace TokenApproval.MerkleTree

def hashPair (a b : Octets 32) : Octets 32 :=
  if a.bytes ≤ b.bytes then keccak256 (a.bytes ++ b.bytes) else keccak256 (b.bytes ++ a.bytes)

/-- The root that a leaf reaches through its siblings, lowest first. -/
def computeRoot (leaf : Octets 32) (siblings : List (Octets 32)) : Octets 32 :=
  siblings.foldl hashPair leaf

def verifyProof (leaf : Octets 32) (siblings : List (Octets 32)) (root : Octets 32) : Bool :=
  computeRoot leaf siblings == root

end TokenApproval.MerkleTree
