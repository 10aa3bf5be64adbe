import TokenApproval.Data
import TokenApproval.Hex

/-!
# Records of the ledger snapshot

The snapshot commits to accounts with their balances. A proof places one balance of one account
under the state root, and an asset names the owner of a registrable token.
-/

namespace TokenApproval

/-- The identifier of an account, derived from its owner's public key. -/
structure AccountId where
  octets : Octets 20
deriving DecidableEq

/-- An address on the destination chain. -/
structure EvmAddress where
  octets : Octets 20
deriving DecidableEq

/-- The root hash of the snapshot. -/
structure StateRoot where
  octets : Octets 32
deriving DecidableEq

namespace AccountId

def ofHex (text : String) : Except OctetsError AccountId := (Octets.ofHex 20 text).map AccountId.mk

/-- The identifier as hexadecimal text, which needs no network. -/
def hex (account : AccountId) : String := account.octets.hex

def ofBytes? (bytes : Bytes) : Option AccountId := (Octets.ofBytes? bytes).map AccountId.mk

/-- The identifier in diagnostic output. -/
def describe (account : AccountId) : String := "AccountId(" ++ account.hex ++ ")"

/-- Accounts are ordered by their bytes. -/
def le (a b : AccountId) : Bool := a.octets.bytes ≤ b.octets.bytes

end AccountId

namespace EvmAddress

def ofHex (text : String) : Except OctetsError EvmAddress :=
  (Octets.ofHex 20 text).map EvmAddress.mk

def hex (address : EvmAddress) : String := address.octets.hex

def describe (address : EvmAddress) : String := "EvmAddress(" ++ address.hex ++ ")"

def isZero (address : EvmAddress) : Bool := address.octets == Octets.zero 20

end EvmAddress

namespace StateRoot

def ofHex (text : String) : Except OctetsError StateRoot := (Octets.ofHex 32 text).map StateRoot.mk

def hex (root : StateRoot) : String := root.octets.hex

def describe (root : StateRoot) : String := "StateRoot(" ++ root.hex ++ ")"

end StateRoot

structure Coin where
  denom : String
  amount : Int64
deriving DecidableEq

/-- An account, its balances in the order in which the snapshot commits to them. -/
structure Account where
  address : AccountId
  accountNumber : Int64
  balances : List Coin
deriving DecidableEq

/-- A token that its owner may register on the destination chain. -/
structure Asset where
  owner : AccountId
  denom : String
  amount : Int64
deriving DecidableEq

/-- The path from one balance of one account up to the state root. -/
structure Proof where
  address : AccountId
  index : UInt32
  coin : Coin
  siblings : List (Octets 32)
deriving DecidableEq

/-- The place of the first balance of a token. -/
def Account.position? (account : Account) (denom : String) : Option Nat :=
  account.balances.findIdx? (·.denom == denom)

/-! ## Ledger records in documents

Identifiers and hashes stand in documents as hexadecimal texts, whatever the network. -/

open Data (Reader Shape Field Tree)

def AccountId.reader : Reader AccountId := Reader.map (Reader.octets 20) AccountId.mk

def AccountId.tree (account : AccountId) : Tree := .text account.hex

def StateRoot.reader : Reader StateRoot := Reader.map (Reader.octets 32) StateRoot.mk

def StateRoot.tree (root : StateRoot) : Tree := .text root.hex

def Coin.shape : Shape Coin where
  title := "Coin"
  blank := ⟨"", 0⟩
  fields := [
    .required "denom" Reader.text (fun v r => { r with denom := v }) (fun r => .text r.denom),
    .required "amount" Reader.int64 (fun v r => { r with amount := v })
      (fun r => .integer r.amount.toInt)]

def Account.shape : Shape Account where
  title := "Account"
  blank := ⟨⟨Octets.zero 20⟩, 0, []⟩
  fields := [
    .required "address" AccountId.reader (fun v r => { r with address := v })
      (fun r => r.address.tree),
    .required "account_number" Reader.int64 (fun v r => { r with accountNumber := v })
      (fun r => .integer r.accountNumber.toInt),
    .required "balances" (Reader.list Coin.shape.read) (fun v r => { r with balances := v })
      (fun r => .list (r.balances.map Coin.shape.write))]

def Asset.shape : Shape Asset where
  title := "Asset"
  blank := ⟨⟨Octets.zero 20⟩, "", 0⟩
  fields := [
    .required "owner" AccountId.reader (fun v r => { r with owner := v }) (fun r => r.owner.tree),
    .required "denom" Reader.text (fun v r => { r with denom := v }) (fun r => .text r.denom),
    .required "amount" Reader.int64 (fun v r => { r with amount := v })
      (fun r => .integer r.amount.toInt)]

def Proof.shape : Shape Proof where
  title := "Proof"
  blank := ⟨⟨Octets.zero 20⟩, 0, ⟨"", 0⟩, []⟩
  fields := [
    .required "address" AccountId.reader (fun v r => { r with address := v })
      (fun r => r.address.tree),
    .required "index" Reader.uint32 (fun v r => { r with index := v })
      (fun r => .integer r.index.toNat),
    .required "coin" Coin.shape.read (fun v r => { r with coin := v })
      (fun r => Coin.shape.write r.coin),
    .required "siblings" Reader.hashes (fun v r => { r with siblings := v })
      (fun r => .hashes r.siblings)]

end TokenApproval
