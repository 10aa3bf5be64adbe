import TokenApproval.Json
import TokenApproval.Ledger.Basic
import TokenApproval.Ledger.Record
import TokenApproval.Text

/-!
# Where ledgers are held

A ledger is held in memory or in a database; both answer the same questions.
-/

/-! ## A ledger held in memory

The records of one usable snapshot. Of several assets for one token the last one counts. -/

namespace TokenApproval

/-- A snapshot without repeated accounts or proofs. -/
structure MemoryStore where
  snapshot : Snapshot
  unique : snapshot.checkUnique = .ok ()

namespace MemoryStore

/-- The store of a snapshot, if it is usable. -/
def ofSnapshot (snapshot : Snapshot) : Except LedgerError MemoryStore :=
  match h : snapshot.checkUnique with
  | .error e => .error e
  | .ok () => .ok ⟨snapshot, h⟩

/-- Whether a proof comes before another: by address, then position. The order of proofs for several
tokens at one position is left open; that by token, which a database has, is chosen here. -/
def proofLe (a b : Proof) : Bool :=
  if a.address = b.address then
    if a.index = b.index then Text.bytes a.coin.denom ≤ Text.bytes b.coin.denom
    else a.index ≤ b.index
  else a.address.le b.address

def account? (store : MemoryStore) (address : AccountId) : Option Account :=
  store.snapshot.accounts.find? (·.address == address)

def proof? (store : MemoryStore) (key : ProofKey) : Option Proof :=
  store.snapshot.proofs.find? (·.key == key)

/-- The last asset listed for a token. -/
def asset? (store : MemoryStore) (denom : String) : Option Asset :=
  store.snapshot.assets.reverse.find? (·.denom == denom)

/-- The store as a ledger. That it lists the proofs at one position by token is a choice
(`proofLe`). -/
def ledger (store : MemoryStore) : Ledger where
  account address := (store.account? address).elim (.error .accountNotFound) .ok
  proof address denom index :=
    (store.proof? (address, index, denom)).elim (.error .proofNotFound) .ok
  asset denom := (store.asset? denom).elim (.error .assetNotFound) .ok
  stateRoot := .ok store.snapshot.stateRoot
  accounts := .ok (store.snapshot.accounts.mergeSort fun a b => a.address.le b.address)
  proofs := .ok (store.snapshot.proofs.mergeSort proofLe)

end MemoryStore

/-! ## A ledger held in a key-value database

The database maps byte keys to JSON texts, in ascending order of the keys: `account/` and the
address, `proof/` and the address, position and token, `asset/` and the token, and `state_root`.
Positions are written with ten digits, so that proofs stand in the order of their positions. A
snapshot that is put in replaces everything. -/

open Data (Reader Shape Tree)

/-- The entries of a database, in ascending order of their keys. -/
structure KeyValueStore where
  entries : List (Bytes × Bytes)
deriving DecidableEq

namespace KeyValueStore

/-! ### Keys -/

def accountLead : Bytes := Text.bytes "account/"

def proofLead : Bytes := Text.bytes "proof/"

def assetLead : Bytes := Text.bytes "asset/"

def stateRootKey : Bytes := Text.bytes "state_root"

def accountKey (address : AccountId) : Bytes :=
  accountLead ++ Text.bytes (Hex.encode address.octets.bytes)

/-- A number with at least ten digits. -/
def paddedDigits (n : Nat) : List Char :=
  let digits := Nat.toDigits 10 n
  List.replicate (10 - digits.length) '0' ++ digits

def proofKey (address : AccountId) (denom : String) (index : UInt32) : Bytes :=
  proofLead ++ Text.bytes (Hex.encode address.octets.bytes) ++ Text.bytes "/"
    ++ Text.bytes (String.ofList (paddedDigits index.toNat)) ++ Text.bytes "/" ++ Text.bytes denom

def assetKey (denom : String) : Bytes := assetLead ++ Text.bytes denom

/-! ### Entries -/

def empty : KeyValueStore := ⟨[]⟩

/-- Puts an entry among ascending entries, in place of one with the same key. -/
def insertEntry (key value : Bytes) : List (Bytes × Bytes) → List (Bytes × Bytes)
  | [] => [(key, value)]
  | first :: rest =>
    if key < first.1 then (key, value) :: first :: rest
    else if key = first.1 then (key, value) :: rest
    else first :: insertEntry key value rest

def put (store : KeyValueStore) (key : Bytes) (value : Tree) : KeyValueStore :=
  ⟨insertEntry key (Text.bytes (Json.render value)) store.entries⟩

/-- The record under a key; `missing` if there is none. -/
def get {α : Type} (store : KeyValueStore) (reader : Reader α) (missing : LedgerError)
    (key : Bytes) : Except LedgerError α :=
  match store.entries.lookup key with
  | none => .error missing
  | some value => (Json.decode reader value).mapError .document

/-- The records whose keys have a given start, in ascending order of the keys. -/
def scan {α : Type} (store : KeyValueStore) (reader : Reader α) (lead : Bytes) :
    Except LedgerError (List α) :=
  (store.entries.filter fun entry => lead.isPrefixOf entry.1).mapM fun entry =>
    (Json.decode reader entry.2).mapError LedgerError.document

def erase (store : KeyValueStore) (key : Bytes) : KeyValueStore :=
  ⟨store.entries.filter (·.1 != key)⟩

/-- The database without the entries of any of its keys. -/
def clear (store : KeyValueStore) : KeyValueStore :=
  (store.entries.map Prod.fst).foldl erase store

/-- The database with the records of a snapshot put into it. Of several assets for one token the
last one stands. -/
def putSnapshot (store : KeyValueStore) (snapshot : Snapshot) : KeyValueStore :=
  let store := store.put stateRootKey snapshot.stateRoot.tree
  let store := snapshot.accounts.foldl
    (fun store account => store.put (accountKey account.address) (Account.shape.write account))
    store
  let store := snapshot.assets.foldl
    (fun store asset => store.put (assetKey asset.denom) (Asset.shape.write asset)) store
  snapshot.proofs.foldl
    (fun store proof =>
      store.put (proofKey proof.address proof.coin.denom proof.index) (Proof.shape.write proof))
    store

/-- Replaces the contents of a database by a snapshot, if it is usable. -/
def importSnapshot (store : KeyValueStore) (snapshot : Snapshot) :
    Except LedgerError KeyValueStore := do
  snapshot.checkUnique
  return store.clear.putSnapshot snapshot

def ledger (store : KeyValueStore) : Ledger where
  account address := store.get Account.shape.read .accountNotFound (accountKey address)
  proof address denom index :=
    store.get Proof.shape.read .proofNotFound (proofKey address denom index)
  asset denom := store.get Asset.shape.read .assetNotFound (assetKey denom)
  stateRoot := store.get StateRoot.reader .stateRootNotFound stateRootKey
  accounts := store.scan Account.shape.read accountLead
  proofs := store.scan Proof.shape.read proofLead

end KeyValueStore

end TokenApproval

/-! ## The file of a database

Between two runs a database lies in a text file of one line for each entry: the key and the value in
hexadecimal, with a blank between them. A file that is not of this form holds no database. -/

namespace TokenApproval.KeyValueStore

def entryLine (entry : Bytes × Bytes) : String :=
  Hex.encode entry.1 ++ " " ++ Hex.encode entry.2 ++ "\n"

def fileText (store : KeyValueStore) : String := String.join (store.entries.map entryLine)

def ofLine? (line : String) : Option (Bytes × Bytes) :=
  match (line.toList.splitOnP (· == ' ')).map String.ofList with
  | [key, value] => do
    let key ← (Hex.decode key).toOption
    let value ← (Hex.decode value).toOption
    return (key, value)
  | _ => none

def ofFileText? (text : String) : Option KeyValueStore :=
  let lines := (text.toList.splitOnP (· == '\n')).map String.ofList
  ((lines.filter (· != "")).mapM ofLine?).map KeyValueStore.mk

end TokenApproval.KeyValueStore
