import TokenApproval.Data
import TokenApproval.Json
import TokenApproval.Ledger.Basic
import TokenApproval.Ledger.Record

/-!
# Snapshot documents

A snapshot is exported as four JSON documents: the state root, the accounts, the assets by token and
the proofs. Accounts are written in the network's own form. `Snapshot.ofDocuments` turns the
documents into records or reports the first rule that is broken; `Snapshot.load` reads them from
files.
-/

namespace TokenApproval

open Data (Reader Shape Field Tree)

structure StateRootDocument where
  stateRoot : String
deriving DecidableEq

/-- One account of the document of accounts. Only the summary of its coins is committed to. -/
structure AccountDocument where
  address : String
  accountNumber : Int64
  summaryCoins : List Coin
deriving DecidableEq

/-- One asset of the document of assets, without its token. -/
structure AssetDocument where
  owner : String
  amount : Int64
deriving DecidableEq

structure ProofDocument where
  address : String
  index : UInt32
  coin : Coin
  proof : List String
deriving DecidableEq

/-! ## Their form -/

def StateRootDocument.shape : Shape StateRootDocument where
  title := "StateRootDocument"
  blank := ⟨""⟩
  fields := [
    .required "state_root" Reader.text (fun v r => { r with stateRoot := v })
      (fun r => .text r.stateRoot)]

def AccountDocument.shape : Shape AccountDocument where
  title := "AccountDocument"
  blank := ⟨"", 0, []⟩
  fields := [
    .required "address" Reader.text (fun v r => { r with address := v }) (fun r => .text r.address),
    .defaulted "account_number" Reader.int64 (fun v r => { r with accountNumber := v })
      (fun r => .integer r.accountNumber.toInt),
    .defaulted "summary_coins" (Reader.list Coin.shape.read)
      (fun v r => { r with summaryCoins := v })
      (fun r => .list (r.summaryCoins.map Coin.shape.write))]

def AssetDocument.shape : Shape AssetDocument where
  title := "AssetDocument"
  blank := ⟨"", 0⟩
  fields := [
    .required "owner" Reader.text (fun v r => { r with owner := v }) (fun r => .text r.owner),
    .required "amount" Reader.int64 (fun v r => { r with amount := v })
      (fun r => .integer r.amount.toInt)]

def ProofDocument.shape : Shape ProofDocument where
  title := "ProofDocument"
  blank := ⟨"", 0, ⟨"", 0⟩, []⟩
  fields := [
    .required "address" Reader.text (fun v r => { r with address := v }) (fun r => .text r.address),
    .required "index" Reader.uint32 (fun v r => { r with index := v })
      (fun r => .integer r.index.toNat),
    .required "coin" Coin.shape.read (fun v r => { r with coin := v })
      (fun r => Coin.shape.write r.coin),
    .required "proof" (Reader.list Reader.text) (fun v r => { r with proof := v })
      (fun r => .list (r.proof.map .text))]

/-- Assets by token, in ascending order of the token's bytes. -/
abbrev AssetDocuments := List (String × AssetDocument)

namespace AssetDocuments

/-- Puts an asset under its token, in place of one that stands there. -/
def insert (entry : String × AssetDocument) : AssetDocuments → AssetDocuments
  | [] => [entry]
  | first :: rest =>
    if Text.bytes entry.1 < Text.bytes first.1 then entry :: first :: rest
    else if entry.1 = first.1 then entry :: rest
    else first :: insert entry rest

/-- Reads assets by token; of several under one token the last one stands. -/
def reader : Reader AssetDocuments :=
  Reader.map (Reader.map? AssetDocument.shape.read) fun entries =>
    entries.foldl (fun acc entry => insert entry acc) []

def tree (assets : AssetDocuments) : Tree :=
  .record (assets.map fun entry => (entry.1, AssetDocument.shape.write entry.2))

end AssetDocuments

/-! ## From documents to records -/

/-- The account that a text of a document names. -/
def documentAccount (network : Network) (text : String) : Except LedgerError AccountId :=
  (network.parseAccount text).mapError fun cause => .invalidRecord (.address cause)

def checkCoin (owner : String) (coin : Coin) : Except LedgerError Unit :=
  if coin.amount < 0 then .error (.invalidRecord (.negativeCoin owner coin.denom)) else .ok ()

def AccountDocument.record (network : Network) (document : AccountDocument) :
    Except LedgerError Account := do
  let address ← documentAccount network document.address
  document.summaryCoins.forM (checkCoin document.address)
  return ⟨address, document.accountNumber, document.summaryCoins⟩

def AssetDocument.record (network : Network) (entry : String × AssetDocument) :
    Except LedgerError Asset :=
  if entry.2.amount < 0 then .error (.invalidRecord (.negativeAsset entry.1))
  else do
    let owner ← documentAccount network entry.2.owner
    return ⟨owner, entry.1, entry.2.amount⟩

def ProofDocument.record (network : Network) (document : ProofDocument) :
    Except LedgerError Proof := do
  checkCoin document.address document.coin
  let siblings ← document.proof.mapM fun node =>
    (Octets.ofHex 32 node).mapError fun cause =>
      LedgerError.invalidRecord (.proofNode document.address cause)
  let address ← documentAccount network document.address
  return ⟨address, document.index, document.coin, siblings⟩

namespace Snapshot

/-- The snapshot that four documents describe, or the first rule that they break: of the state root,
of the accounts, of the assets, of the proofs, and that nothing is listed twice. -/
def ofDocuments (stateRoot : StateRootDocument) (accounts : List AccountDocument)
    (assets : AssetDocuments) (proofs : List ProofDocument) (network : Network) :
    Except LedgerError Snapshot := do
  let stateRoot ← (StateRoot.ofHex stateRoot.stateRoot).mapError fun cause =>
    LedgerError.invalidRecord (.stateRoot cause)
  let accounts ← accounts.mapM (AccountDocument.record network)
  let assets ← assets.mapM (AssetDocument.record network)
  let proofs ← proofs.mapM (ProofDocument.record network)
  let snapshot : Snapshot := ⟨stateRoot, accounts, assets, proofs⟩
  snapshot.checkUnique
  return snapshot

end Snapshot

/-- Where the documents of a snapshot are. Without a path for the assets there are none. -/
structure SnapshotPaths where
  stateRoot : String
  assets : String
  accounts : String
  merkleProofs : String
deriving DecidableEq

def SnapshotPaths.standard : SnapshotPaths where
  stateRoot := "./fixtures/store/state_root.json"
  assets := "./fixtures/store/assets.json"
  accounts := "./fixtures/store/accounts.json"
  merkleProofs := "./fixtures/store/merkle_proofs.json"

def SnapshotPaths.shape : Shape SnapshotPaths where
  title := "SnapshotPaths"
  blank := .standard
  fields := [
    .defaulted "state_root" Reader.text (fun v r => { r with stateRoot := v })
      (fun r => .text r.stateRoot),
    .defaulted "assets" Reader.text (fun v r => { r with assets := v }) (fun r => .text r.assets),
    .defaulted "accounts" Reader.text (fun v r => { r with accounts := v })
      (fun r => .text r.accounts),
    .defaulted "merkle_proofs" Reader.text (fun v r => { r with merkleProofs := v })
      (fun r => .text r.merkleProofs)]

def readDocument {α : Type} (files : Files) (reader : Reader α) (path : String) :
    Except LedgerError α := do
  let text ← (files.readText path).mapError LedgerError.unreadable
  (Json.decode reader (Text.bytes text)).mapError LedgerError.document

/-- The snapshot of the documents at these paths. -/
def Snapshot.load (files : Files) (paths : SnapshotPaths) (network : Network) :
    Except LedgerError Snapshot := do
  let stateRoot ← readDocument files StateRootDocument.shape.read paths.stateRoot
  let accounts ← readDocument files (Reader.list AccountDocument.shape.read) paths.accounts
  let proofs ← readDocument files (Reader.list ProofDocument.shape.read) paths.merkleProofs
  let assets ←
    if paths.assets = "" then pure [] else readDocument files AssetDocuments.reader paths.assets
  Snapshot.ofDocuments stateRoot accounts assets proofs network

end TokenApproval
