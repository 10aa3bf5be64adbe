import TokenApproval.Data
import TokenApproval.Files
import TokenApproval.Ledger.Leaf
import TokenApproval.Ledger.Record
import TokenApproval.Network

/-!
# Ledgers

What can be asked of a ledger and why it fails to answer, the snapshots that a ledger is made of,
and the check that their proofs fit.
-/

/-! ## Errors of the ledger

A lookup fails because a record is missing, and a snapshot is refused because a document cannot be
read, holds something else than was expected, or breaks a rule of the ledger. -/

namespace TokenApproval

/-- Which rule a record of a snapshot document breaks. -/
inductive RecordFault where
  | stateRoot (cause : OctetsError)
  | address (cause : AddressError)
  | negativeCoin (owner denom : String)
  | negativeAsset (denom : String)
  /-- A node of an account's proof is not a hash. -/
  | proofNode (owner : String) (cause : OctetsError)
  | described (reason : String)
deriving DecidableEq

def RecordFault.message : RecordFault → String
  | .stateRoot cause => "state root: " ++ cause.message
  | .address cause => cause.message
  | .negativeCoin owner denom => owner ++ " holds a negative amount of " ++ denom
  | .negativeAsset denom => "asset " ++ denom ++ " has a negative amount"
  | .proofNode owner cause => "proof of " ++ owner ++ ": " ++ cause.message
  | .described reason => reason

/-- What a snapshot lists twice. -/
inductive Duplicate where
  | account (address : AccountId)
  | proof (address : AccountId) (index : UInt32) (denom : String)
  | described (reason : String)
deriving DecidableEq

def Duplicate.message : Duplicate → String
  | .account address => "account " ++ address.hex
  | .proof address index denom =>
    "proof " ++ address.hex ++ "/" ++ toString index.toNat ++ "/" ++ denom
  | .described reason => reason

/-- Why the ledger gives no answer. -/
inductive LedgerError where
  | accountNotFound
  | proofNotFound
  | assetNotFound
  | stateRootNotFound
  | invalidRecord (fault : RecordFault)
  | repeated (record : Duplicate)
  | unreadable (fault : FileFault)
  | document (fault : Data.Fault)
deriving DecidableEq

namespace LedgerError

def message : LedgerError → String
  | .accountNotFound => "account not found"
  | .proofNotFound => "proof not found"
  | .assetNotFound => "asset not found"
  | .stateRootNotFound => "state root not found"
  | .invalidRecord fault => "invalid snapshot record: " ++ fault.message
  | .repeated record => "duplicate snapshot record: " ++ record.message
  | .unreadable fault => "snapshot io error: " ++ fault.message
  | .document fault => "snapshot json error: " ++ fault.message

/-- The error and its causes, outermost first, as they are reported at the end of a run. -/
def chain : LedgerError → List String
  | .unreadable fault => [message (.unreadable fault), fault.message]
  | .document fault => [message (.document fault), fault.message]
  | error => [error.message]

end LedgerError

/-! ## The lookups of a ledger

Approvals and checks read a ledger through these lookups, whatever holds its records. -/

/-- What can be asked of a ledger. -/
structure Ledger where
  account : AccountId → Except LedgerError Account
  /-- The proof for a token at a position of an account. -/
  proof : AccountId → (denom : String) → (index : UInt32) → Except LedgerError Proof
  asset : (denom : String) → Except LedgerError Asset
  stateRoot : Except LedgerError StateRoot
  /-- All accounts, by address. -/
  accounts : Except LedgerError (List Account)
  /-- All proofs, by address and position; the order at one position is left open. -/
  proofs : Except LedgerError (List Proof)

/-! ## Snapshots

A snapshot lists the records of the ledger under one state root. It is usable if no account is
listed twice and no two proofs are for the same token at the same position of one account. -/

/-- The place of a proof: account, position and token. -/
abbrev ProofKey := AccountId × UInt32 × String

def Proof.key (proof : Proof) : ProofKey := (proof.address, proof.index, proof.coin.denom)

structure Snapshot where
  stateRoot : StateRoot
  accounts : List Account
  assets : List Asset
  proofs : List Proof
deriving DecidableEq

namespace Snapshot

/-- The first element of a list whose key was seen before, in `seen` or in the list. -/
def firstRepeated? {α κ : Type} [DecidableEq κ] (key : α → κ) (seen : List κ) : List α → Option α
  | [] => none
  | x :: rest => if key x ∈ seen then some x else firstRepeated? key (key x :: seen) rest

/-- Accepts snapshots without repeated accounts or proofs. -/
def checkUnique (snapshot : Snapshot) : Except LedgerError Unit :=
  match firstRepeated? Account.address [] snapshot.accounts with
  | some account => .error (.repeated (.account account.address))
  | none =>
    match firstRepeated? Proof.key [] snapshot.proofs with
    | some proof => .error (.repeated (.proof proof.address proof.index proof.coin.denom))
    | none => .ok ()

end Snapshot

/-! ## Consistency of a ledger

Every proof of a consistent ledger belongs to a balance entry of an account, and the leaf of that
entry reaches the state root through the proof's siblings. -/

inductive MismatchReason where
  /-- There is no account of the proof's address. -/
  | accountMissing
  /-- The account holds another token or amount at the proof's position. -/
  | entryMismatch
  /-- The entry has no leaf. -/
  | unencodable (cause : LeafError)
  /-- The leaf reaches another root. -/
  | rootMismatch (computed : Octets 32)
deriving DecidableEq

def MismatchReason.message : MismatchReason → String
  | .accountMissing => "account missing"
  | .entryMismatch => "balance entry differs from proof coin"
  | .unencodable cause => "leaf cannot be encoded: " ++ cause.message
  | .rootMismatch computed => "proof folds to " ++ computed.hex

/-- A proof that does not fit, with the reason. -/
structure Mismatch where
  address : AccountId
  index : UInt32
  denom : String
  reason : MismatchReason
deriving DecidableEq

structure ConsistencyReport where
  accounts : Nat
  proofs : Nat
  mismatches : List Mismatch
deriving DecidableEq

namespace ConsistencyReport

def isConsistent (report : ConsistencyReport) : Bool := report.mismatches.isEmpty

end ConsistencyReport

namespace Ledger

/-- What is wrong with a proof, if anything, among these accounts under this root. -/
def mismatch? (encoder : LeafEncoder) (root : StateRoot) (accounts : List Account)
    (proof : Proof) : Option MismatchReason :=
  match accounts.find? (·.address == proof.address) with
  | none => some .accountMissing
  | some account =>
    match account.balances[proof.index.toNat]? with
    | none => some .entryMismatch
    | some coin =>
      if coin ≠ proof.coin then some .entryMismatch
      else
        match encoder.encodeAt account proof.index.toNat with
        | .error cause => some (.unencodable cause)
        | .ok leaf =>
          let computed := MerkleTree.computeRoot leaf.hash proof.siblings
          if computed = root.octets then none else some (.rootMismatch computed)

/-- The accounts by address: of several with one address, which only a corrupted database lists,
the last one counts. -/
def perAddress : List Account → List Account
  | [] => []
  | account :: rest =>
    if rest.any (·.address == account.address) then perAddress rest
    else account :: perAddress rest

/-- Checks every proof of a ledger. -/
def verify (ledger : Ledger) (encoder : LeafEncoder) : Except LedgerError ConsistencyReport := do
  let root ← ledger.stateRoot
  let listed ← ledger.accounts
  let accounts := perAddress listed
  let proofs ← ledger.proofs
  let mismatches := proofs.filterMap fun proof =>
    (mismatch? encoder root accounts proof).map fun reason =>
      Mismatch.mk proof.address proof.index proof.coin.denom reason
  return ⟨accounts.length, proofs.length, mismatches⟩

end Ledger

end TokenApproval
