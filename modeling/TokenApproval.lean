import TokenApproval.Approval.Payload
import TokenApproval.Approval.Request
import TokenApproval.Approval.Service
import TokenApproval.Bech32
import TokenApproval.Bytes
import TokenApproval.Command.Run
import TokenApproval.Config.Basic
import TokenApproval.Config.Settings
import TokenApproval.Data
import TokenApproval.Decimal
import TokenApproval.Environment
import TokenApproval.Files
import TokenApproval.Hash.Message
import TokenApproval.Hash.Ripemd160
import TokenApproval.Hash.Sha256
import TokenApproval.Hex
import TokenApproval.Http.Router
import TokenApproval.Identity
import TokenApproval.Json
import TokenApproval.Ledger.Basic
import TokenApproval.Ledger.Documents
import TokenApproval.Ledger.Leaf
import TokenApproval.Ledger.Record
import TokenApproval.Ledger.Stores
import TokenApproval.Main
import TokenApproval.Network
import TokenApproval.Proofs.Approval.Backends
import TokenApproval.Proofs.Approval.Bounds
import TokenApproval.Proofs.Approval.ChainSeparation
import TokenApproval.Proofs.Approval.Claimable
import TokenApproval.Proofs.Approval.Evidence
import TokenApproval.Proofs.Approval.Faults
import TokenApproval.Proofs.Approval.FirstFault
import TokenApproval.Proofs.Approval.Isolation
import TokenApproval.Proofs.Approval.Malleability
import TokenApproval.Proofs.Approval.Payload
import TokenApproval.Proofs.Approval.Rebuilding
import TokenApproval.Proofs.Approval.RequestTexts
import TokenApproval.Proofs.Approval.Restriction
import TokenApproval.Proofs.Approval.Runs
import TokenApproval.Proofs.Approval.Separation
import TokenApproval.Proofs.Approval.SignDoc
import TokenApproval.Proofs.Approval.Steps
import TokenApproval.Proofs.Bech32.Groups
import TokenApproval.Proofs.Bech32.Texts
import TokenApproval.Proofs.Config.Overrides
import TokenApproval.Proofs.Config.Settings
import TokenApproval.Proofs.Data.Members
import TokenApproval.Proofs.Data.Shape
import TokenApproval.Proofs.FieldNames
import TokenApproval.Proofs.Files
import TokenApproval.Proofs.Hex
import TokenApproval.Proofs.Hex.Canonical
import TokenApproval.Proofs.Http.Answers
import TokenApproval.Proofs.Identity
import TokenApproval.Proofs.Json.Grammar
import TokenApproval.Proofs.Json.Number
import TokenApproval.Proofs.Json.Reading
import TokenApproval.Proofs.Json.Records
import TokenApproval.Proofs.Ledger.Commitment
import TokenApproval.Proofs.Ledger.Consistency
import TokenApproval.Proofs.Ledger.Database
import TokenApproval.Proofs.Ledger.Documents
import TokenApproval.Proofs.Ledger.Entries
import TokenApproval.Proofs.Ledger.KeyOrder
import TokenApproval.Proofs.Ledger.Leaf
import TokenApproval.Proofs.Ledger.MerkleTree
import TokenApproval.Proofs.Ledger.Selection
import TokenApproval.Proofs.Ledger.Shapes
import TokenApproval.Proofs.Ledger.Snapshot
import TokenApproval.Proofs.Network
import TokenApproval.Proofs.Outcome
import TokenApproval.Proofs.Secp256k1.Curve
import TokenApproval.Proofs.Secp256k1.Modular
import TokenApproval.Proofs.Secp256k1.Signature
import TokenApproval.Proofs.Signing
import TokenApproval.Proofs.Text
import TokenApproval.Secp256k1
import TokenApproval.Signing
import TokenApproval.Text
import TokenApproval.Text.Letters
import TokenApproval.Toml.Document
import TokenApproval.Toml.Scalar
