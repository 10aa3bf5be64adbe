import TokenApproval.Approval.Service
import TokenApproval.Ledger.Documents
import TokenApproval.Signing
import TokenApproval.Toml.Document

/-!
# The configuration

What a deployment can set, with its standard values, and its form in TOML and JSON. Every field may
be left out.
-/

namespace TokenApproval

open Data (Reader Shape Field Tree)

/-! ## Variants -/

namespace Scheme

def known : List (String × Scheme) := [("cosmos", .cosmos), ("ethereum", .ethereum)]

def name : Scheme → String
  | .cosmos => "cosmos"
  | .ethereum => "ethereum"

/-- How the accounts of a scheme are written unless configured otherwise. -/
def standardStyle : Scheme → AddressStyle
  | .cosmos => .bech32
  | .ethereum => .hex

end Scheme

namespace AddressStyle

def known : List (String × AddressStyle) := [("bech32", .bech32), ("hex", .hex)]

def name : AddressStyle → String
  | .bech32 => "bech32"
  | .hex => "hex"

end AddressStyle

namespace LeafVersion

def known : List (String × LeafVersion) :=
  [("per_denom", .perDenom), ("full_account", .fullAccount)]

def name : LeafVersion → String
  | .perDenom => "per_denom"
  | .fullAccount => "full_account"

end LeafVersion

namespace EntryLayout

def known : List (String × EntryLayout) := [("symbol", .symbol), ("indexed", .indexed)]

def name : EntryLayout → String
  | .symbol => "symbol"
  | .indexed => "indexed"

end EntryLayout

namespace PayloadFormat

def known : List (String × PayloadFormat) :=
  [("standard", .standard), ("legacy", .legacy), ("eth_signed_message", .personalMessage)]

def name : PayloadFormat → String
  | .standard => "standard"
  | .legacy => "legacy"
  | .personalMessage => "eth_signed_message"

end PayloadFormat

/-- How the log is written. -/
inductive LogFormat where
  | console
  | json
deriving DecidableEq, Repr

namespace LogFormat

def known : List (String × LogFormat) := [("console", .console), ("json", .json)]

def name : LogFormat → String
  | .console => "console"
  | .json => "json"

end LogFormat

/-- What holds the ledger. -/
inductive StoreDriver where
  /-- The snapshot documents, read at the start. -/
  | memory
  /-- A key-value database. -/
  | database
deriving DecidableEq, Repr

namespace StoreDriver

def known : List (String × StoreDriver) := [("memory", .memory), ("sled", .database)]

def name : StoreDriver → String
  | .memory => "memory"
  | .database => "sled"

end StoreDriver

/-! ## Records -/

structure LoggerConfig where
  level : String
  format : LogFormat
deriving DecidableEq

structure HttpConfig where
  address : String
  port : UInt16
deriving DecidableEq

def HttpConfig.bindAddress (config : HttpConfig) : String :=
  config.address ++ ":" ++ toString config.port.toNat

structure StoreConfig where
  driver : StoreDriver
  documents : SnapshotPaths
  databasePath : String
deriving DecidableEq

structure Config where
  chainId : String
  /-- Replaces the account prefix that goes with the chain. -/
  accountPrefix : Option String
  /-- Replaces the style that goes with the scheme. -/
  addressStyle : Option AddressStyle
  scheme : Scheme
  leafVersion : LeafVersion
  entryLayout : EntryLayout
  payloadFormat : PayloadFormat
  whitelist : List String
  logger : LoggerConfig
  http : HttpConfig
  secret : SecretConfig
  store : StoreConfig
deriving DecidableEq

/-! ## Their form -/

def LoggerConfig.shape : Shape LoggerConfig where
  title := "LoggerConfig"
  blank := ⟨"info", .console⟩
  fields := [
    .defaulted "level" Reader.text (fun v r => { r with level := v }) (fun r => .text r.level),
    .defaulted "format" (Reader.variant LogFormat.known) (fun v r => { r with format := v })
      (fun r => .text r.format.name)]

def HttpConfig.shape : Shape HttpConfig where
  title := "HttpConfig"
  blank := ⟨"0.0.0.0", 8080⟩
  fields := [
    .defaulted "addr" Reader.text (fun v r => { r with address := v }) (fun r => .text r.address),
    .defaulted "port" Reader.uint16 (fun v r => { r with port := v })
      (fun r => .integer r.port.toNat)]

def StoreConfig.databaseShape : Shape String where
  title := "SledStoreConfig"
  blank := "./data/ledger.sled"
  fields := [.defaulted "path" Reader.text (fun v _ => v) .text]

def StoreConfig.shape : Shape StoreConfig where
  title := "StoreConfig"
  blank := ⟨.memory, SnapshotPaths.standard, databaseShape.blank⟩
  fields := [
    .defaulted "driver" (Reader.variant StoreDriver.known) (fun v r => { r with driver := v })
      (fun r => .text r.driver.name),
    .defaulted "memory_store" SnapshotPaths.shape.read (fun v r => { r with documents := v })
      (fun r => SnapshotPaths.shape.write r.documents),
    .defaulted "sled_store" databaseShape.read (fun v r => { r with databasePath := v })
      (fun r => databaseShape.write r.databasePath)]

private def optionalTree : Option String → Tree
  | none => .null
  | some text => .text text

namespace Config

/-- The configuration that an empty file gives. -/
def standard : Config where
  chainId := "Binance-Chain-Ganges"
  accountPrefix := none
  addressStyle := none
  scheme := .cosmos
  leafVersion := .perDenom
  entryLayout := .symbol
  payloadFormat := .standard
  whitelist := []
  logger := LoggerConfig.shape.blank
  http := HttpConfig.shape.blank
  secret := .standard
  store := StoreConfig.shape.blank

def shape : Shape Config where
  title := "Config"
  blank := standard
  fields := [
    .defaulted "chain_id" Reader.text (fun v r => { r with chainId := v })
      (fun r => .text r.chainId),
    .defaulted "account_prefix" (Reader.optional Reader.text)
      (fun v r => { r with accountPrefix := v }) (fun r => optionalTree r.accountPrefix),
    .defaulted "address_style" (Reader.optional (Reader.variant AddressStyle.known))
      (fun v r => { r with addressStyle := v })
      (fun r => optionalTree (r.addressStyle.map AddressStyle.name)),
    .defaulted "identity_scheme" (Reader.variant Scheme.known) (fun v r => { r with scheme := v })
      (fun r => .text r.scheme.name),
    .defaulted "leaf_version" (Reader.variant LeafVersion.known)
      (fun v r => { r with leafVersion := v }) (fun r => .text r.leafVersion.name),
    .defaulted "entry_layout" (Reader.variant EntryLayout.known)
      (fun v r => { r with entryLayout := v }) (fun r => .text r.entryLayout.name),
    .defaulted "payload_format" (Reader.variant PayloadFormat.known)
      (fun v r => { r with payloadFormat := v }) (fun r => .text r.payloadFormat.name),
    .defaulted "account_whitelist" (Reader.list Reader.text)
      (fun v r => { r with whitelist := v }) (fun r => .list (r.whitelist.map .text)),
    .defaulted "logger" LoggerConfig.shape.read (fun v r => { r with logger := v })
      (fun r => LoggerConfig.shape.write r.logger),
    .defaulted "http" HttpConfig.shape.read (fun v r => { r with http := v })
      (fun r => HttpConfig.shape.write r.http),
    .defaulted "secret" SecretConfig.shape.read (fun v r => { r with secret := v })
      (fun r => SecretConfig.shape.write r.secret),
    .defaulted "store" StoreConfig.shape.read (fun v r => { r with store := v })
      (fun r => StoreConfig.shape.write r.store)]

/-- The configuration that a TOML document gives; none if it is not TOML or does not fit. -/
def ofToml? (text : String) : Option Config := (Toml.decode shape.read text).toOption

end Config

end TokenApproval
