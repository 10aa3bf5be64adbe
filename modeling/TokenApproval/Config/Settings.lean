import TokenApproval.Config.Basic
import TokenApproval.Ledger.Stores
import TokenApproval.Text.Letters

/-!
# Services from a configuration and the environment

Overrides replace values of the configuration; a service is built from what results.
-/

/-! ## Overrides from the environment

Variables whose names start with `APPROVER_` replace single values of a configuration, one after the
other. A value that cannot be read stops this, and what was replaced before stays replaced. -/

namespace TokenApproval

inductive PortFault where
  | empty
  | invalidDigit
  | tooLarge
deriving DecidableEq, Repr

def PortFault.message : PortFault → String
  | .empty => "cannot parse integer from empty string"
  | .invalidDigit => "invalid digit found in string"
  | .tooLarge => "number too large to fit in target type"

/-- Reads decimal digits into a port; the first digit that is none or leads out of the range stops
this. -/
def parsePortDigits (value : Nat) : List Char → Except PortFault UInt16
  | [] => .ok (UInt16.ofNat value)
  | c :: rest =>
    if !c.isDigit then .error .invalidDigit
    else
      let next := value * 10 + (c.toNat - 48)
      if UInt16.size ≤ next then .error .tooLarge else parsePortDigits next rest

/-- Reads a port, with at most one leading plus sign. -/
def parsePort (text : String) : Except PortFault UInt16 :=
  match text.toList with
  | [] => .error .empty
  | '+' :: [] => .error .invalidDigit
  | '+' :: digits => parsePortDigits 0 digits
  | digits => parsePortDigits 0 digits

/-- Which override cannot be read. -/
inductive OverrideError where
  | port (value : String) (fault : PortFault)
  | logFormat (fault : Data.Fault)
  | storeDriver (fault : Data.Fault)
deriving DecidableEq

def OverrideError.message : OverrideError → String
  | .port value fault =>
    "invalid APPROVER_HTTP_PORT " ++ Text.quoted value ++ ": " ++ fault.message
  | .logFormat fault => "invalid APPROVER_LOGGER_FORMAT: " ++ fault.message
  | .storeDriver fault => "invalid APPROVER_STORE_DRIVER: " ++ fault.message

/-- The variant that a text names, whatever its case and the blanks around it. -/
def parseVariant {α : Type} (known : List (String × α)) (text : String) : Except Data.Fault α :=
  Data.Reader.variantOf known (Text.lowercase (Text.trim text))

namespace Config

/-- An override: a variable and what its value does to a configuration. -/
structure Override where
  name : String
  apply : String → Config → Except OverrideError Config

/-- The overrides, in the order in which they are applied. -/
def overrides : List Override := [
  ⟨"APPROVER_CHAIN_ID", fun v c => .ok { c with chainId := v }⟩,
  ⟨"APPROVER_HTTP_ADDR", fun v c => .ok { c with http := { c.http with address := v } }⟩,
  ⟨"APPROVER_HTTP_PORT", fun v c =>
    match parsePort v with
    | .error fault => .error (.port v fault)
    | .ok port => .ok { c with http := { c.http with port := port } }⟩,
  ⟨"APPROVER_LOGGER_LEVEL", fun v c => .ok { c with logger := { c.logger with level := v } }⟩,
  ⟨"APPROVER_LOGGER_FORMAT", fun v c =>
    match parseVariant LogFormat.known v with
    | .error fault => .error (.logFormat fault)
    | .ok format => .ok { c with logger := { c.logger with format := format } }⟩,
  ⟨"APPROVER_SECRET_PRIVATE_KEY", fun v c =>
    .ok { c with secret := { c.secret with privateKey := v } }⟩,
  ⟨"APPROVER_STORE_DRIVER", fun v c =>
    match parseVariant StoreDriver.known v with
    | .error fault => .error (.storeDriver fault)
    | .ok driver => .ok { c with store := { c.store with driver := driver } }⟩]

/-- Applies overrides in order; gives the configuration as they left it, and the error that stopped
them. -/
def applyAll (env : Environment) : List Override → Config → Config × Except OverrideError Unit
  | [], config => (config, .ok ())
  | override :: rest, config =>
    match env.get? override.name with
    | none => applyAll env rest config
    | some value =>
      match override.apply value config with
      | .error e => (config, .error e)
      | .ok config => applyAll env rest config

def applyOverrides (config : Config) (env : Environment) : Config × Except OverrideError Unit :=
  applyAll env overrides config

end Config

/-! ## From a configuration to a service

The settings follow from the configuration alone. The ledger and the signer are opened in the
process's surroundings: its files, its databases and its environment. -/

/-- Why a configuration gives no settings. -/
inductive SettingsError where
  | network (cause : AddressError)
  | whitelist (cause : AddressError)
deriving DecidableEq

def SettingsError.message : SettingsError → String
  | .network cause => cause.message
  | .whitelist cause => "invalid account_whitelist entry: " ++ cause.message

namespace Config

def style (config : Config) : AddressStyle :=
  config.addressStyle.getD config.scheme.standardStyle

def network (config : Config) : Except AddressError Network :=
  Network.withLead config.chainId
    (config.accountPrefix.getD (Network.defaultLead config.chainId)) config.style

def encoder (config : Config) : LeafEncoder := ⟨config.leafVersion, config.entryLayout⟩

/-- Checks what can be checked without opening anything. -/
def validate (config : Config) : Except SettingsError Unit := do
  let network ← config.network.mapError SettingsError.network
  let _ ← (Whitelist.ofTexts network config.whitelist).mapError SettingsError.whitelist

def settings (config : Config) : Except SettingsError ApprovalSettings := do
  let network ← config.network.mapError SettingsError.network
  let whitelist ← (Whitelist.ofTexts network config.whitelist).mapError SettingsError.whitelist
  return ⟨network, config.scheme, config.encoder, config.payloadFormat, whitelist⟩

end Config

/-! ### Surroundings -/

/-- What a process finds around itself: files, environment, and key-value databases. -/
structure Surroundings where
  disk : Disk
  env : Environment
  /-- The databases by path; of several at one place the first counts. -/
  databases : List (String × KeyValueStore)

namespace Surroundings

/-- The files, with the directories of the databases among them. -/
def files (around : Surroundings) : Files := around.disk.after (around.databases.map Prod.fst)

def database? (around : Surroundings) (path : String) : Option KeyValueStore :=
  (around.databases.find? fun entry => Place.ofPath entry.1 == Place.ofPath path).map Prod.snd

/-- The database at a path; a new one is empty. -/
def database (around : Surroundings) (path : String) : KeyValueStore :=
  (around.database? path).getD .empty

def withDatabase (around : Surroundings) (path : String) (store : KeyValueStore) : Surroundings :=
  { around with databases := (path, store) :: around.databases }

/-- Opens the configured ledger. Opening a database creates it. -/
def openLedger (around : Surroundings) (config : StoreConfig) (network : Network) :
    Surroundings × Except LedgerError Ledger :=
  match config.driver with
  | .memory =>
    (around, do
      let snapshot ← Snapshot.load around.files config.documents network
      let store ← MemoryStore.ofSnapshot snapshot
      return store.ledger)
  | .database =>
    let store := around.database config.databasePath
    (around.withDatabase config.databasePath store, .ok store.ledger)

end Surroundings

/-! ### The service -/

/-- Why no service can be built. -/
inductive BuildError where
  | settings (cause : SettingsError)
  | ledger (cause : LedgerError)
  | signer (cause : SignerError)
deriving DecidableEq

/-- A context and the causes below it, as they are reported at the end of a run. -/
def reported (context : String) (causes : List String) : String :=
  String.intercalate ": " (context :: causes)

def BuildError.message : BuildError → String
  | .settings cause => cause.message
  | .ledger cause => reported "failed to open ledger store" cause.chain
  | .signer cause => reported "failed to load approval key" cause.chain

namespace Config

/-- Builds the service of a configuration: settings, ledger, signer. -/
def build (config : Config) (around : Surroundings) :
    Surroundings × Except BuildError ApprovalService :=
  match config.settings with
  | .error cause => (around, .error (.settings cause))
  | .ok settings =>
    match around.openLedger config.store settings.network with
    | (around, .error cause) => (around, .error (.ledger cause))
    | (around, .ok ledger) =>
      match config.secret.signer around.env around.files with
      | .error cause => (around, .error (.signer cause))
      | .ok signer => (around, .ok ⟨settings, ledger, signer⟩)

end Config

end TokenApproval
