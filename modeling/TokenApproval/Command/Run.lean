import TokenApproval.Bytes
import TokenApproval.Config.Settings
import TokenApproval.Environment
import TokenApproval.Ledger.Basic

/-!
# Runs of the command line

A command line is parsed without a look at its surroundings; a run then does what it asks for.
-/

/-! ## Arguments of the command line

A command with its options, behind options that every command takes. Each option may be given once
before and once behind the name of the command; for `--config` the later one counts. -/

namespace TokenApproval.Command

inductive Action where
  /-- Serve approvals; this is what no command stands for. -/
  | serve (timeout : Nat)
  /-- Write the snapshot documents into a database. -/
  | importSnapshot (path : String)
  | verifySnapshot
  | version
deriving DecidableEq, Repr

/-- What a command line asks for. -/
inductive Request where
  | run (config : String) (action : Action)
  | help
  /-- Print name and version without a command. -/
  | version
  | usage
deriving DecidableEq, Repr

/-- Where the configuration is unless the command line says otherwise. -/
def standardConfig : String := "config/default.config.toml"

/-- How long a shutdown waits unless the command line says otherwise, in seconds. -/
def standardTimeout : Nat := 300

structure Options where
  config : Option String
  timeout : Option Nat
  database : Option String
deriving DecidableEq, Repr

def Options.none : Options := ⟨.none, .none, .none⟩

/-- Reads a whole number below `2 ^ 64`, with at most one leading plus sign. -/
def parseSeconds (text : String) : Option Nat :=
  let digits := match text.toList with
    | '+' :: rest => rest
    | chars => chars
  if digits.isEmpty || !digits.all Char.isDigit then .none
  else
    let value := digits.foldl (fun acc c => acc * 10 + (c.toNat - 48)) 0
    if value < UInt64.size then some value else .none

/-- The names of the options of a command, beside `--config`. -/
inductive Scope where
  | top
  | serve
  | importSnapshot
  | plain
deriving DecidableEq, Repr

/-- Stores the value of an option, given once and valid for the scope. -/
def Options.store (options : Options) (scope : Scope) (name value : String) : Option Options :=
  if name = "config" then
    if options.config.isSome || value = "" then .none
    else some { options with config := some value }
  else if name = "timeout" ∧ scope = .serve then
    if options.timeout.isSome then .none
    else (parseSeconds value).map fun seconds => { options with timeout := some seconds }
  else if name = "sled" ∧ scope = .importSnapshot then
    if options.database.isSome || value = "" then .none
    else some { options with database := some value }
  else .none

/-- Whether an argument cannot be the value of the option before it. -/
def isOption (argument : String) : Bool := argument.startsWith "-" && argument != "-"

/-- Splits a long option at its equals sign. -/
def splitLong (argument : String) : String × Option String :=
  let chars := argument.toList.drop 2
  let name := String.ofList (chars.takeWhile (· ≠ '='))
  match chars.dropWhile (· ≠ '=') with
  | [] => (name, .none)
  | _ :: value => (name, some (String.ofList value))

/-- What the options of one scope come to. -/
inductive Parsed where
  /-- All arguments are options. -/
  | finished (options : Options)
  /-- Another argument follows the options. -/
  | positional (options : Options) (argument : String) (rest : List String)
  | stopped (request : Request)

/-- Reads the options of a scope. -/
def parseOptions (scope : Scope) (options : Options) : List String → Parsed
  | [] => .finished options
  | argument :: rest =>
    if argument = "--" then
      if rest.isEmpty then .finished options else .stopped .usage
    else if argument = "--help" then .stopped .help
    else if argument = "--version" then
      .stopped (if scope = .top then .version else .usage)
    else if argument.startsWith "--" then
      match splitLong argument, rest with
      | (name, some value), rest =>
        match options.store scope name value with
        | .none => .stopped .usage
        | some options => parseOptions scope options rest
      | (name, .none), value :: rest =>
        if isOption value then .stopped .usage
        else
          match options.store scope name value with
          | .none => .stopped .usage
          | some options => parseOptions scope options rest
      | _, [] => .stopped .usage
    else if isOption argument then
      if argument.startsWith "-h" then .stopped .help
      else if argument.startsWith "-V" && scope == .top then .stopped .version
      else .stopped .usage
    else .positional options argument rest

/-- The names of the commands, with their options' scopes. -/
def commands : List (String × Scope) :=
  [("serve", .serve), ("import", .importSnapshot), ("verify-snapshot", .plain), ("version", .plain)]

def actionOf? (name : String) (options : Options) : Option Action :=
  if name = "serve" then some (.serve (options.timeout.getD standardTimeout))
  else if name = "import" then options.database.map .importSnapshot
  else if name = "verify-snapshot" then some .verifySnapshot
  else if name = "version" then some .version
  else .none

/-- What a command and the arguments behind it ask for, with the options before it. -/
def parseCommand (before : Options) (name : String) (rest : List String) : Request :=
  match commands.lookup name with
  | .none =>
    if name = "help" then
      match rest with
      | [] => .help
      | [topic] => if topic = "help" || (commands.lookup topic).isSome then .help else .usage
      | _ => .usage
    else .usage
  | some scope =>
    match parseOptions scope .none rest with
    | .stopped request => request
    | .positional _ _ _ => .usage
    | .finished options =>
      match actionOf? name options with
      | .none => .usage
      | some action =>
        .run ((options.config.or before.config).getD standardConfig) action

def parse (arguments : List String) : Request :=
  match parseOptions .top .none arguments with
  | .stopped request => request
  | .finished options => .run (options.config.getD standardConfig) (.serve standardTimeout)
  | .positional options name rest => parseCommand options name rest

/-! ## Running a command

A run loads the configuration, then does what the command asks for. What it prints, how it ends and
which databases it leaves behind follow from the command line and the surroundings. -/

inductive Failure where
  | unreadableConfig (path : String) (fault : FileFault)
  | invalidConfig (path : String)
  | overrides (cause : OverrideError)
  | settings (cause : SettingsError)
  /-- The snapshot documents cannot be loaded for an import. -/
  | documents (cause : LedgerError)
  | openLedger (cause : LedgerError)
  | ledger (cause : LedgerError)
  | build (cause : BuildError)
deriving DecidableEq

def Failure.message : Failure → String
  | .unreadableConfig path fault =>
    "failed to read config file " ++ path ++ ": " ++ fault.message
  | .invalidConfig path => "failed to parse config file " ++ path ++ ": TOML parse error"
  | .overrides cause => cause.message
  | .settings cause => cause.message
  | .documents cause => reported "failed to load snapshot documents" cause.chain
  | .openLedger cause => reported "failed to open ledger store" cause.chain
  | .ledger cause => String.intercalate ": " cause.chain
  | .build cause => cause.message

/-- How a run ends. -/
inductive Outcome where
  /-- With an exit code, after printing a text. -/
  | exited (code : Nat) (output : String)
  | failed (failure : Failure)
  /-- By breaking off, because the environment file gives a value that no process can have. -/
  | aborted
  | serving (service : ApprovalService) (address : String)
  | helped
  | usage

def versionLine : String := "token-recover-approver 0.1.0\n"

/-! ### The configuration -/

def envFile : String := ".env"

/-- The surroundings with the variables of the environment file. -/
def withEnvFile? (around : Surroundings) : Option Surroundings :=
  match around.files.read envFile with
  | .error _ => some around
  | .ok bytes => (EnvFile.load? around.env bytes).map fun env => { around with env := env }

/-- Loads a configuration file, applies the overrides and checks the result. -/
def loadConfig (around : Surroundings) (path : String) : Except Failure Config := do
  let text ← (around.files.readText path).mapError (Failure.unreadableConfig path)
  match Config.ofToml? text with
  | none => .error (.invalidConfig path)
  | some config =>
    let (config, applied) := config.applyOverrides around.env
    applied.mapError Failure.overrides
    config.validate.mapError Failure.settings
    return config

/-! ### Commands -/

/-- The network of a configuration, which checking it has found to exist. -/
def networkOf (config : Config) : Except Failure Network :=
  config.network.mapError fun cause => .settings (.network cause)

def importLine (snapshot : Snapshot) (path : String) : String :=
  "imported " ++ toString snapshot.accounts.length ++ " accounts, "
    ++ toString snapshot.proofs.length ++ " proofs, " ++ toString snapshot.assets.length
    ++ " assets into " ++ path ++ "\n"

def loadSnapshot (around : Surroundings) (config : Config) : Except Failure Snapshot := do
  let network ← networkOf config
  (Snapshot.load around.files config.store.documents network).mapError .documents

/-- Writes a snapshot into the database at a path. Opening the database creates it. -/
def importSnapshot (around : Surroundings) (snapshot : Snapshot) (path : String) :
    Surroundings × Outcome :=
  match (around.database path).importSnapshot snapshot with
  | .error cause => (around.withDatabase path (around.database path), .failed (.ledger cause))
  | .ok store => (around.withDatabase path store, .exited 0 (importLine snapshot path))

def mismatchLine (network : Network) (mismatch : Mismatch) : String :=
  "MISMATCH " ++ network.formatAccount mismatch.address ++ " index="
    ++ toString mismatch.index.toNat ++ " denom=" ++ mismatch.denom ++ ": "
    ++ mismatch.reason.message ++ "\n"

def reportText (network : Network) (report : ConsistencyReport) : String :=
  String.join (report.mismatches.map (mismatchLine network))
    ++ "checked " ++ toString report.proofs ++ " proofs over " ++ toString report.accounts
    ++ " accounts, " ++ toString report.mismatches.length ++ " mismatches\n"

/-- Checks a ledger and says how the run ends. -/
def verifyLedger (network : Network) (encoder : LeafEncoder) (ledger : Ledger) : Outcome :=
  match ledger.verify encoder with
  | .error cause => .failed (.ledger cause)
  | .ok report => .exited (if report.isConsistent then 0 else 1) (reportText network report)

/-- Does what a command asks for under a configuration. -/
def act (around : Surroundings) (config : Config) : Action → Surroundings × Outcome
  | .serve _ =>
    match config.build around with
    | (around, .error cause) => (around, .failed (.build cause))
    | (around, .ok service) => (around, .serving service config.http.bindAddress)
  | .importSnapshot path =>
    match loadSnapshot around config with
    | .error failure => (around, .failed failure)
    | .ok snapshot => importSnapshot around snapshot path
  | .verifySnapshot =>
    match networkOf config with
    | .error failure => (around, .failed failure)
    | .ok network =>
      match around.openLedger config.store network with
      | (around, .error cause) => (around, .failed (.openLedger cause))
      | (around, .ok ledger) => (around, verifyLedger network config.encoder ledger)
  | .version => (around, .exited 0 versionLine)

/-- Runs a command line; gives also the surroundings that it leaves, with their own environment. -/
def run (around : Surroundings) (arguments : List String) : Surroundings × Outcome :=
  match parse arguments with
  | .usage => (around, .usage)
  | .help => (around, .helped)
  | .version => (around, .exited 0 versionLine)
  | .run _ .version => (around, .exited 0 versionLine)
  | .run path action =>
    match withEnvFile? around with
    | none => (around, .aborted)
    | some loaded =>
      match loadConfig loaded path with
      | .error failure => (around, .failed failure)
      | .ok config =>
        let (after, outcome) := act loaded config action
        ({ after with env := around.env }, outcome)

/-! ### What a run needs -/

/-- The configuration of a run, if it gets that far. -/
def configOf? (around : Surroundings) (path : String) : Option Config := do
  let loaded ← withEnvFile? around
  (loadConfig loaded path).toOption

/-- The paths of the files that a run reads. They depend on the configuration file, so this has to
be asked again once that file and the environment file are among the surroundings. -/
def filesOf (around : Surroundings) (arguments : List String) : List String :=
  match parse arguments with
  | .run path _ =>
    envFile :: path ::
      match configOf? around path with
      | none => []
      | some config =>
        let documents := config.store.documents
        [documents.stateRoot, documents.assets, documents.accounts, documents.merkleProofs,
          config.secret.filePath]
  | _ => []

/-- The paths of the databases that a run opens. -/
def databasesOf (around : Surroundings) (arguments : List String) : List String :=
  match parse arguments with
  | .run _ (.importSnapshot path) => [path]
  | .run path _ =>
    match configOf? around path with
    | none => []
    | some config =>
      if config.store.driver = .database then [config.store.databasePath] else []
  | _ => []

end TokenApproval.Command
