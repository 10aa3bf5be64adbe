import TokenApproval.Data
import TokenApproval.Environment
import TokenApproval.Files
import TokenApproval.Identity
import TokenApproval.Text

/-!
# The signing authority

Approvals are signed with one secret key, which is read from hexadecimal text. An approval signature
is a normal-form signature followed by its recovery identifier.
-/

namespace TokenApproval

open Secp256k1 (PublicKey SecretKey RecoverableSignature)

inductive SecretFault where
  | hex (cause : HexError)
  /-- The bytes are not a secret key. -/
  | malformed
  | described (reason : String)
deriving DecidableEq, Repr

def SecretFault.message : SecretFault → String
  | .hex cause => cause.message
  | .malformed => "malformed or out-of-range secret key"
  | .described reason => reason

/-- Why a key cannot be loaded or an approval not be signed. -/
inductive SignerError where
  | missingKey
  | invalidKey (fault : SecretFault)
  /-- The environment does not have the variable of the key. -/
  | missingVariable (name : String)
  | unreadable (fault : FileFault)
  | signing (reason : String)
deriving DecidableEq, Repr

namespace SignerError

def message : SignerError → String
  | .missingKey => "signing key is not configured"
  | .invalidKey fault => "invalid signing key: " ++ fault.message
  | .missingVariable name => "environment variable " ++ name ++ " is not set"
  | .unreadable fault => "failed to read signing key: " ++ fault.message
  | .signing reason => "signing failed: " ++ reason

/-- The error and its causes, outermost first, as they are reported at the end of a run. -/
def chain : SignerError → List String
  | .unreadable fault => [message (.unreadable fault), fault.message]
  | error => [error.message]

end SignerError

/-- A holder of a key that signs digests. -/
structure Signer where
  publicKey : PublicKey
  sign : Octets 32 → Except SignerError (Octets approvalSignatureLength)

/-- The bytes of a signature followed by its recovery identifier. -/
def approvalSignature (signature : RecoverableSignature) : Octets approvalSignatureLength :=
  ⟨signature.signature.bytes ++ [UInt8.ofNat signature.recovery], by
    simp [Secp256k1.Signature.bytes, approvalSignatureLength]⟩

/-- The secret key that a text spells; blanks around it do not count. -/
def parseSecretKey (text : String) : Except SignerError SecretKey :=
  let text := Text.trim text
  if text = "" then .error .missingKey
  else
    match Hex.decode text with
    | .error cause => .error (.invalidKey (.hex cause))
    | .ok bytes =>
      match SecretKey.ofBytes? bytes with
      | none => .error (.invalidKey .malformed)
      | some key => .ok key

namespace Signer

def ofSecret (secret : SecretKey) : Signer where
  publicKey := PublicKey.ofSecret secret
  sign digest :=
    match RecoverableSignature.sign? secret digest with
    | none => .error (.signing "no nonce gives a signature")
    | some signature => .ok (approvalSignature signature)

def ofHex (text : String) : Except SignerError Signer := (parseSecretKey text).map ofSecret

/-- The address of the signer's key on the destination chain. -/
def address (signer : Signer) : AccountId := keccakAccount signer.publicKey

/-- The signer in diagnostic output, without its secret. -/
def describe (signer : Signer) : String :=
  "LocalKeyManager \x7b address: " ++ signer.address.describe ++ ", .. \x7d"

end Signer

/-! ## Where the signing key comes from

The text of the secret key stands in the configuration, in a file or in an environment variable. -/

open Data (Reader Shape Field Tree)

inductive SecretKind where
  | inline
  | file
  | variable
deriving DecidableEq, Repr

/-- The places for the key, and which of them is used. -/
structure SecretConfig where
  kind : SecretKind
  privateKey : String
  filePath : String
  variableName : String
deriving DecidableEq

namespace SecretKind

def known : List (String × SecretKind) := [("local", .inline), ("file", .file), ("env", .variable)]

def name : SecretKind → String
  | .inline => "local"
  | .file => "file"
  | .variable => "env"

/-- The name of a kind in diagnostic output. -/
def describe : SecretKind → String
  | .inline => "Local"
  | .file => "File"
  | .variable => "Env"

end SecretKind

namespace SecretConfig

def standardVariable : String := "APPROVER_SIGNING_KEY"

/-- No key in the configuration itself. -/
def standard : SecretConfig := ⟨.inline, "", "", standardVariable⟩

/-! ### Its form -/

/-- A record of one text, which keeps its value when it is left out. -/
def singleText (title field start : String) : Shape String where
  title := title
  blank := start
  fields := [.defaulted field Reader.text (fun v _ => v) .text]

def inlineShape : Shape String := singleText "LocalSecret" "private_key" ""

def fileShape : Shape String := singleText "FileSecret" "path" ""

def variableShape : Shape String := singleText "EnvSecret" "var" standardVariable

def shape : Shape SecretConfig where
  title := "SecretConfig"
  blank := standard
  fields := [
    .defaulted "type" (Reader.variant SecretKind.known) (fun v r => { r with kind := v })
      (fun r => .text r.kind.name),
    .defaulted "local_secret" inlineShape.read (fun v r => { r with privateKey := v })
      (fun r => inlineShape.write r.privateKey),
    .defaulted "file_secret" fileShape.read (fun v r => { r with filePath := v })
      (fun r => fileShape.write r.filePath),
    .defaulted "env_secret" variableShape.read (fun v r => { r with variableName := v })
      (fun r => variableShape.write r.variableName)]

/-- The places in diagnostic output, without the key. -/
def describe (config : SecretConfig) : String :=
  let shown := if config.privateKey = "" then "<empty>" else "<redacted>"
  "SecretConfig \x7b kind: " ++ config.kind.describe
    ++ ", local_secret: LocalSecret \x7b private_key: " ++ Text.quoted shown ++ " \x7d"
    ++ ", file_secret: FileSecret \x7b path: " ++ Text.quoted config.filePath ++ " \x7d"
    ++ ", env_secret: EnvSecret \x7b var: " ++ Text.quoted config.variableName ++ " \x7d \x7d"

/-! ### Loading -/

/-- The text at the place that is used. -/
def source (config : SecretConfig) (env : Environment) (files : Files) :
    Except SignerError String :=
  match config.kind with
  | .inline => .ok config.privateKey
  | .file =>
    if config.filePath = "" then .error .missingKey
    else (files.readText config.filePath).mapError .unreadable
  | .variable =>
    match env.get? config.variableName with
    | none => .error (.missingVariable config.variableName)
    | some text => .ok text

/-- The text of the key without blanks around it. -/
def privateKeyText (config : SecretConfig) (env : Environment) (files : Files) :
    Except SignerError String := do
  let text ← config.source env files
  let text := Text.trim text
  if text = "" then .error .missingKey else return text

def signer (config : SecretConfig) (env : Environment) (files : Files) :
    Except SignerError Signer := do
  let text ← config.privateKeyText env files
  Signer.ofHex text

end SecretConfig

end TokenApproval
