import TokenApproval.Decimal
import TokenApproval.Hex
import TokenApproval.Text

/-!
# Documents

A document is written from a `Tree` and read as a `Value`, from which a `Reader` takes what is
expected; where it is refused, a `Fault` says why.
-/

/-! ## Documents as they are written -/

namespace TokenApproval.Data

/-- What is written into a document. -/
inductive Tree where
  | null
  | integer (value : Int)
  | text (value : String)
  | list (items : List Tree)
  | record (members : List (String × Tree))

namespace Tree

/-- A list of hashes in hexadecimal. -/
def hashes (values : List (Octets 32)) : Tree := .list (values.map fun value => .text value.hex)

def bytes (value : Bytes) : Tree := .text (Hex.prefixed value)

end Tree

/-! ## Documents as they are read

JSON and TOML texts are read in two steps: first into a `Value`, without regard to what is expected,
then by readers that expect a type. A text may break off or hold a form that is no value, and a
reader may find something unexpected before that point; so a `Value` also records where its text
went wrong, and readers meet problems in the order of the text. -/

/-- Two to the power 63, the first number above the signed integers of 64 bits. -/
def signedBound : Nat := 0x8000000000000000

/-- A number as a text gives it. -/
inductive Number where
  /-- An integer from `-2 ^ 63` up to below `2 ^ 64`. -/
  | integer (value : Int)
  /-- Any other number, as the bits of a double. -/
  | float (bits : UInt64)
deriving DecidableEq, Repr

/-- What a text holds at some place. -/
inductive Value where
  | null
  | boolean (value : Bool)
  | number (value : Number)
  | text (value : String)
  /-- A string or number of correct form that denotes nothing; it can only be skipped. -/
  | unreadable
  /-- Anything that is not a value. -/
  | broken
  /-- A list; not `closed` if the text goes wrong inside or behind the last item. -/
  | array (items : List Value) (closed : Bool)
  /-- Keys with values, in order, a key being `none` if it denotes no text; not `closed` if the text
  goes wrong before the first key, or inside or behind the last value. -/
  | object (members : List (Option String × Value)) (closed : Bool)

namespace Value

/-- Whether the whole value has a correct form, so that it can be skipped. -/
def isComplete : Value → Bool
  | .broken => false
  | .array _ closed => closed
  | .object _ closed => closed
  | _ => true

end Value

/-! ## Why a document is refused

A document is either malformed, or it holds something else than was expected. -/

/-- What was found where something else was expected. -/
inductive Found where
  | null
  | boolean (value : Bool)
  | number (value : Number)
  | text (value : String)
  | sequence
  | map
deriving DecidableEq, Repr

/-- What is found at a value; a text that has no value there is malformed. -/
def Value.found? : Value → Option Found
  | .null => some .null
  | .boolean value => some (.boolean value)
  | .number value => some (.number value)
  | .text value => some (.text value)
  | .unreadable => none
  | .broken => none
  | .array _ _ => some .sequence
  | .object _ _ => some .map

def Found.message : Found → String
  | .null => "null"
  | .boolean value => "boolean `" ++ (if value then "true" else "false") ++ "`"
  | .number (.integer value) => "integer `" ++ toString value ++ "`"
  | .number (.float bits) => "floating point `" ++ Decimal.floatText bits ++ "`"
  | .text value => "string " ++ Text.quoted value
  | .sequence => "sequence"
  | .map => "map"

/-- Why a document is refused. -/
inductive Fault where
  /-- The text is not of the format, or spells a value that does not exist. -/
  | malformed
  | invalidType (found : Found) (expected : String)
  | invalidValue (found : Found) (expected : String)
  /-- A record written as a list ends too early. -/
  | invalidLength (length : Nat) (title : String) (size : Nat)
  | missingField (name : String)
  | duplicateField (name : String)
  | unknownVariant (name : String) (known : List String)
  /-- A text is not a byte string of the right length. -/
  | octets (cause : OctetsError)
  | hex (cause : HexError)
  /-- A response has a code without a meaning. -/
  | unknownCode (code : Nat)
  | described (reason : String)
deriving DecidableEq, Repr

/-- A name between backquotes. -/
def backquoted (name : String) : String := "`" ++ name ++ "`"

/-- How a message lists the variants that are known. -/
def knownVariants : List String → String
  | [one] => "expected " ++ backquoted one
  | [one, two] => "expected " ++ backquoted one ++ " or " ++ backquoted two
  | known => "expected one of " ++ String.intercalate ", " (known.map backquoted)

def Fault.message : Fault → String
  | .malformed => "malformed JSON"
  | .invalidType found expected => "invalid type: " ++ found.message ++ ", expected " ++ expected
  | .invalidValue found expected => "invalid value: " ++ found.message ++ ", expected " ++ expected
  | .invalidLength length title size =>
    "invalid length " ++ toString length ++ ", expected struct " ++ title ++ " with "
      ++ toString size ++ (if size = 1 then " element" else " elements")
  | .missingField name => "missing field " ++ backquoted name
  | .duplicateField name => "duplicate field " ++ backquoted name
  | .unknownVariant name known =>
    "unknown variant " ++ backquoted name ++ ", " ++ knownVariants known
  | .octets cause => cause.message
  | .hex cause => cause.message
  | .unknownCode code => "unknown response code " ++ toString code
  | .described reason => reason

end TokenApproval.Data

/-! ## Readers of simple types

A reader turns a value into a Lean value of the type that is expected there, or says what is wrong
with it. The two formats differ in a few liberties, so a reader is told the format. -/

namespace TokenApproval.Data

/-- The format of the text that a value was read from. -/
inductive Format where
  | json
  | toml
deriving DecidableEq, Repr

abbrev Reader (α : Type) := Format → Value → Except Fault α

namespace Reader

/-- Refuses a value of the wrong kind. -/
def mismatch {α : Type} (expected : String) (value : Value) : Except Fault α :=
  match value.found? with
  | none => .error .malformed
  | some found => .error (.invalidType found expected)

/-- Reads with `reader`, then converts. -/
def mapM {α β : Type} (reader : Reader α) (convert : α → Except Fault β) : Reader β :=
  fun format value => reader format value >>= convert

def map {α β : Type} (reader : Reader α) (convert : α → β) : Reader β :=
  fun format value => (reader format value).map convert

def text : Reader String
  | _, .text value => .ok value
  | _, value => mismatch "a string" value

/-- Reads an integer of a range. -/
def integer (low high : Int) (expected : String) : Reader Int
  | _, .number (.integer value) =>
    if low ≤ value ∧ value ≤ high then .ok value
    else .error (.invalidValue (.number (.integer value)) expected)
  | _, value => mismatch expected value

def int64 : Reader Int64 := map (integer (-signedBound) (signedBound - 1) "i64") Int64.ofInt

def uint32 : Reader UInt32 := map (integer 0 (UInt32.size - 1) "u32") fun n => UInt32.ofNat n.toNat

def uint16 : Reader UInt16 := map (integer 0 (UInt16.size - 1) "u16") fun n => UInt16.ofNat n.toNat

def uint8 : Reader UInt8 := map (integer 0 (UInt8.size - 1) "u8") fun n => UInt8.ofNat n.toNat

def list {α : Type} (item : Reader α) : Reader (List α)
  | format, .array items closed => do
    let values ← items.mapM (item format)
    if closed then return values else .error .malformed
  | _, value => mismatch "a sequence" value

/-- Reads a value that may be null. -/
def optional {α : Type} (item : Reader α) : Reader (Option α)
  | _, .null => .ok none
  | format, value => (item format value).map some

/-- Reads the members of a map one after the other. -/
def members {α : Type} (item : Value → Except Fault α) :
    List (Option String × Value) → Except Fault (List (String × α))
  | [] => .ok []
  | (none, _) :: _ => .error .malformed
  | (some key, value) :: rest => do
    let first ← item value
    let others ← members item rest
    return (key, first) :: others

/-- Reads a map from texts, in the order of the text and with repeated keys. -/
def map? {α : Type} (item : Reader α) : Reader (List (String × α))
  | format, .object entries closed => do
    let values ← members (item format) entries
    if closed then return values else .error .malformed
  | _, value => mismatch "a map" value

def variantOf {α : Type} (known : List (String × α)) (name : String) : Except Fault α :=
  match known.lookup name with
  | some variant => .ok variant
  | none => .error (.unknownVariant name (known.map Prod.fst))

/-- Reads a variant, given by its name or as the one key of a map: above null in JSON, above an
empty table in TOML. -/
def variant {α : Type} (known : List (String × α)) : Reader α
  | _, .text name => variantOf known name
  | .json, .object ((some name, value) :: rest) closed => do
    let variant ← variantOf known name
    match value with
    | .null => if rest.isEmpty && closed then return variant else .error .malformed
    | value => mismatch "unit" value
  | .json, _ => .error .malformed
  | .toml, .object [(some name, value)] _ => do
    let variant ← variantOf known name
    match value with
    | .object [] _ => return variant
    | value => mismatch "unit" value
  | .toml, value => mismatch "a variant" value

/-- Reads a byte string of fixed length in hexadecimal. -/
def octets (n : Nat) : Reader (Octets n) :=
  mapM text fun value => (Octets.ofHex n value).mapError Fault.octets

/-- Reads a list of hashes in hexadecimal. The list is read to its end first. -/
def hashes : Reader (List (Octets 32)) :=
  mapM (list text) fun values => values.mapM fun value =>
    (Octets.ofHex 32 value).mapError Fault.octets

def bytes : Reader Bytes := mapM text fun value => (Hex.decode value).mapError Fault.hex

def optionalBytes : Reader (Option Bytes) :=
  mapM (optional text) fun
    | none => .ok none
    | some value => ((Hex.decode value).mapError Fault.hex).map some

end Reader

/-! ## Records in documents

A `Shape` says how a record type stands in a document: its fields in declaration order, each with a
name, a reader and a writer. A record is read from an object by the names of its fields, unknown
names being skipped, or from a list by their order. A field that is not mandatory keeps its value of
the blank record when it is left out. -/

/-- One field of a record type. -/
structure Field (ρ : Type) where
  name : String
  /-- Whether a document must give the field. -/
  mandatory : Bool
  /-- Reads the field's value and gives the function that stores it. -/
  read : Reader (ρ → ρ)
  /-- The field's value as it is written; `none` where the field is left out. -/
  write : ρ → Option Tree

/-- A record type as it stands in documents. -/
structure Shape (ρ : Type) where
  /-- The name by which messages call the type. -/
  title : String
  /-- The record before any field is read. -/
  blank : ρ
  fields : List (Field ρ)

namespace Field

/-- A field that a document must give. -/
def required {ρ α : Type} (name : String) (reader : Reader α) (set : α → ρ → ρ) (write : ρ → Tree) :
    Field ρ :=
  ⟨name, true, Reader.map reader set, fun record => some (write record)⟩

/-- A field that a document may leave out. -/
def defaulted {ρ α : Type} (name : String) (reader : Reader α) (set : α → ρ → ρ)
    (write : ρ → Tree) : Field ρ :=
  ⟨name, false, Reader.map reader set, fun record => some (write record)⟩

/-- A field that is left out when it is empty. -/
def optional {ρ α : Type} (name : String) (reader : Reader (Option α)) (set : Option α → ρ → ρ)
    (get : ρ → Option α) (write : α → Tree) : Field ρ :=
  ⟨name, false, Reader.map reader set, fun record => (get record).map write⟩

end Field

namespace Shape

variable {ρ : Type}

def field? (shape : Shape ρ) (name : String) : Option (Field ρ) :=
  shape.fields.find? (·.name == name)

/-- Ends a record whose fields of the names `seen` were given. -/
def finish (shape : Shape ρ) (seen : List String) (record : ρ) : Except Fault ρ :=
  match shape.fields.find? fun field => field.mandatory && !seen.contains field.name with
  | some field => .error (.missingField field.name)
  | none => .ok record

/-- Reads the members of an object into a record; `seen` names the fields that were given. -/
def readMembers (shape : Shape ρ) (format : Format) (closed : Bool) (seen : List String)
    (record : ρ) : List (Option String × Value) → Except Fault ρ
  | [] => if closed then shape.finish seen record else .error .malformed
  | (none, _) :: _ => .error .malformed
  | (some name, value) :: rest =>
    match shape.field? name with
    | none =>
      if value.isComplete then readMembers shape format closed seen record rest
      else .error .malformed
    | some field =>
      if seen.contains name then .error (.duplicateField name)
      else
        match field.read format value with
        | .error fault => .error fault
        | .ok set => readMembers shape format closed (name :: seen) (set record) rest

/-- Reads the items of a list into the fields of a record, in order; `index` counts the fields that
went before. JSON does not allow further items. -/
def readItems (shape : Shape ρ) (format : Format) (closed : Bool) (index : Nat) (record : ρ) :
    List (Field ρ) → List Value → Except Fault ρ
  | [], [] => if closed then .ok record else .error .malformed
  | [], _ :: _ => if format = .toml then .ok record else .error .malformed
  | field :: fields, [] =>
    if !closed then .error .malformed
    else if field.mandatory then
      .error (.invalidLength index shape.title shape.fields.length)
    else readItems shape format closed (index + 1) record fields []
  | field :: fields, value :: rest =>
    match field.read format value with
    | .error fault => .error fault
    | .ok set => readItems shape format closed (index + 1) (set record) fields rest

def read (shape : Shape ρ) : Reader ρ
  | format, .object members closed => shape.readMembers format closed [] shape.blank members
  | format, .array items closed => shape.readItems format closed 0 shape.blank shape.fields items
  | _, value => Reader.mismatch ("struct " ++ shape.title) value

/-- Writes a record, its fields in declaration order. -/
def write (shape : Shape ρ) (record : ρ) : Tree :=
  .record (shape.fields.filterMap fun field => (field.write record).map (field.name, ·))

end Shape

end TokenApproval.Data
