import TokenApproval.Text
import TokenApproval.Text.Letters

/-!
# Environment variables

The operating system hands variables over as one block of bytes; `Environment.ofBlock` reads it. A
variable is looked up in the texts of the block, each a name, an equals sign and a value.
-/

namespace TokenApproval

/-- The variables of a process; of several values for one name the first counts. -/
structure Environment where
  entries : List (String × String)
deriving DecidableEq

namespace Environment

/-- Whether a variable can be asked for by a name. -/
def isName (name : String) : Bool := name != "" && name.toList.all (· != Char.ofNat 0)

/-- What follows a name and an equals sign in the text of an entry. An equals sign may stand in the
name too, so that a part of the value counts as name. -/
def valueBehind? (name : String) (entry : String × String) : Option String :=
  let start := name.toList ++ ['=']
  let text := entry.1.toList ++ '=' :: entry.2.toList
  if start.isPrefixOf text then some (String.ofList (text.drop start.length)) else none

def get? (env : Environment) (name : String) : Option String :=
  if isName name then env.entries.findSome? (valueBehind? name) else none

/-- The environment with a variable, unless it has it already; no value can hold a zero byte. -/
def setDefault? (env : Environment) (name value : String) : Option Environment :=
  if (env.get? name).isSome then some env
  else if value.toList.contains (Char.ofNat 0) then none
  else some ⟨env.entries ++ [(name, value)]⟩

/-- The variable that a part of a block gives, if its name and value are texts. -/
def ofEntry? (entry : Bytes) : Option (String × String) :=
  match entry.dropWhile (· != 61) with
  | [] => none
  | _ :: value => do
    let name ← Text.ofBytes? (entry.takeWhile (· != 61))
    let value ← Text.ofBytes? value
    return (name, value)

/-- The variables of a block: a name, an equals sign and a value each, and a zero byte behind. -/
def ofBlock (block : Bytes) : Environment := ⟨(block.splitOn 0).filterMap ofEntry?⟩

end Environment

end TokenApproval

/-! ## Environment files

A file of lines `NAME=value` gives variables that the environment does not have. Values may be
quoted, refer to other variables, and be followed by a comment. The first line that is wrong ends
the file; the lines before it count. A value with a zero byte cannot be given to a process: where
one would be, there is no environment at all. -/

namespace TokenApproval.EnvFile

/-! ### Values -/

/-- How far the name of another variable has come. -/
inductive Reference where
  | none
  /-- Behind a dollar sign. -/
  | plain
  /-- Behind a dollar sign and a brace. -/
  | braced
deriving DecidableEq, Repr

/-- A value on the way: where its reader is, and what was read. Names and output are in reverse. -/
structure Progress where
  strongQuote : Bool
  weakQuote : Bool
  escaped : Bool
  /-- The value has ended; only blanks and a comment may follow. -/
  ended : Bool
  reference : Reference
  name : List Char
  output : List Char

/-- Nothing was read. -/
def Progress.start : Progress := ⟨false, false, false, false, .none, [], []⟩

def Progress.emit (state : Progress) (c : Char) : Progress :=
  { state with output := c :: state.output }

/-- The state with the value of the variable put out whose name was read. -/
def Progress.substitute (lookup : String → String) (state : Progress) : Progress :=
  { state with
    name := []
    output := (lookup (String.ofList state.name.reverse)).toList.reverse ++ state.output }

/-- What a character behind a backslash stands for. -/
def escapedChar? (c : Char) : Option Char :=
  if c = '\\' ∨ c = '\'' ∨ c = '"' ∨ c = '$' ∨ c = ' ' then some c
  else if c = 'n' then some '\n'
  else none

/-- Takes a character while the name of another variable is read. -/
def Progress.refer (lookup : String → String) (state : Progress) (c : Char) : Progress :=
  if Text.isAlphanumeric c then { state with name := c :: state.name }
  else if state.reference = .braced then
    if c.toNat = 125 then { state.substitute lookup with reference := .none }
    else { state with name := c :: state.name }
  else if c.toNat = 123 ∧ state.name = [] then { state with reference := .braced }
  else if c = '$' then { state.substitute lookup with reference := .plain }
  else { (state.substitute lookup).emit c with reference := .none }

/-- Takes a character outside names, escapes and single quotes. -/
def Progress.plain (state : Progress) (c : Char) : Progress :=
  if c = '$' then { state with reference := .plain }
  else if state.weakQuote then
    if c = '"' then { state with weakQuote := false }
    else if c = '\\' then { state with escaped := true }
    else state.emit c
  else if c = '\'' then { state with strongQuote := true }
  else if c = '"' then { state with weakQuote := true }
  else if c = '\\' then { state with escaped := true }
  else if c = ' ' ∨ c = '\t' then { state with ended := true }
  else state.emit c

/-- Reads the rest of a value. -/
def readValue (lookup : String → String) (state : Progress) : List Char → Option String
  | [] =>
    if state.reference = .braced ∨ state.strongQuote ∨ state.weakQuote then none
    else some (String.ofList (state.substitute lookup).output.reverse)
  | c :: rest =>
    if state.ended then
      if c = ' ' ∨ c = '\t' then readValue lookup state rest
      else if c = '#' then readValue lookup state []
      else none
    else if state.escaped then
      match escapedChar? c with
      | none => none
      | some char => readValue lookup { state.emit char with escaped := false } rest
    else if state.strongQuote then
      readValue lookup (if c = '\'' then { state with strongQuote := false } else state.emit c) rest
    else if state.reference ≠ .none then readValue lookup (state.refer lookup c) rest
    else readValue lookup (state.plain c) rest
termination_by chars => chars.length

/-! ### Lines -/

def startsName (c : Char) : Bool := c.isAlpha || c == '_'

def continuesName (c : Char) : Bool := c.isAlphanum || c == '_' || c == '.'

def skipBlank (chars : List Char) : List Char := chars.dropWhile Text.isBlank

/-- Reads a name and the blanks behind it. -/
def readName : List Char → Option (String × List Char)
  | c :: rest =>
    if startsName c then
      some (String.ofList (c :: rest.takeWhile continuesName),
        skipBlank (rest.dropWhile continuesName))
    else none
  | [] => none

/-- Reads the start of a line up to its equals sign, after an optional `export`. -/
def readAssignment (chars : List Char) : Option (String × List Char) :=
  match readName chars with
  | none => none
  | some (name, '=' :: rest) => some (name, rest)
  | some (name, rest) =>
    if name = "export" then
      match readName rest with
      | some (name, '=' :: rest) => some (name, rest)
      | _ => none
    else none

inductive Line where
  | nothing
  | variable (name value : String)
  | wrong

def readLine (lookup : String → String) (line : String) : Line :=
  match skipBlank (Text.trimEnd line).toList with
  | [] => .nothing
  | '#' :: _ => .nothing
  | chars =>
    match readAssignment chars with
    | none => .wrong
    | some (name, rest) =>
      match skipBlank rest with
      | [] => .variable name ""
      | '#' :: _ => .variable name ""
      | rest =>
        match readValue lookup .start rest with
        | none => .wrong
        | some value => .variable name value

/-! ### Files -/

/-- The value that a reference gives: from the environment, or else from the lines before. -/
def lookup (env : Environment) (before : List (String × String)) (name : String) : String :=
  match env.get? name with
  | some value => value
  | none => (before.lookup name).getD ""

/-- Adds the variables of lines to an environment; `before` holds what earlier lines gave. -/
def withLines? (env : Environment) (before : List (String × String)) :
    List Bytes → Option Environment
  | [] => some env
  | line :: rest =>
    match Text.ofBytes? line with
    | none => some env
    | some text =>
      match readLine (lookup env before) text with
      | .wrong => some env
      | .nothing => withLines? env before rest
      | .variable name value => do
        let env ← env.setDefault? name value
        withLines? env ((name, value) :: before) rest

/-- The environment with the variables of a file that it does not have. -/
def load? (env : Environment) (file : Bytes) : Option Environment :=
  withLines? env [] (file.splitOn 10)

end TokenApproval.EnvFile
