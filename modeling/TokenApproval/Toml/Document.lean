import TokenApproval.Data
import TokenApproval.Toml.Scalar

/-!
# TOML

A document is read line by line into a table that knows how each of its parts was given.
-/

/-! ## Tables in TOML

A table grows while its document is read. A header names a table by its path and opens it for the
pairs that follow; what it passes on the way is implied and can still be opened by a header of its
own. A dotted key makes dotted tables, which only further dotted keys extend. A table between
braces is extended by dotted keys as long as its outermost braces are open, and never after them.
Whatever was given once cannot be given again. -/

namespace TokenApproval.Toml

open Data (Value)

/-- How a table came to be. -/
inductive TableKind where
  /-- It was opened by a header. -/
  | header
  /-- Only tables inside it were opened. -/
  | implied
  /-- It was made by a dotted key. -/
  | dotted
  /-- It stands between braces, or was made by a dotted key there. -/
  | inline
deriving DecidableEq, Repr

/-- What stands under a key. -/
inductive Node where
  /-- A value that is complete. -/
  | value (value : Value)
  | table (kind : TableKind) (entries : List (String × Node))
  /-- A list of tables, each opened by a header; the last one is open. -/
  | tables (items : List (List (String × Node)))

/-- The entries of a table, in order. -/
abbrev Entries := List (String × Node)

namespace Entries

/-- The entries with another node under a key. -/
def replace (entries : Entries) (key : String) (node : Node) : Entries :=
  entries.map fun entry => if entry.1 == key then (key, node) else entry

/-- Changes the last of a list of tables. -/
def updateLast (change : Entries → Option Entries) : List Entries → Option (List Entries)
  | [] => none
  | [last] => (change last).map fun last => [last]
  | first :: rest => (updateLast change rest).map (first :: ·)

/-- Changes the table at the end of a path of keys; tables on the way are implied. -/
def update (change : Entries → Option Entries) (entries : Entries) :
    List String → Option Entries
  | [] => change entries
  | key :: rest =>
    match entries.lookup key with
    | none => do
      let inner ← update change [] rest
      return entries ++ [(key, .table .implied inner)]
    | some (.value _) => none
    | some (.table .inline _) => none
    | some (.table kind inner) => do
      let inner ← update change inner rest
      return replace entries key (.table kind inner)
    | some (.tables items) => do
      let items ← updateLast (fun last => update change last rest) items
      return replace entries key (.tables items)

/-- Opens the table of a key, unless it is given already. -/
def openTable (key : String) (entries : Entries) : Option Entries :=
  match entries.lookup key with
  | none => some (entries ++ [(key, .table .header [])])
  | some (.table .implied inner) => some (replace entries key (.table .header inner))
  | some _ => none

/-- Opens a further table in the list of tables of a key. -/
def openItem (key : String) (entries : Entries) : Option Entries :=
  match entries.lookup key with
  | none => some (entries ++ [(key, .tables [[]])])
  | some (.tables items) => some (replace entries key (.tables (items ++ [[]])))
  | some _ => none

/-- Puts a node under a dotted key of a document; `direct` says whether the table may take it
without a dot. -/
def put (node : Node) (direct : Bool) (entries : Entries) : List String → Option Entries
  | [] => none
  | [key] =>
    if direct && (entries.lookup key).isNone then some (entries ++ [(key, node)]) else none
  | key :: rest =>
    match entries.lookup key with
    | none => do
      let inner ← put node true [] rest
      return entries ++ [(key, .table .dotted inner)]
    | some (.value _) => none
    | some (.table .header _) => none
    | some (.table .inline _) => none
    | some (.table kind inner) => do
      let inner ← put node (kind == .dotted) inner rest
      return replace entries key (.table kind inner)
    | some (.tables items) => do
      let items ← updateLast (fun last => put node false last rest) items
      return replace entries key (.tables items)

/-- Puts a node under a dotted key of a table whose braces are open. -/
def putInline (node : Node) (entries : Entries) : List String → Option Entries
  | [] => none
  | [key] => if (entries.lookup key).isNone then some (entries ++ [(key, node)]) else none
  | key :: rest =>
    match entries.lookup key with
    | none => do
      let inner ← putInline node [] rest
      return entries ++ [(key, .table .inline inner)]
    | some (.table kind inner) => do
      let inner ← putInline node inner rest
      return replace entries key (.table kind inner)
    | some _ => none

end Entries

mutual

def Node.toValue : Node → Value
  | .value value => value
  | .table _ entries => .object (entryValues entries) true
  | .tables items => .array (itemValues items) true

def entryValues : List (String × Node) → List (Option String × Value)
  | [] => []
  | (key, node) :: rest => (some key, node.toValue) :: entryValues rest

def itemValues : List (List (String × Node)) → List Value
  | [] => []
  | entries :: rest => .object (entryValues entries) true :: itemValues rest

end

/-! ## TOML documents

A document is a list of lines: pairs of a key and a value, and headers that open tables. `parse`
reads one, and `decode` reads it as a type; either has no result for a document that is not TOML. -/

open Data (Value Reader Fault)

/-! ### Blanks, line ends and comments -/

def skipBlank (chars : List Char) : List Char := chars.dropWhile fun c => c == ' ' || c == '\t'

/-- Steps over a line break. -/
def lineBreak : List Char → Option (List Char)
  | '\n' :: rest => some rest
  | '\r' :: '\n' :: rest => some rest
  | _ => none

def skipComment : List Char → List Char
  | '#' :: rest => rest.dropWhile isPlain
  | chars => chars

/-- Steps over the end of a line: blanks, a comment, and a line break unless the text ends. -/
def lineEnd (chars : List Char) : Option (List Char) :=
  match skipComment (skipBlank chars) with
  | [] => some []
  | rest => lineBreak rest

/-- Drops blanks, comments and line breaks between the items of a list; a comment must end with its
line. -/
def skipLines : (fuel : Nat) → List Char → Option (List Char)
  | 0, chars => some chars
  | fuel + 1, chars =>
    match skipBlank chars with
    | '#' :: rest =>
      match lineBreak (rest.dropWhile isPlain) with
      | none => none
      | some rest => skipLines fuel rest
    | rest =>
      match lineBreak rest with
      | none => some rest
      | some rest => skipLines fuel rest

/-! ### Keys -/

/-- Whether a character may stand in a key without quotes. -/
def isKeyChar (c : Char) : Bool :=
  isDigit c || ('a' ≤ c && c ≤ 'z') || ('A' ≤ c && c ≤ 'Z') || c == '-' || c == '_'

def keyPart : List Char → Step String
  | '"' :: rest => basic [] rest
  | '\'' :: rest => literal [] rest
  | chars =>
    match chars.takeWhile isKeyChar with
    | [] => none
    | name => some (String.ofList name, chars.dropWhile isKeyChar)

/-- The most parts of a key, and the deepest nesting of lists and inline tables. -/
def maxDepth : Nat := 127

/-- Reads a key: parts with dots between them, and blanks around each. -/
def key : (fuel : Nat) → List Char → Option (List String × List Char)
  | 0, _ => none
  | fuel + 1, chars => do
    let (name, rest) ← keyPart (skipBlank chars)
    match skipBlank rest with
    | '.' :: rest =>
      let (names, rest) ← key fuel rest
      return (name :: names, rest)
    | rest => return ([name], rest)

/-! ### Values -/

mutual

/-- Reads a value; between braces it is a table that may still be extended. -/
def value : (fuel depth : Nat) → List Char → Step Node
  | 0, _, _ => none
  | fuel + 1, depth, chars =>
    match chars with
    | '"' :: _ => (string chars).map fun step => (.value (.text step.1), step.2)
    | '\'' :: _ => (string chars).map fun step => (.value (.text step.1), step.2)
    | 't' :: 'r' :: 'u' :: 'e' :: rest => some (.value (.boolean true), rest)
    | 'f' :: 'a' :: 'l' :: 's' :: 'e' :: rest => some (.value (.boolean false), rest)
    | '[' :: rest =>
      match depth with
      | 0 => none
      | depth + 1 =>
        (items fuel depth rest).map fun step => (.value (.array step.1 true), step.2)
    | c :: rest =>
      if c.toNat = 123 then
        match depth with
        | 0 => none
        | depth + 1 =>
          match skipBlank rest with
          | [] => none
          | first :: others =>
            if first.toNat = 125 then some (.table .inline [], others)
            else (pairs fuel depth [] (first :: others)).map fun step =>
              (.table .inline step.1, step.2)
      else (number chars).map fun step => (.value step.1, step.2)
    | [] => none

/-- Reads the items of a list up to its closing bracket; a comma may stand behind the last one. -/
def items : (fuel depth : Nat) → List Char → Step (List Value)
  | 0, _, _ => none
  | fuel + 1, depth, chars =>
    match skipLines chars.length chars with
    | none => none
    | some (']' :: rest) => some ([], rest)
    | some chars =>
      match value fuel depth chars with
      | none => none
      | some (first, rest) =>
        match skipLines rest.length rest with
        | some (']' :: rest) => some ([first.toValue], rest)
        | some (',' :: rest) =>
          (items fuel depth rest).map fun step => (first.toValue :: step.1, step.2)
        | _ => none

/-- Reads the pairs of an inline table up to its closing brace. -/
def pairs : (fuel depth : Nat) → Entries → List Char → Step Entries
  | 0, _, _, _ => none
  | fuel + 1, depth, entries, chars =>
    match key maxDepth chars with
    | some (names, '=' :: rest) =>
      match value fuel depth (skipBlank rest) with
      | none => none
      | some (node, rest) =>
        match entries.putInline node names with
        | none => none
        | some entries =>
          match skipBlank rest with
          | [] => none
          | first :: rest =>
            if first = ',' then pairs fuel depth entries rest
            else if first.toNat = 125 then some (entries, rest)
            else none
    | _ => none

end

/-! ### Documents -/

/-- The document that was read so far: its entries and the path of the open table. -/
structure Draft where
  entries : Entries
  path : List String

/-- Reads a header from behind its opening bracket or brackets. -/
def header (draft : Draft) : List Char → Option (Draft × List Char)
  | '[' :: rest => do
    let (names, rest) ← key maxDepth rest
    let last ← names.getLast?
    let rest ← (expect ']' rest).bind (expect ']')
    let rest ← lineEnd rest
    let entries ← draft.entries.update (Entries.openItem last) names.dropLast
    return (⟨entries, names⟩, rest)
  | rest => do
    let (names, rest) ← key maxDepth rest
    let last ← names.getLast?
    let rest ← expect ']' rest
    let rest ← lineEnd rest
    let entries ← draft.entries.update (Entries.openTable last) names.dropLast
    return (⟨entries, names⟩, rest)

/-- Reads a pair of a key and a value with the end of its line. -/
def pair (draft : Draft) (chars : List Char) : Option (Draft × List Char) := do
  let (names, rest) ← key maxDepth chars
  let rest ← expect '=' rest
  let rest := skipBlank rest
  let (node, rest) ← value (2 * rest.length + 2) maxDepth rest
  let rest ← lineEnd rest
  let entries ← draft.entries.update (fun table => table.put node true names) draft.path
  return (⟨entries, draft.path⟩, rest)

/-- Reads the lines of a document. -/
def lines : (fuel : Nat) → Draft → List Char → Option Draft
  | 0, _, _ => none
  | fuel + 1, draft, chars =>
    match skipBlank chars with
    | [] => some draft
    | '#' :: rest => (lineEnd ('#' :: rest)).bind (lines fuel draft)
    | '[' :: rest => (header draft rest).bind fun step => lines fuel step.1 step.2
    | first :: rest =>
      match lineBreak (first :: rest) with
      | some rest => lines fuel draft rest
      | none => (pair draft (first :: rest)).bind fun step => lines fuel step.1 step.2

def dropMark : List Char → List Char
  | c :: rest => if c.toNat = 0xFEFF then rest else c :: rest
  | [] => []

/-- The value of a document. -/
def parse (text : String) : Option Value :=
  let chars := dropMark text.toList
  (lines (chars.length + 1) ⟨[], []⟩ chars).map fun draft =>
    .object (entryValues draft.entries) true

def decode {α : Type} (reader : Reader α) (text : String) : Except Fault α :=
  match parse text with
  | none => .error .malformed
  | some value => reader .toml value

end TokenApproval.Toml
