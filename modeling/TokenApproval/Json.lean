import TokenApproval.Bytes
import TokenApproval.Data
import TokenApproval.Hex
import TokenApproval.Text

/-!
# JSON

Numbers and strings are scanned first and understood afterwards, since a value that nobody asks for
is skipped by its form alone.
-/

/-! ## Numbers in JSON

A literal without fraction and exponent is an integer if it fits in 64 bits; everything else is a
double. A double is computed from the first digits that fit in 64 bits and a power of ten, with one
rounding for each, so it may differ from the nearest one in its last bit. A literal beyond the range
of doubles denotes nothing. -/

namespace TokenApproval.Json

open Data (Number)

/-- A number literal taken apart. -/
structure Literal where
  negative : Bool
  integer : List Nat
  fraction : List Nat
  /-- The exponent's sign and digits. -/
  exponent : Option (Bool × List Nat)
  /-- Whether the literal has neither point nor exponent. -/
  whole : Bool
deriving DecidableEq, Repr

/-! ### Scanning -/

def isDigit (byte : UInt8) : Bool := 48 ≤ byte && byte ≤ 57

/-- The digits that a text starts with, and the text behind them. -/
def digits (bytes : Bytes) : List Nat × Bytes :=
  ((bytes.takeWhile isDigit).map fun b => b.toNat - 48, bytes.dropWhile isDigit)

/-- The exponent that a text starts with: nothing if there is none, no result if it has no digit. -/
def scanExponent : Bytes → Option (Option (Bool × List Nat) × Bytes)
  | mark :: rest =>
    if mark = 101 ∨ mark = 69 then
      let (negative, rest) := match rest with
        | 43 :: rest => (false, rest)
        | 45 :: rest => (true, rest)
        | rest => (false, rest)
      match digits rest with
      | ([], _) => none
      | (ds, rest) => some (some (negative, ds), rest)
    else some (none, mark :: rest)
  | [] => some (none, [])

/-- The fraction that a text starts with: nothing if there is none, no result if it has no digit. -/
def scanFraction : Bytes → Option (Option (List Nat) × Bytes)
  | 46 :: rest =>
    match digits rest with
    | ([], _) => none
    | (ds, rest) => some (some ds, rest)
  | bytes => some (none, bytes)

/-- The literal that a text starts with. A zero stands alone before the point. -/
def scanLiteral (bytes : Bytes) : Option (Literal × Bytes) := do
  let (negative, bytes) := match bytes with
    | 45 :: rest => (true, rest)
    | bytes => (false, bytes)
  let (integer, rest) := digits bytes
  if integer.isEmpty || (integer.head? == some 0 && decide (1 < integer.length)) then none
  else
    let (fraction, rest) ← scanFraction rest
    let (exponent, rest) ← scanExponent rest
    return (⟨negative, integer, fraction.getD [], exponent,
      fraction.isNone && exponent.isNone⟩, rest)

/-! ### Values -/

/-- Takes digits into a significand while it stays below `2 ^ 64`; gives also the digits left. -/
def absorb (significand : Nat) : List Nat → Nat × List Nat
  | [] => (significand, [])
  | digit :: rest =>
    if UInt64.size ≤ significand * 10 + digit then (significand, digit :: rest)
    else absorb (significand * 10 + digit) rest

/-- The greatest exponent that is computed with. -/
def exponentLimit : Nat := 0x7fffffff

/-- The double nearest to `10 ^ power`, for a power up to 308. -/
def powerOfTen (power : Nat) : Float := Float.ofScientific 1 false power

/-- A double times a power of ten. Powers below `10 ^ -308` are divided by in steps; the result is
`none` beyond the range of doubles. -/
def scaleFloat : (fuel : Nat) → Float → Int → Option Float
  | 0, value, _ => some value
  | fuel + 1, value, exponent =>
    if exponent.natAbs ≤ 308 then
      if 0 ≤ exponent then
        let scaled := value * powerOfTen exponent.natAbs
        if scaled.isInf then none else some scaled
      else some (value / powerOfTen exponent.natAbs)
    else if value == 0.0 then some value
    else if 0 ≤ exponent then none
    else scaleFloat fuel (value / powerOfTen 308) (exponent + 308)

/-- A double as a number, negated on demand. -/
def signed (negative : Bool) (value : Float) : Number :=
  .float (if negative then -value else value).toBits

/-- The double with a significand and a decimal exponent. -/
def floatOfParts (negative : Bool) (significand : Nat) (exponent : Int) : Option Number :=
  (scaleFloat 4 (UInt64.ofNat significand).toFloat exponent).map (signed negative)

/-- The number for a whole significand. -/
def wholeNumber (negative : Bool) (significand : Nat) : Number :=
  if !negative then .integer significand
  else if 0 < significand ∧ significand ≤ Data.signedBound then .integer (-(significand : Int))
  else signed true (UInt64.ofNat significand).toFloat

/-- The number that a literal denotes; `none` beyond the range of doubles. -/
def Literal.number? (literal : Literal) : Option Number :=
  let (whole, skipped) := absorb 0 literal.integer
  if literal.whole && skipped.isEmpty then some (wholeNumber literal.negative whole)
  else
    let (significand, unused) := absorb whole literal.fraction
    let places : Int := (literal.fraction.length : Int) - unused.length
    let exponent : Int := (skipped.length : Int) - places
    match literal.exponent with
    | none => floatOfParts literal.negative significand exponent
    | some (down, digits) =>
      let size := digits.foldl (fun acc d => acc * 10 + d) 0
      if exponentLimit < size then
        if significand ≠ 0 ∧ !down then none else some (signed literal.negative 0.0)
      else
        let shift : Int := if down then -(size : Int) else size
        floatOfParts literal.negative significand (exponent + shift)

/-! ## Strings in JSON

A string stands between double quotes, with the quote, the backslash and the control characters
escaped. Reading goes in two steps: `scan` finds the closing quote and checks the form of the
escapes; `text?` puts the pieces together, which fails on a lone surrogate and on bytes that are not
UTF-8. `write` uses the short escapes where there are any. -/

/-- A piece of a string: a byte as it stands or behind a backslash, or an escaped UTF-16 unit. -/
inductive Piece where
  | byte (value : UInt8)
  | unit (value : Nat)
deriving DecidableEq, Repr

/-! ### Reading -/

/-- The byte that a letter behind a backslash stands for. -/
def escaped? (letter : UInt8) : Option UInt8 :=
  if letter = 34 ∨ letter = 92 ∨ letter = 47 then some letter
  else if letter = 98 then some 8
  else if letter = 102 then some 12
  else if letter = 110 then some 10
  else if letter = 114 then some 13
  else if letter = 116 then some 9
  else none

/-- The unit spelled by four hexadecimal digits. -/
def unitOf? (a b c d : UInt8) : Option Nat := do
  let a ← Hex.value? a
  let b ← Hex.value? b
  let c ← Hex.value? c
  let d ← Hex.value? d
  return ((a * 16 + b) * 16 + c) * 16 + d

/-- The pieces up to the closing quote, before the pieces in `before` (in reverse), and the text
behind the quote. -/
def scanFrom (before : List Piece) : Bytes → Option (List Piece × Bytes)
  | [] => none
  | 34 :: rest => some (before.reverse, rest)
  | 92 :: 117 :: a :: b :: c :: d :: rest =>
    match unitOf? a b c d with
    | none => none
    | some unit => scanFrom (.unit unit :: before) rest
  | 92 :: letter :: rest =>
    match escaped? letter with
    | none => none
    | some byte => scanFrom (.byte byte :: before) rest
  | byte :: rest => if byte < 32 ∨ byte = 92 then none else scanFrom (.byte byte :: before) rest

/-- The pieces of a string, given from behind its opening quote, and the text behind the closing
one. -/
def scan (bytes : Bytes) : Option (List Piece × Bytes) := scanFrom [] bytes

/-- The bytes that the pieces spell: a high and a low surrogate together spell one character. -/
def pieceBytes? : List Piece → Option Bytes
  | [] => some []
  | .byte b :: rest => (pieceBytes? rest).map (b :: ·)
  | .unit u :: rest =>
    if u < 0xD800 ∨ 0xDFFF < u then
      (pieceBytes? rest).map (Text.bytes (String.singleton (Char.ofNat u)) ++ ·)
    else if 0xDBFF < u then none
    else
      match rest with
      | .unit v :: rest =>
        if 0xDC00 ≤ v ∧ v ≤ 0xDFFF then
          let code := 0x10000 + (u - 0xD800) * 0x400 + (v - 0xDC00)
          (pieceBytes? rest).map (Text.bytes (String.singleton (Char.ofNat code)) ++ ·)
        else none
      | _ => none

/-- The text that the pieces spell. -/
def text? (pieces : List Piece) : Option String := (pieceBytes? pieces).bind Text.ofBytes?

/-! ### Writing -/

/-- A character as it stands in a string. -/
def escape (c : Char) : List Char :=
  if c = '"' then ['\\', '"']
  else if c = '\\' then ['\\', '\\']
  else if c.toNat = 8 then ['\\', 'b']
  else if c.toNat = 9 then ['\\', 't']
  else if c.toNat = 10 then ['\\', 'n']
  else if c.toNat = 12 then ['\\', 'f']
  else if c.toNat = 13 then ['\\', 'r']
  else if c.toNat < 32 then
    ['\\', 'u', '0', '0', Hex.digit (c.toNat / 16), Hex.digit (c.toNat % 16)]
  else [c]

/-- A text as a string. -/
def quote (text : String) : List Char := ['"'] ++ text.toList.flatMap escape ++ ['"']

/-! ## JSON texts

`parse` reads the bytes of a JSON text into a value that records where the text goes wrong, and
`decode` reads a whole text as a type. `render` writes a tree without any blanks. -/

open Data (Value Reader Fault Tree)

/-! ### Reading -/

def isBlank (byte : UInt8) : Bool := byte = 32 || byte = 9 || byte = 10 || byte = 13

def skipBlank (bytes : Bytes) : Bytes := bytes.dropWhile isBlank

/-- What was read, with the text behind it, which is `none` once the text went wrong. -/
abbrev Parsed (α : Type) := α × Option Bytes

/-- Reads the rest of a word that stands for a value. -/
def parseWord (rest : Bytes) (word : String) (value : Value) : Parsed Value :=
  let letters := Text.bytes word
  if rest.take letters.length = letters then (value, some (rest.drop letters.length))
  else (.broken, none)

def parseString (rest : Bytes) : Parsed Value :=
  match scan rest with
  | none => (.broken, none)
  | some (pieces, rest) =>
    match text? pieces with
    | none => (.unreadable, some rest)
    | some text => (.text text, some rest)

def parseNumber (bytes : Bytes) : Parsed Value :=
  match scanLiteral bytes with
  | none => (.broken, none)
  | some (literal, rest) =>
    match literal.number? with
    | none => (.unreadable, some rest)
    | some number => (.number number, some rest)

mutual

/-- Reads a value. The fuel bounds the nesting and the number of parts. -/
def parseValue : (fuel : Nat) → Bytes → Parsed Value
  | 0, _ => (.broken, none)
  | fuel + 1, bytes =>
    match skipBlank bytes with
    | [] => (.broken, none)
    | byte :: rest =>
      if byte = 110 then parseWord rest "ull" .null
      else if byte = 116 then parseWord rest "rue" (.boolean true)
      else if byte = 102 then parseWord rest "alse" (.boolean false)
      else if byte = 34 then parseString rest
      else if byte = 91 then
        match skipBlank rest with
        | 93 :: rest => (.array [] true, some rest)
        | rest =>
          let (items, rest) := parseItems fuel rest
          (.array items rest.isSome, rest)
      else if byte = 123 then
        match skipBlank rest with
        | 125 :: rest => (.object [] true, some rest)
        | 34 :: rest =>
          let (members, rest) := parseMembers fuel rest
          (.object members rest.isSome, rest)
        | _ => (.object [] false, none)
      else if byte = 45 ∨ isDigit byte then parseNumber (byte :: rest)
      else (.broken, none)

/-- Reads the items of a list up to its closing bracket. -/
def parseItems : (fuel : Nat) → Bytes → Parsed (List Value)
  | 0, _ => ([], none)
  | fuel + 1, bytes =>
    match parseValue fuel bytes with
    | (value, none) => ([value], none)
    | (value, some rest) =>
      match skipBlank rest with
      | 93 :: rest => ([value], some rest)
      | 44 :: rest =>
        match skipBlank rest with
        | 93 :: _ => ([value], none)
        | rest =>
          let (values, rest) := parseItems fuel rest
          (value :: values, rest)
      | _ => ([value], none)

/-- Reads the members of an object, the first of them from behind the opening quote of its key, up
to the closing brace. -/
def parseMembers : (fuel : Nat) → Bytes → Parsed (List (Option String × Value))
  | 0, _ => ([], none)
  | fuel + 1, bytes =>
    match scan bytes with
    | none => ([], none)
    | some (pieces, rest) =>
      let key := text? pieces
      match skipBlank rest with
      | 58 :: rest =>
        match parseValue fuel rest with
        | (value, none) => ([(key, value)], none)
        | (value, some rest) =>
          match skipBlank rest with
          | 125 :: rest => ([(key, value)], some rest)
          | 44 :: rest =>
            match skipBlank rest with
            | 34 :: rest =>
              let (members, rest) := parseMembers fuel rest
              ((key, value) :: members, rest)
            | _ => ([(key, value)], none)
          | _ => ([(key, value)], none)
      | _ => ([(key, .broken)], none)

end

/-- Reads the value that a text starts with. -/
def parse (bytes : Bytes) : Parsed Value := parseValue (2 * bytes.length + 2) bytes

/-- Reads a whole text as a type. -/
def decode {α : Type} (reader : Reader α) (bytes : Bytes) : Except Fault α := do
  let (value, rest) := parse bytes
  let result ← reader .json value
  match rest with
  | none => .error .malformed
  | some rest => if (skipBlank rest).isEmpty then return result else .error .malformed

/-! ### Writing -/

mutual

/-- The characters of a tree. -/
def write : Tree → List Char
  | .null => ['n', 'u', 'l', 'l']
  | .integer value => (toString value).toList
  | .text value => quote value
  | .list items => '[' :: writeItems items ++ [']']
  | .record members => Char.ofNat 123 :: writeMembers members ++ [Char.ofNat 125]

def writeItems : List Tree → List Char
  | [] => []
  | [item] => write item
  | item :: rest => write item ++ ',' :: writeItems rest

def writeMembers : List (String × Tree) → List Char
  | [] => []
  | [(key, value)] => quote key ++ ':' :: write value
  | (key, value) :: rest => quote key ++ ':' :: write value ++ ',' :: writeMembers rest

end

/-- The compact text of a tree. -/
def render (tree : Tree) : String := String.ofList (write tree)

end TokenApproval.Json
