import TokenApproval.Bytes
import TokenApproval.Data
import TokenApproval.Hex

/-!
# Single values in TOML

Strings, numbers, dates and times, each read from the front of what is left of a document.
-/

/-! ## Strings in TOML

Basic strings stand between double quotes and have escapes; literal strings stand between single
quotes and have none. Tripled quotes allow line breaks inside, of which one right at the start does
not count, and one or two quotes anywhere. Every reader starts behind the opening quotes and gives
the text and what follows the closing ones. -/

namespace TokenApproval.Toml

/-- What a reader found and the characters behind it. -/
abbrev Step (α : Type) := Option (α × List Char)

/-- Whether a character may stand in a text or comment as it is. -/
def isPlain (c : Char) : Bool := c == '\t' || (decide (32 ≤ c.toNat) && c.toNat != 127)

/-- The value of hexadecimal digits. -/
def hexValue? (digits : List Char) : Option Nat :=
  digits.foldlM (fun acc c =>
    if c.toNat < 128 then (Hex.value? (UInt8.ofNat c.toNat)).map (acc * 16 + ·) else none) 0

/-- The character of an escaped code point; surrogates are not characters. -/
def charOf? (digits : List Char) : Option Char :=
  (hexValue? digits).bind fun code => if code.isValidChar then some (Char.ofNat code) else none

/-- The character that a letter behind a backslash stands for. -/
def escaped? : Char → Option Char
  | 'b' => some (Char.ofNat 8)
  | 't' => some '\t'
  | 'n' => some '\n'
  | 'f' => some (Char.ofNat 12)
  | 'r' => some '\r'
  | '"' => some '"'
  | '\\' => some '\\'
  | _ => none

/-- A text from its characters in reverse. -/
def textOf (before : List Char) : String := String.ofList before.reverse

def basic (before : List Char) : List Char → Step String
  | [] => none
  | '"' :: rest => some (textOf before, rest)
  | '\\' :: 'u' :: a :: b :: c :: d :: rest =>
    match charOf? [a, b, c, d] with
    | none => none
    | some char => basic (char :: before) rest
  | '\\' :: 'U' :: a :: b :: c :: d :: e :: f :: g :: h :: rest =>
    match charOf? [a, b, c, d, e, f, g, h] with
    | none => none
    | some char => basic (char :: before) rest
  | '\\' :: letter :: rest =>
    match escaped? letter with
    | none => none
    | some char => basic (char :: before) rest
  | c :: rest => if isPlain c && c != '\\' then basic (c :: before) rest else none

def literal (before : List Char) : List Char → Step String
  | [] => none
  | c :: rest =>
    if c = '\'' then some (textOf before, rest)
    else if isPlain c then literal (c :: before) rest
    else none

/-- What a line-ending backslash has come to in a string of several lines. -/
inductive Folding where
  /-- There is none. -/
  | off
  /-- The line break has not come yet. -/
  | awaiting
  /-- Blanks and line breaks are dropped. -/
  | dropping
deriving DecidableEq, Repr

def basicLines (folding : Folding) (before : List Char) : List Char → Step String
  | [] => none
  | '\n' :: rest =>
    if folding = .off then basicLines .off ('\n' :: before) rest
    else basicLines .dropping before rest
  | '\r' :: '\n' :: rest =>
    if folding = .off then basicLines .off ('\n' :: before) rest
    else basicLines .dropping before rest
  | ' ' :: rest =>
    if folding = .off then basicLines .off (' ' :: before) rest else basicLines folding before rest
  | '\t' :: rest =>
    if folding = .off then basicLines .off ('\t' :: before) rest else basicLines folding before rest
  | '"' :: '"' :: '"' :: '"' :: '"' :: rest =>
    if folding = .awaiting then none else some (textOf ('"' :: '"' :: before), rest)
  | '"' :: '"' :: '"' :: '"' :: rest =>
    if folding = .awaiting then none else some (textOf ('"' :: before), rest)
  | '"' :: '"' :: '"' :: rest =>
    if folding = .awaiting then none else some (textOf before, rest)
  | '\\' :: 'u' :: a :: b :: c :: d :: rest =>
    match charOf? [a, b, c, d] with
    | none => none
    | some char => if folding = .awaiting then none else basicLines .off (char :: before) rest
  | '\\' :: 'U' :: a :: b :: c :: d :: e :: f :: g :: h :: rest =>
    match charOf? [a, b, c, d, e, f, g, h] with
    | none => none
    | some char => if folding = .awaiting then none else basicLines .off (char :: before) rest
  | '\\' :: '\r' :: '\n' :: rest =>
    if folding = .awaiting then none else basicLines .dropping before rest
  | '\\' :: letter :: rest =>
    if folding = .awaiting then none
    else
      match escaped? letter with
      | some char => basicLines .off (char :: before) rest
      | none =>
        if letter = ' ' ∨ letter = '\t' then basicLines .awaiting before rest
        else if letter = '\n' then basicLines .dropping before rest
        else none
  | c :: rest =>
    if folding = .awaiting then none
    else if isPlain c && c != '\\' then basicLines .off (c :: before) rest
    else none

def literalLines (before : List Char) : List Char → Step String
  | [] => none
  | '\'' :: '\'' :: '\'' :: '\'' :: '\'' :: rest => some (textOf ('\'' :: '\'' :: before), rest)
  | '\'' :: '\'' :: '\'' :: '\'' :: rest => some (textOf ('\'' :: before), rest)
  | '\'' :: '\'' :: '\'' :: rest => some (textOf before, rest)
  | '\r' :: '\n' :: rest => literalLines ('\n' :: before) rest
  | c :: rest => if isPlain c || c == '\n' then literalLines (c :: before) rest else none

/-- Drops a line break at the start. -/
def dropBreak : List Char → List Char
  | '\n' :: rest => rest
  | '\r' :: '\n' :: rest => rest
  | chars => chars

/-- Reads the string that the characters start with; no result if they start with no quote. -/
def string : List Char → Step String
  | '"' :: '"' :: '"' :: rest => basicLines .off [] (dropBreak rest)
  | '"' :: rest => basic [] rest
  | '\'' :: '\'' :: '\'' :: rest => literalLines [] (dropBreak rest)
  | '\'' :: rest => literal [] rest
  | _ => none

/-! ## Numbers and times in TOML

Integers are decimal, hexadecimal, octal or binary and fit in 64 signed bits; floats are decimal or
one of the words `inf` and `nan`, and must not round up to infinity. Underscores may separate
digits. The numbers in dates and times keep to their ranges, each for itself. A date or time is a
map with one reserved key. -/

open Data (Value Number)

/-! ### Digits -/

def isDigit (c : Char) : Bool := '0' ≤ c && c ≤ '9'

def isHexDigit (c : Char) : Bool := isDigit c || ('a' ≤ c && c ≤ 'f') || ('A' ≤ c && c ≤ 'F')

/-- The digits behind a first one; an underscore must stand between two digits. -/
def moreDigits (accept : Char → Bool) : List Char → Step (List Char)
  | [] => some ([], [])
  | '_' :: c :: rest =>
    if accept c then (moreDigits accept rest).map fun step => (c :: step.1, step.2) else none
  | c :: rest =>
    if c = '_' then none
    else if accept c then (moreDigits accept rest).map fun step => (c :: step.1, step.2)
    else some ([], c :: rest)

/-- One or more digits. -/
def digitRun (accept : Char → Bool) : List Char → Step (List Char)
  | [] => none
  | c :: rest =>
    if accept c then (moreDigits accept rest).map fun step => (c :: step.1, step.2) else none

/-- The digits of a decimal integer, which starts with a zero only if it is one. -/
def decimalRun : List Char → Step (List Char)
  | '0' :: rest => some (['0'], rest)
  | chars => digitRun isDigit chars

/-- The number that digits spell in a base. -/
def valueOf (base : Nat) (digits : List Char) : Nat :=
  digits.foldl (fun acc c => acc * base + ((hexValue? [c]).getD 0)) 0

/-- Exactly `count` decimal digits and the number they spell. -/
def fixedDigits (count : Nat) (chars : List Char) : Step Nat :=
  let digits := chars.take count
  if digits.length = count ∧ digits.all isDigit then some (valueOf 10 digits, chars.drop count)
  else none

/-! ### Dates and times -/

/-- Steps over one given character. -/
def expect (c : Char) : List Char → Option (List Char)
  | first :: rest => if first = c then some rest else none
  | [] => none

/-- Steps over a date; every month may have 31 days. -/
def date (chars : List Char) : Option (List Char) := do
  let (_, chars) ← fixedDigits 4 chars
  let chars ← expect '-' chars
  let (month, chars) ← fixedDigits 2 chars
  let chars ← expect '-' chars
  let (day, chars) ← fixedDigits 2 chars
  if 1 ≤ month ∧ month ≤ 12 ∧ 1 ≤ day ∧ day ≤ 31 then some chars else none

def hourMinute (chars : List Char) : Option (List Char) := do
  let (hour, chars) ← fixedDigits 2 chars
  let chars ← expect ':' chars
  let (minute, chars) ← fixedDigits 2 chars
  if hour ≤ 23 ∧ minute ≤ 59 then some chars else none

def time (chars : List Char) : Option (List Char) := do
  let chars ← hourMinute chars
  let chars ← expect ':' chars
  let (second, chars) ← fixedDigits 2 chars
  if second ≤ 60 then
    match chars with
    | '.' :: c :: rest => if isDigit c then some (rest.dropWhile isDigit) else some chars
    | _ => some chars
  else none

/-- Steps over the offset of a time, if there is one. -/
def offset : List Char → Option (List Char)
  | c :: rest =>
    if c = 'Z' ∨ c = 'z' then some rest
    else if c = '+' ∨ c = '-' then hourMinute rest
    else some (c :: rest)
  | [] => some []

/-- Steps over a time of day and its offset behind a date, if they are there. -/
def timeBehindDate : List Char → Option (List Char)
  | c :: rest =>
    if c = 'T' ∨ c = 't' ∨ c = ' ' then
      match time rest with
      | some rest => offset rest
      | none => some (c :: rest)
    else some (c :: rest)
  | [] => some []

/-- Steps over a date, a time or both. -/
def dateTime (chars : List Char) : Option (List Char) :=
  match date chars with
  | some rest => timeBehindDate rest
  | none => time chars

/-- A date or time: to readers a record with one member, whose name no field has. -/
def dateTimeValue : Value := .object [(some "", .text "")] true

/-! ### Numbers -/

/-- Whether `digits * 10 ^ exponent` rounds up to infinity. -/
def overflows (digits : List Char) (exponent : Int) : Bool :=
  let significant := digits.dropWhile (· == '0')
  let size := (significant.length : Int) + exponent
  if significant.isEmpty || decide (size < 300) then false
  else if 400 < size then true
  else
    let limit := Nat.pow 2 1024 - Nat.pow 2 970
    let value := valueOf 10 significant
    if 0 ≤ exponent then decide (limit ≤ value * Nat.pow 10 exponent.toNat)
    else decide (limit * Nat.pow 10 (-exponent).toNat ≤ value)

/-- An integer that fits in 64 signed bits. -/
def integerOf (negative : Bool) (magnitude : Nat) : Option Value :=
  if magnitude < Data.signedBound ∨ (negative ∧ magnitude = Data.signedBound) then
    some (.number (.integer (if negative then -(magnitude : Int) else magnitude)))
  else none

/-- A float. No reader takes one, so that its value does not matter as long as it is in range; that
is asked of positive floats only. -/
def floatOf (negative : Bool) (digits : List Char) (exponent : Int) : Option Value :=
  if !negative && overflows digits exponent then none else some (.number (.float 0))

/-- The exponent that the characters start with; zero if there is none. -/
def exponent : List Char → Step Int
  | mark :: rest =>
    if mark = 'e' ∨ mark = 'E' then
      let (negative, rest) := match rest with
        | '+' :: rest => (false, rest)
        | '-' :: rest => (true, rest)
        | rest => (false, rest)
      (digitRun isDigit rest).map fun step =>
        ((if negative then -(valueOf 10 step.1 : Int) else valueOf 10 step.1), step.2)
    else some (0, mark :: rest)
  | [] => some (0, [])

/-- Reads what follows a sign: a word, a float or a decimal integer. -/
def unsignedNumber (negative : Bool) : List Char → Option (Value × List Char)
  | 'i' :: 'n' :: 'f' :: rest => some (.number (.float 0), rest)
  | 'n' :: 'a' :: 'n' :: rest => some (.number (.float 0), rest)
  | chars => do
    let (whole, rest) ← decimalRun chars
    match rest with
    | '.' :: rest =>
      let (fraction, rest) ← digitRun isDigit rest
      let (power, rest) ← exponent rest
      let value ← floatOf negative (whole ++ fraction) (power - fraction.length)
      return (value, rest)
    | mark :: _ =>
      if mark = 'e' ∨ mark = 'E' then
        let (power, rest) ← exponent rest
        let value ← floatOf negative whole power
        return (value, rest)
      else
        let value ← integerOf negative (valueOf 10 whole)
        return (value, rest)
    | [] =>
      let value ← integerOf negative (valueOf 10 whole)
      return (value, [])

/-- Reads the digits of an integer in another base. -/
def basedInteger (base : Nat) (accept : Char → Bool) (chars : List Char) :
    Option (Value × List Char) := do
  let (digits, rest) ← digitRun accept chars
  let value ← integerOf false (valueOf base digits)
  return (value, rest)

/-- Reads the number, date or time that the characters start with. -/
def number (chars : List Char) : Step Value :=
  match dateTime chars with
  | some rest => some (dateTimeValue, rest)
  | none =>
    match chars with
    | '0' :: 'x' :: rest => basedInteger 16 isHexDigit rest
    | '0' :: 'o' :: rest => basedInteger 8 (fun c => '0' ≤ c && c ≤ '7') rest
    | '0' :: 'b' :: rest => basedInteger 2 (fun c => c == '0' || c == '1') rest
    | '+' :: rest => unsignedNumber false rest
    | '-' :: rest => unsignedNumber true rest
    | chars => unsignedNumber false chars

end TokenApproval.Toml
