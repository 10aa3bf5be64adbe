/-!
# Floating-point numbers in decimal

Messages show a floating-point number by the shortest decimal that reads back as it.
-/

/-! ## The shortest decimals of binary fractions

A 64-bit floating-point number is `m * 2 ^ q` for a natural `m` and an integer `q`. Every real
number between the middles to its two neighbours reads back as it. `Binary.shortest` is the decimal
with the fewest digits in that interval, and of those the nearest one; all arithmetic is on natural
numbers. -/

namespace TokenApproval

/-- A decimal `digits * 10 ^ exponent`. -/
structure Decimal where
  digits : Nat
  exponent : Int
deriving DecidableEq, Repr

namespace Decimal

/-- A positive finite binary number `mantissa * 2 ^ exponent`; `narrow` holds when its lower
neighbour is only half as far away as its upper one. -/
structure Binary where
  mantissa : Nat
  exponent : Int
  narrow : Bool
deriving DecidableEq, Repr

namespace Binary

/-- The number that the bits of a double spell without their sign; `none` for zero, infinities and
what is no number. -/
def ofBits? (bits : UInt64) : Option Binary :=
  let fraction : Nat := bits.toNat % Nat.pow 2 52
  let biased : Nat := bits.toNat / Nat.pow 2 52 % Nat.pow 2 11
  if biased = 2047 then none
  else if biased = 0 then
    if fraction = 0 then none else some ⟨fraction, -1074, false⟩
  else some ⟨Nat.pow 2 52 + fraction, (biased : Int) - 1075, fraction = 0 && decide (1 < biased)⟩

/-- The number as a fraction of natural numbers. -/
def fraction (b : Binary) : Nat × Nat :=
  if 0 ≤ b.exponent then (b.mantissa * Nat.pow 2 b.exponent.toNat, 1)
  else (b.mantissa, Nat.pow 2 (-b.exponent).toNat)

/-- Whether a decimal reads back as the number: it lies between the middles to the neighbours, the
middles themselves included when the mantissa is even. -/
def accepts (b : Binary) (d : Decimal) : Bool :=
  -- everything is scaled by `4 * 2 ^ -exponent * 10 ^ -d.exponent`, as far as these are whole
  let twos := b.exponent - 2
  let (binaryScale, decimalScaleTwo) :=
    if 0 ≤ twos then (Nat.pow 2 twos.toNat, 1) else (1, Nat.pow 2 (-twos).toNat)
  let (decimalScale, binaryScaleTen) :=
    if 0 ≤ d.exponent then (Nat.pow 10 d.exponent.toNat, 1) else (1, Nat.pow 10 (-d.exponent).toNat)
  let unit := binaryScale * binaryScaleTen
  let value := d.digits * decimalScale * decimalScaleTwo
  let low := (4 * b.mantissa - (if b.narrow then 1 else 2)) * unit
  let high := (4 * b.mantissa + 2) * unit
  if b.mantissa % 2 = 0 then decide (low ≤ value) && decide (value ≤ high)
  else decide (low < value) && decide (value < high)

/-- The greatest `e` with `10 ^ e` at most the number. -/
def magnitude (b : Binary) : Int :=
  let (num, den) := b.fraction
  -- the number of decimal digits of the parts brackets the answer within one
  let guess : Int := ((toString num).length : Int) - ((toString den).length : Int)
  let reaches (e : Int) : Bool :=
    if 0 ≤ e then decide (den * Nat.pow 10 e.toNat ≤ num)
    else decide (den ≤ num * Nat.pow 10 (-e).toNat)
  if reaches guess then guess else guess - 1

/-- The decimal with one of two neighbouring digit strings that reads back as the number: the nearer
one if both do, the even one if they are equally near. -/
def nearest? (b : Binary) (exponent : Int) : Option Decimal :=
  let (num, den) := b.fraction
  let (num, den) :=
    if 0 ≤ exponent then (num, den * Nat.pow 10 exponent.toNat)
    else (num * Nat.pow 10 (-exponent).toNat, den)
  let lower : Decimal := ⟨num / den, exponent⟩
  let upper : Decimal := ⟨num / den + 1, exponent⟩
  let rest := num % den
  let upperFirst := decide (den < 2 * rest) || (den == 2 * rest && lower.digits % 2 == 1)
  let (first, second) := if upperFirst then (upper, lower) else (lower, upper)
  if b.accepts first then some first
  else if b.accepts second then some second
  else none

/-- Tries digit strings of growing length. -/
def search (b : Binary) (magnitude : Int) : (fuel : Nat) → (length : Nat) → Option Decimal
  | 0, _ => none
  | fuel + 1, length =>
    match b.nearest? (magnitude + 1 - length) with
    | some decimal => some decimal
    | none => search b magnitude fuel (length + 1)

/-- The shortest decimal that reads back as the number; 17 digits always suffice. -/
def shortest (b : Binary) : Decimal :=
  (search b b.magnitude 17 1).getD ⟨0, 0⟩

end Binary

end Decimal

end TokenApproval

/-! ## The text of a floating-point number

A floating-point number is written with the fewest digits that read back, always with a point or an
exponent. Numbers from `1e-5` up to below `1e16` stand in positional form; others have one digit
before the point and an exponent with a sign and as many digits as it needs. -/

namespace TokenApproval.Decimal

def trimZeros : (fuel : Nat) → Decimal → Decimal
  | 0, d => d
  | fuel + 1, d =>
    if d.digits ≠ 0 ∧ d.digits % 10 = 0 then trimZeros fuel ⟨d.digits / 10, d.exponent + 1⟩ else d

/-- The digits of a decimal with its point. -/
def positional (digits : List Char) (exponent : Int) : List Char :=
  if 0 ≤ exponent then digits ++ List.replicate exponent.toNat '0' ++ ['.', '0']
  else
    let places := (-exponent).toNat
    if places < digits.length then
      digits.take (digits.length - places) ++ ['.'] ++ digits.drop (digits.length - places)
    else ['0', '.'] ++ List.replicate (places - digits.length) '0' ++ digits

/-- The digits of a decimal with one before the point and an exponent. -/
def scientific (digits : List Char) (power : Int) : List Char :=
  let head := digits.take 1
  let tail := digits.drop 1
  head ++ (if tail.isEmpty then [] else '.' :: tail) ++ ['e', if power < 0 then '-' else '+']
    ++ Nat.toDigits 10 power.natAbs

/-- The text of a positive decimal. -/
def text (decimal : Decimal) : List Char :=
  let d := trimZeros 20 decimal
  let digits := Nat.toDigits 10 d.digits
  let power := d.exponent + (digits.length : Int) - 1
  if -5 ≤ power ∧ power < 16 then positional digits d.exponent else scientific digits power

/-- The text of the finite double with these bits. -/
def floatText (bits : UInt64) : String :=
  let sign := if bits.toNat / Nat.pow 2 63 = 1 then ['-'] else []
  match Binary.ofBits? bits with
  | none => String.ofList (sign ++ ['0', '.', '0'])
  | some b => String.ofList (sign ++ text b.shortest)

end TokenApproval.Decimal
