import Flowgen.Number.Binary64

namespace Flowgen

/-!
# Decimal text of doubles

Reading takes a decimal to the nearest double.  Writing takes a double to the
fewest decimal digits that read back to it, the nearest such decimal among them,
and lays them out by a `Decimal.Layout`.
-/

/-- A decimal number without sign, `digits * 10 ^ exponent`. -/
structure Decimal where
  digits : Nat
  exponent : Int
  deriving DecidableEq, Repr

namespace Decimal

/-- How many decimal digits a natural number has; zero has one. -/
def digitCount (number : Nat) : Nat :=
  (Nat.toDigits 10 number).length

/-- The value of a decimal as a ratio. -/
def ratio (decimal : Decimal) : Nat × Nat :=
  if 0 ≤ decimal.exponent then
    (decimal.digits * Nat.pow 10 decimal.exponent.toNat, 1)
  else
    (decimal.digits, Nat.pow 10 (-decimal.exponent).toNat)

/--
The double nearest to a decimal with a sign.  Decimals far outside the range of
doubles are settled by their order of magnitude alone.
-/
def toBinary64 (negative : Bool) (decimal : Decimal) : Binary64 :=
  let magnitude : Int := decimal.exponent + digitCount decimal.digits
  if decimal.digits = 0 ∨ magnitude < -400 then
    .zero negative
  else if 400 < magnitude then
    .infinite negative
  else
    .ofRatio negative decimal.ratio.1 decimal.ratio.2

/-- The exponent of the leading decimal digit of a positive ratio. -/
def leadingExponent (numerator denominator : Nat) : Int :=
  if denominator ≤ numerator then
    (digitCount (numerator / denominator) : Int) - 1
  else
    -(digitCount ((denominator + numerator - 1) / numerator - 1) : Int)

/--
The two neighbours of a ratio on the grid of multiples of `10 ^ exponent`.
-/
def neighbours
    (numerator denominator : Nat)
    (exponent : Int) :
    Decimal × Decimal :=
  let floor :=
    if 0 ≤ exponent then
      numerator / (denominator * Nat.pow 10 exponent.toNat)
    else
      numerator * Nat.pow 10 (-exponent).toNat / denominator
  (⟨floor, exponent⟩, ⟨floor + 1, exponent⟩)

/--
Whether a ratio is nearer to the first of two decimals; a tie asks for even
digits.
-/
def prefersFirst
    (numerator : Nat)
    (denominator : Nat)
    (first second : Decimal) :
    Bool :=
  let low := first.ratio
  let high := second.ratio
  let below : Int := numerator * low.2 * high.2 - low.1 * denominator * high.2
  let above : Int := high.1 * denominator * low.2 - numerator * high.2 * low.2
  below < above || (below == above && first.digits % 2 == 0)

/--
The decimal on one grid that reads back to the double, if the grid has one.
-/
def onGrid?
    (mantissa : Nat)
    (binaryExponent : Int)
    (gridExponent : Int) :
    Option Decimal :=
  let target := Binary64.finite false mantissa binaryExponent
  let value := Binary64.ratio mantissa binaryExponent
  let candidates := neighbours value.1 value.2 gridExponent
  let low := candidates.1
  let high := candidates.2
  match low.toBinary64 false == target, high.toBinary64 false == target with
  | true, true =>
      some (if prefersFirst value.1 value.2 low high then low else high)
  | true, false => some low
  | false, true => some high
  | false, false => none

/-- Try finer and finer grids, `fuel` of them, starting at the given one. -/
def search (mantissa : Nat) (binaryExponent : Int) : Nat → Int → Option Decimal
  | 0, _ => none
  | fuel + 1, gridExponent =>
      match onGrid? mantissa binaryExponent gridExponent with
      | some decimal => some decimal
      | none => search mantissa binaryExponent fuel (gridExponent - 1)

/--
Move trailing zeros of the digits into the exponent; `fuel` bounds their
number.
-/
def dropZeros : Nat → Decimal → Decimal
  | 0, decimal => decimal
  | fuel + 1, decimal =>
      if decimal.digits % 10 = 0 ∧ decimal.digits ≠ 0 then
        dropZeros fuel ⟨decimal.digits / 10, decimal.exponent + 1⟩
      else
        decimal

/--
The shortest decimal that reads back to a positive finite double.  Seventeen
digits always suffice, so the search over grids ends there.
-/
def shortest (mantissa : Nat) (exponent : Int) : Decimal :=
  let value := Binary64.ratio mantissa exponent
  let leading := leadingExponent value.1 value.2
  dropZeros 20 ((search mantissa exponent 18 leading).getD ⟨mantissa, 0⟩)

/-- The decisions of a number format. -/
structure Layout where
  /--
  The decimal point stands right of at least this many digits in positional
  notation.
  -/
  leastPoint : Int
  /--
  The decimal point stands right of at most this many digits in positional
  notation.
  -/
  greatestPoint : Int
  /-- An exponent is padded with zeros to this many digits. -/
  exponentWidth : Nat
  infinity : String
  notANumber : String

/-- A text of zeros. -/
def zeros (count : Nat) : String :=
  String.ofList (List.replicate count '0')

/-- An exponent with its sign, padded to a width. -/
def exponentText (width : Nat) (exponent : Int) : String :=
  let digits := toString exponent.natAbs
  (if exponent < 0 then "-" else "+") ++ zeros (width - digits.length) ++ digits

/-- Write a decimal without sign. -/
def Layout.write (layout : Layout) (decimal : Decimal) : String :=
  let digits := Nat.toDigits 10 decimal.digits
  let point : Int := decimal.exponent + digits.length
  if layout.leastPoint ≤ point ∧ point ≤ layout.greatestPoint then
    if point ≤ 0 then
      "0." ++ zeros (-point).toNat ++ String.ofList digits
    else if digits.length ≤ point.toNat then
      String.ofList digits ++ zeros (point.toNat - digits.length) ++ ".0"
    else
      String.ofList (digits.take point.toNat) ++ "." ++
        String.ofList (digits.drop point.toNat)
  else
    let rest := digits.drop 1
    String.ofList (digits.take 1)
      ++ (if rest.isEmpty then "" else "." ++ String.ofList rest)
      ++ "e" ++ exponentText layout.exponentWidth (point - 1)

/-- Write a double. -/
def Layout.writeBinary64 (layout : Layout) : Binary64 → String
  | .nan => layout.notANumber
  | .infinite negative => (if negative then "-" else "") ++ layout.infinity
  | .finite negative mantissa exponent =>
      (if negative then "-" else "")
        ++ (if mantissa = 0 then "0.0"
          else layout.write (shortest mantissa exponent))

end Decimal

end Flowgen
