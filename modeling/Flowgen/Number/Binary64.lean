namespace Flowgen

/-!
# Double-precision numbers, kept exactly

A number of a workflow document that has a fraction or an exponent is a double.
It is kept here as sign, mantissa and exponent, so that every operation on it is
exact arithmetic on `Nat` and `Int`.  `Binary64.ofRatio` is the one place where
rounding happens: to the nearest double, a tie to the even mantissa.
-/

/--
A double.  A finite one is `mantissa * 2 ^ exponent`, negated if `negative`;
the mantissa has 53 bits unless the exponent is the least one.
-/
inductive Binary64 where
  | finite (negative : Bool) (mantissa : Nat) (exponent : Int)
  | infinite (negative : Bool)
  | nan
  deriving DecidableEq, Repr, Inhabited

namespace Binary64

/-- The exponent of the subnormal numbers, the least there is. -/
def leastExponent : Int :=
  -1074

/-- The greatest exponent of a finite double. -/
def greatestExponent : Int :=
  971

/-- Zero with a sign. -/
def zero (negative : Bool) : Binary64 :=
  .finite negative 0 leastExponent

/--
The quotient rounded to the nearest natural number, a tie to the even one.
-/
def roundQuotient (numerator denominator : Nat) : Nat :=
  let floor := numerator / denominator
  let twice := 2 * (numerator % denominator)
  if denominator < twice ∨ (twice = denominator ∧ floor % 2 = 1) then
    floor + 1
  else
    floor

/-- A ratio divided by a power of two, as a ratio again. -/
def scaled (numerator denominator : Nat) (exponent : Int) : Nat × Nat :=
  if 0 ≤ exponent then
    (numerator, denominator * Nat.pow 2 exponent.toNat)
  else
    (numerator * Nat.pow 2 (-exponent).toNat, denominator)

/--
Give a rounded mantissa its canonical place, or infinity beyond the range.
-/
def ofRounded (negative : Bool) (mantissa : Nat) (exponent : Int) : Binary64 :=
  let carried : Nat × Int :=
    if Nat.pow 2 53 ≤ mantissa then (mantissa / 2, exponent + 1)
      else (mantissa, exponent)
  if carried.1 = 0 then
    zero negative
  else if greatestExponent < carried.2 then
    .infinite negative
  else
    .finite negative carried.1 carried.2

/-- The double nearest to a ratio of natural numbers with a sign. -/
def ofRatio
    (negative : Bool)
    (numerator : Nat)
    (denominator : Nat) :
    Binary64 :=
  if numerator = 0 ∨ denominator = 0 then
    zero negative
  else
    let low : Int := (numerator.log2 : Int) - (denominator.log2 : Int) - 53
    let start := scaled numerator denominator low
    let fitting := if Nat.pow 2 53 ≤ start.1 / start.2 then low + 1 else low
    let exponent := max fitting leastExponent
    let ratio := scaled numerator denominator exponent
    ofRounded negative (roundQuotient ratio.1 ratio.2) exponent

/-- The double nearest to an integer. -/
def ofInt (number : Int) : Binary64 :=
  ofRatio (number < 0) number.natAbs 1

/-- Whether a double is a number of finite size. -/
def isFinite : Binary64 → Bool
  | .finite .. => true
  | _ => false

/-- Whether a double is zero, of either sign. -/
def isZero : Binary64 → Bool
  | .finite _ mantissa _ => mantissa == 0
  | _ => false

/-- The absolute value of a finite double as a ratio. -/
def ratio (mantissa : Nat) (exponent : Int) : Nat × Nat :=
  if 0 ≤ exponent then
    (mantissa * Nat.pow 2 exponent.toNat, 1)
  else
    (mantissa, Nat.pow 2 (-exponent).toNat)

/--
The integer part, with the fraction dropped; only finite doubles have one.
-/
def truncate? : Binary64 → Option Int
  | .finite negative mantissa exponent =>
      let parts := ratio mantissa exponent
      let size : Int := (parts.1 / parts.2 : Nat)
      some (if negative then -size else size)
  | _ => none

end Binary64

end Flowgen
