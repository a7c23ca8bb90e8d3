import Flowgen.Value.Access

namespace Flowgen

/-!
# Keys

Two ids are the same if they are the same text or the same number, whichever
way the number is written: `1`, `1.0` and `true` are one key.  A key keeps just
what this comparison looks at, so that equality of keys is plain equality.
-/

/--
What an id is compared by.  A number is `numerator / 2 ^ twos`, in lowest
terms.
-/
inductive Key where
  | null
  | number (numerator : Int) (twos : Nat)
  | infinite (negative : Bool)
  | nan
  | text (content : String)
  deriving DecidableEq, Repr

namespace Key

/-- Cancel common factors of two. -/
def lowestTerms : Nat → Int → Key
  | 0, numerator => .number numerator 0
  | twos + 1, numerator =>
      if numerator % 2 = 0 then
        lowestTerms twos (numerator / 2)
      else
        .number numerator (twos + 1)

/-- The key of a double. -/
def ofBinary64 : Binary64 → Key
  | .nan => .nan
  | .infinite negative => .infinite negative
  | .finite negative mantissa exponent =>
      let size : Int := if negative then -mantissa else mantissa
      if 0 ≤ exponent then
        .number (size * Int.pow 2 exponent.toNat) 0
      else
        lowestTerms (-exponent).toNat size

/-- The key of an integer. -/
def ofInt (number : Int) : Key :=
  .number number 0

/--
Whether two keys compare as equal values; what is no number equals nothing.
-/
def isSame (first second : Key) : Bool :=
  first == second && first != .nan

end Key

namespace Value

/-- The key of a value; lists and objects have none. -/
def key? : Value → Option Key
  | .null => some .null
  | .bool flag => some (.ofInt (if flag then 1 else 0))
  | .int number => some (.ofInt number)
  | .real number => some (.ofBinary64 number)
  | .text content => some (.text content)
  | .list _ => none
  | .object _ => none

/-- The key of a value, wanted for a look-up. -/
def key (value : Value) : Except Fault Key :=
  match value.key? with
  | some key => .ok key
  | none => .error (.unhashable value.kind)

end Value

end Flowgen
