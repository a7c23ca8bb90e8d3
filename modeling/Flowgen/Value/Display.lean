import Flowgen.Number.Decimal
import Flowgen.Text.Quoted
import Flowgen.Value.Basic

namespace Flowgen

/-!
# Values in running text

A value inside a message or inside generated code: a text stands as it is, and
inside lists and objects it is quoted.
-/

/--
Doubles are positional from `0.0001` up to sixteen digits before the point, and
an exponent has a sign and at least two digits.
-/
def realLayout : Decimal.Layout where
  leastPoint := -3
  greatestPoint := 16
  exponentWidth := 2
  infinity := "inf"
  notANumber := "nan"

/-- The text of a double. -/
def Binary64.display (number : Binary64) : String :=
  realLayout.writeBinary64 number

namespace Value

mutual

/-- A value as it stands inside a list or an object. -/
def literal : Value → String
  | .null => "None"
  | .bool true => "True"
  | .bool false => "False"
  | .int number => toString number
  | .real number => number.display
  | .text content => Text.quote content
  | .list items => "[" ++ ", ".intercalate (literals items) ++ "]"
  | .object fields =>
      "\x7b" ++ ", ".intercalate (fieldLiterals fields) ++ "\x7d"

/-- The items of a list. -/
def literals : List Value → List String
  | [] => []
  | item :: items => literal item :: literals items

/-- The fields of an object with their names. -/
def fieldLiterals : List (String × Value) → List String
  | [] => []
  | (name, value) :: fields =>
      (Text.quote name ++ ": " ++ literal value) :: fieldLiterals fields

end

/-- A value in running text. -/
def display : Value → String
  | .text content => content
  | other => other.literal

end Value

end Flowgen
