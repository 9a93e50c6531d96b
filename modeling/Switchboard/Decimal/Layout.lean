import Switchboard.Decimal.Shortest

/-!
Two written forms of a float.

Both write the shortest decimal, positionally in a middle range and as `d.ddde-7` outside it, and
always show a fractional part in the positional form.  They differ in where the positional range
begins, in the tie rule, in the sign of the exponent, and in what stands for the values that are no
numbers.
-/

namespace Switchboard.Decimal

/-- The decisions of one written form. -/
structure Layout where
  /-- Which of two equally near decimals is written. -/
  tie : Tie
  /-- Least exponent of the leading digit that is written positionally. -/
  leastPositional : Int
  /-- First exponent of the leading digit that is not written positionally any more. -/
  firstScientific : Int
  /-- Whether exponents that are not negative have a sign too. -/
  signedExponent : Bool

/-- The form in which a value is displayed: positional from `0.0001` to below `1e16`, ties away
from zero. -/
def Layout.display : Layout := ⟨.awayFromZero, -4, 16, false⟩

/-- The form inside JSON text: positional from `0.00001` to below `1e16`, ties to even, and every
exponent with a sign. -/
def Layout.json : Layout := ⟨.toEven, -5, 16, true⟩

/-- Positional form of `digits`, the first of which counts `10 ^ lead`. -/
def positional (digits : List Char) (lead : Int) : List Char :=
  if lead < 0 then
    '0' :: '.' :: (List.replicate (-lead - 1).toNat '0' ++ digits)
  else
    let whole := lead.toNat + 1
    if digits.length ≤ whole then
      digits ++ List.replicate (whole - digits.length) '0' ++ ['.', '0']
    else digits.take whole ++ '.' :: digits.drop whole

/-- Integer in decimal. -/
def integerText (n : Int) : List Char :=
  match n with
  | .ofNat n => digitsOf n
  | .negSucc n => '-' :: digitsOf (n + 1)

/-- One digit, the others after a point, and the exponent. -/
def scientific (signedExponent : Bool) (digits : List Char) (lead : Int) : List Char :=
  let significand :=
    match digits with
    | first :: second :: rest => first :: '.' :: second :: rest
    | short => short
  let sign := if signedExponent && 0 ≤ lead then ['+'] else []
  significand ++ 'e' :: (sign ++ integerText lead)

/-- The text of a nonnegative magnitude. -/
def Layout.magnitudeText (layout : Layout) (size : Magnitude) : List Char :=
  if size.mantissa = 0 then ['0', '.', '0']
  else
    let scaled := shortest layout.tie size
    let digits := digitsOf scaled.digits
    let lead := scaled.exponent + digits.length - 1
    if layout.leastPositional ≤ lead ∧ lead < layout.firstScientific then
      positional digits lead
    else scientific layout.signedExponent digits lead

/-- The text of a signed magnitude: the sign is kept on zero too. -/
def Layout.finiteText (layout : Layout) (negative : Bool) (size : Magnitude) : String :=
  String.ofList ((if negative then ['-'] else []) ++ layout.magnitudeText size)

/-- The displayed text of any float. -/
def displayFloat (x : Float) : String :=
  match FloatShape.ofFloat x with
  | .nan => "NaN"
  | .infinite negative => if negative then "-inf" else "inf"
  | .finite negative size => Layout.display.finiteText negative size

/-- The JSON text of a float, for those that have one. -/
def jsonFloat? (x : Float) : Option String :=
  match FloatShape.ofFloat x with
  | .finite negative size => some (Layout.json.finiteText negative size)
  | _ => none

/-- The float nearest to `digits * 10 ^ exponent`.  A leading digit past the range decides at
once, so that no exponent however long costs more than its digits. -/
def nearestFloat (digits : Nat) (exponent : Int) : Float :=
  let lead : Int := exponent + (digitsOf digits).length
  if digits = 0 ∨ lead < -400 then 0.0
  else if lead > 400 then 1.0 / 0.0
  else Float.ofScientific digits (exponent < 0) exponent.natAbs

example : positional ['1', '5'] (-4) = "0.00015".toList := by decide
example : positional ['1', '5'] 3 = "1500.0".toList := by decide
example : positional ['1', '5'] 0 = "1.5".toList := by decide
example : scientific false ['1', '5'] (-7) = "1.5e-7".toList := by decide
example : scientific false ['1'] 16 = "1e16".toList := by decide
example : scientific true ['1'] 16 = "1e+16".toList := by decide

end Switchboard.Decimal
