/-!
The exact value behind a 64-bit floating-point number.

A finite float is a sign and a magnitude `mantissa * 2 ^ exponent` with natural `mantissa`.  The
decimal printers and the remainder work on that pair in exact arithmetic, so that no rounding
happens on the way.
-/

namespace Switchboard

/-- The real number `mantissa * 2 ^ exponent`. -/
structure Magnitude where
  mantissa : Nat
  exponent : Int
deriving DecidableEq, Repr

/-- What the bits of a float stand for. -/
inductive FloatShape where
  | nan
  | infinite (negative : Bool)
  | finite (negative : Bool) (size : Magnitude)
deriving DecidableEq, Repr

namespace FloatShape

/-- The shape written in 64 bits: one sign bit, eleven of exponent, fifty-two of fraction. -/
def ofBits (bits : Nat) : FloatShape :=
  let negative := decide (bits / Nat.pow 2 63 % 2 = 1)
  let field : Nat := bits / Nat.pow 2 52 % Nat.pow 2 11
  let fraction := bits % Nat.pow 2 52
  if field = 2047 then
    if fraction = 0 then .infinite negative else .nan
  else if field = 0 then .finite negative ⟨fraction, -1074⟩
  else .finite negative ⟨Nat.pow 2 52 + fraction, (field : Int) - 1075⟩

/-- The shape of a float. -/
def ofFloat (x : Float) : FloatShape :=
  ofBits x.toBits.toNat

end FloatShape

namespace Magnitude

/-- The bits of a magnitude below the sign.  The mantissa is shifted left until it fills its 53
bits or the exponent reaches its least value, which makes the pair unique. -/
def toBits (size : Magnitude) : Nat :=
  if size.mantissa = 0 then 0
  else
    let shift := min (52 - size.mantissa.log2) (size.exponent + 1074).toNat
    let mantissa := size.mantissa * Nat.pow 2 shift
    if mantissa < Nat.pow 2 52 then mantissa
    else (size.exponent - shift + 1075).toNat * Nat.pow 2 52 + (mantissa - Nat.pow 2 52)

/-- The float of this sign and magnitude, which must be one that a float can hold. -/
def toFloat (negative : Bool) (size : Magnitude) : Float :=
  Float.ofBits (UInt64.ofNat ((if negative then Nat.pow 2 63 else 0) + size.toBits))

/-- The remainder of `left` by `right`, both brought to the smaller exponent first. -/
def remainder (left right : Magnitude) : Magnitude :=
  let exponent := min left.exponent right.exponent
  let scale (size : Magnitude) := size.mantissa * Nat.pow 2 (size.exponent - exponent).toNat
  ⟨scale left % scale right, exponent⟩

end Magnitude

/-- The float that is not a number. -/
def notANumber : Float :=
  0.0 / 0.0

/-- The exact remainder of the division truncated toward zero.  It has the sign of the left
operand; there is none of an infinity, nor by zero; by an infinity nothing is taken away. -/
def floatRemainder (left right : Float) : Float :=
  match FloatShape.ofFloat left, FloatShape.ofFloat right with
  | .finite negative size, .finite _ divisor =>
      if divisor.mantissa = 0 then notANumber
      else (size.remainder divisor).toFloat negative
  | .finite _ _, .infinite _ => left
  | _, _ => notANumber

example : FloatShape.ofBits 0x3ff8000000000000 = .finite false ⟨3 * 2 ^ 51, -52⟩ := by decide

example : (Magnitude.mk 3 (-1)).toBits = 0x3ff8000000000000 := by decide

example : (Magnitude.mk 15 (-1)).remainder ⟨2, 0⟩ = ⟨3, -1⟩ := by decide

end Switchboard
