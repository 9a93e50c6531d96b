import Switchboard.Binary64

/-!
The fewest decimal digits that read back to a float.

A decimal reads back to the float `m * 2 ^ e` exactly when it lies between the midpoints to the
two neighbouring floats, the midpoints included when `m` is even.  For each number of digits the
only candidates are the two decimals of that length around the value; the first length with a
candidate inside wins, and of two candidates the nearer one.  When both are equally near, a
`Tie` rule decides.
-/

namespace Switchboard.Decimal

/-- How two equally near decimals are told apart. -/
inductive Tie where
  | toEven
  | awayFromZero
deriving DecidableEq, Repr

/-- The number `digits * 10 ^ exponent`. -/
structure Scaled where
  digits : Nat
  exponent : Int
deriving DecidableEq, Repr

/-- Drop trailing zero digits, at most `fuel` of them. -/
def Scaled.strip : Nat → Scaled → Scaled
  | 0, scaled => scaled
  | fuel + 1, scaled =>
      if scaled.digits ≠ 0 ∧ scaled.digits % 10 = 0 then
        strip fuel ⟨scaled.digits / 10, scaled.exponent + 1⟩
      else scaled

/-- Decimal digits of a natural number, most significant first. -/
def digitsOf (n : Nat) : List Char :=
  Nat.toDigits 10 n

/-- Compares `quarters * 2 ^ (e - 2)` with `d * 10 ^ k`, by clearing both denominators. -/
def compareScaled (quarters : Nat) (e : Int) (d : Nat) (k : Int) : Ordering :=
  compare (quarters * Nat.pow 2 (e - 2).toNat * Nat.pow 10 (-k).toNat)
    (d * Nat.pow 10 k.toNat * Nat.pow 2 (2 - e).toNat)

/-- The largest `d` with `d * 10 ^ k` at most `m * 2 ^ e`. -/
def floorAt (size : Magnitude) (k : Int) : Nat :=
  size.mantissa * Nat.pow 2 size.exponent.toNat * Nat.pow 10 (-k).toNat /
    (Nat.pow 10 k.toNat * Nat.pow 2 (-size.exponent).toNat)

/-- A decimal that reads back to the float of this magnitude. -/
def readsBack (size : Magnitude) (d : Nat) (k : Int) : Bool :=
  let m := 4 * size.mantissa
  let below := if size.mantissa = Nat.pow 2 52 ∧ size.exponent > -1074 then 1 else 2
  let even := size.mantissa % 2 = 0
  let low := compareScaled (m - below) size.exponent d k
  let high := compareScaled (m + 2) size.exponent d k
  (low == .lt || (low == .eq && even)) && (high == .gt || (high == .eq && even))

/-- Whether the value is nearer to `d + 1` than to `d` on the grid of `10 ^ k`. -/
def prefersUpper (tie : Tie) (size : Magnitude) (d : Nat) (k : Int) : Bool :=
  match compareScaled (8 * size.mantissa) size.exponent (2 * d + 1) k with
  | .lt => false
  | .gt => true
  | .eq =>
      match tie with
      | .toEven => d % 2 == 1
      | .awayFromZero => true

/-- The exponent `p` with `10 ^ p` at most the value and `10 ^ (p + 1)` above it.  The binary
logarithm gives it up to one. -/
def leadingExponent (size : Magnitude) : Int :=
  let guess := ((size.mantissa.log2 + size.exponent) * 30103) / 100000
  let quarters := 4 * size.mantissa
  if compareScaled quarters size.exponent 1 guess == .lt then guess - 1
  else if compareScaled quarters size.exponent 1 (guess + 1) == .lt then guess
  else guess + 1

/-- The best decimal on the grid of `10 ^ k`, when one reads back. -/
def onGrid? (tie : Tie) (size : Magnitude) (k : Int) : Option Scaled :=
  let d := floorAt size k
  match readsBack size d k, readsBack size (d + 1) k with
  | true, true => some ⟨if prefersUpper tie size d k then d + 1 else d, k⟩
  | true, false => some ⟨d, k⟩
  | false, true => some ⟨d + 1, k⟩
  | false, false => none

/-- The shortest decimal of a nonzero magnitude.  Seventeen digits always suffice, so the last
alternative is the value rounded down to that many. -/
def shortest (tie : Tie) (size : Magnitude) : Scaled :=
  let lead := leadingExponent size
  let grid (count : Nat) : Int := lead - count
  match (List.range 17).findSome? fun count => onGrid? tie size (grid count) with
  | some scaled => scaled.strip 20
  | none => ⟨floorAt size (grid 16), grid 16⟩

example : shortest .toEven ⟨1, -1⟩ = ⟨5, -1⟩ := by decide

-- The two rules differ on `2 ^ -25`, which lies exactly between two decimals of 17 digits.
example : shortest .toEven ⟨2 ^ 52, -77⟩ = ⟨29802322387695312, -24⟩ := by decide +kernel
example : shortest .awayFromZero ⟨2 ^ 52, -77⟩ = ⟨29802322387695313, -24⟩ := by decide +kernel

end Switchboard.Decimal
