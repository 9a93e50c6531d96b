import Switchboard.Library.Basic

/-!
`lang.math`: functions of floats.
-/

namespace Switchboard.Library.Numbers

def package : String := "lang.math"

/-- The magnitude of a float. -/
def abs : LibraryBody := fun store arguments => do
  let x ← Arguments.float arguments 0
  return (some (.float x.abs), store)

/-- A float to the power of another. -/
def pow : LibraryBody := fun store arguments => do
  let base ← Arguments.float arguments 0
  let exponent ← Arguments.float arguments 1
  return (some (.float (base.pow exponent)), store)

/-- The functions of the package. -/
def contributions : List Contribution :=
  [abs.contribution package "abs" [("x", "float")] (some "float"),
    pow.contribution package "pow" [("base", "float"), ("exponent", "float")] (some "float")]

end Switchboard.Library.Numbers
