/-!
White space, in two senses.

A destination name counts as empty when nothing but Unicode white space is in it; the property has
25 characters.  Between the parts of an expression or of a JSON text only four of them may stand.
-/

namespace Switchboard.Text

/-- First and last code points of the runs of the Unicode property `White_Space`. -/
def whiteSpaceRuns : List (Nat × Nat) :=
  [(0x09, 0x0d), (0x20, 0x20), (0x85, 0x85), (0xa0, 0xa0), (0x1680, 0x1680), (0x2000, 0x200a),
    (0x2028, 0x2029), (0x202f, 0x202f), (0x205f, 0x205f), (0x3000, 0x3000)]

/-- The Unicode property `White_Space`. -/
def isWhiteSpace (c : Char) : Bool :=
  whiteSpaceRuns.any fun run => run.1 ≤ c.toNat && c.toNat ≤ run.2

/-- Nothing but white space. -/
def isBlank (text : String) : Bool :=
  text.toList.all isWhiteSpace

/-- Space, tab, line feed and carriage return: what may separate the parts of a written form. -/
def isSeparator (c : Char) : Bool :=
  c == ' ' || c == '\t' || c == '\n' || c == '\r'

example : (whiteSpaceRuns.map fun run => run.2 + 1 - run.1).sum = 25 := by decide

/-- Upper-case ASCII letters become lower-case, all else stays. -/
def asciiLower (text : String) : String :=
  text.map Char.toLower

end Switchboard.Text
