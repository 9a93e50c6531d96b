import Switchboard.Decimal.Layout
import Switchboard.Entries

/-!
JSON values and their compact text.

The text has no spaces.  Inside strings only quotes, backslashes and control characters are
escaped; every other character stands for itself.  Objects are written in the order of their
entries.
-/

namespace Switchboard

/-- A JSON value.  Numbers are integers or finite floats. -/
inductive Json where
  | null
  | boolean (b : Bool)
  | integer (n : Int)
  | real (x : Float)
  | string (text : String)
  | object (entries : List (String × Json))

namespace Json

/-- Lower-case hexadecimal digit. -/
def hexDigit (n : Nat) : Char :=
  Nat.digitChar n

/-- One character inside a string. -/
def escapeChar (c : Char) : List Char :=
  if c == '"' then ['\\', '"']
  else if c == '\\' then ['\\', '\\']
  else if c == '\x08' then ['\\', 'b']
  else if c == '\t' then ['\\', 't']
  else if c == '\n' then ['\\', 'n']
  else if c == '\x0c' then ['\\', 'f']
  else if c == '\r' then ['\\', 'r']
  else if c.toNat < 0x20 then
    ['\\', 'u', '0', '0', hexDigit (c.toNat / 16), hexDigit (c.toNat % 16)]
  else [c]

/-- A quoted string. -/
def quote (text : List Char) : List Char :=
  '"' :: (text.flatMap escapeChar ++ ['"'])

mutual

/-- The compact text of a value.  A float that has no JSON text is written as `null`. -/
def chars : Json → List Char
  | .null => "null".toList
  | .boolean b => (if b then "true" else "false").toList
  | .integer n => Decimal.integerText n
  | .real x => ((Decimal.jsonFloat? x).getD "null").toList
  | .string text => quote text.toList
  | .object entries => '\x7b' :: (entryChars entries ++ ['\x7d'])

/-- The entries of an object, separated by commas. -/
def entryChars : List (String × Json) → List Char
  | [] => []
  | [(name, value)] => quote name.toList ++ ':' :: chars value
  | (name, value) :: rest => quote name.toList ++ ':' :: (chars value ++ ',' :: entryChars rest)

end

/-- The compact text of a value. -/
def text (json : Json) : String :=
  String.ofList json.chars

example : (object [("k", .integer 1), ("a\n", .boolean true)]).text =
    "\x7b\"k\":1,\"a\\n\":true\x7d" := by decide +kernel

end Json

end Switchboard
