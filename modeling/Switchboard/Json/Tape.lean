import Switchboard.Decimal.Layout
import Switchboard.Text.Blank

/-!
The smallest parts of a JSON text: separators, words, numbers and strings.

A text is read from the front, once, and the first thing that is wrong decides what is said about
it.  A reader takes what it wants from the front of a `Tape` and gives back the rest.  Parts that
nobody asked for are skipped by rules that are a little laxer: a skipped string need not be valid
Unicode, a skipped number may be of any size, and one that is cut short is malformed even where the
text ends.
-/

namespace Switchboard.Json

/-- Why a text cannot be read as what is wanted. -/
inductive ReadFault where
  /-- It is no JSON. -/
  | malformed
  /-- It ends too early. -/
  | endsEarly
  /-- It holds another type than wanted, or the wrong fields. -/
  | wrongData
deriving DecidableEq, Repr

/-- The characters still to be read.  A byte that belongs to no character is an empty place. -/
abbrev Tape := List (Option Char)

/-- What is read, or why it cannot be read. -/
abbrev Readable := Except ReadFault

namespace Tape

/-- All characters of a text. -/
def ofText (text : String) : Tape :=
  text.toList.map some

/-- The text of these characters, unless there is an empty place. -/
def text? (tape : Tape) : Option String :=
  (tape.mapM id).map String.ofList

/-- Drop separators. -/
def skipBlank (tape : Tape) : Tape :=
  tape.dropWhile fun place => place.any Text.isSeparator

/-- Read the rest of a word. -/
def readWord : List Char → Tape → Readable Tape
  | [], tape => .ok tape
  | _ :: _, [] => .error .endsEarly
  | c :: word, place :: tape =>
      if place = some c then readWord word tape else .error .malformed

end Tape

/-! ## Numbers -/

/-- A decimal digit. -/
def digit? (place : Option Char) : Option Nat :=
  match place with
  | some c => if c.isDigit then some (c.toNat - '0'.toNat) else none
  | none => none

/-- The digits at the front. -/
def spanDigits : Tape → List Nat × Tape
  | [] => ([], [])
  | place :: tape =>
      match digit? place with
      | some digit => ((digit :: (spanDigits tape).1), (spanDigits tape).2)
      | none => ([], place :: tape)

/-- The parts of a number. -/
structure NumberText where
  negative : Bool
  whole : List Nat
  /-- The digits behind the point. -/
  fraction : Option (List Nat)
  /-- Whether the exponent is negative, and its digits. -/
  exponent : Option (Bool × List Nat)
deriving DecidableEq

/-- At least one digit.  `atEnd` is the fault of a text that ends before it. -/
def readDigits (atEnd : ReadFault) (tape : Tape) : Readable (List Nat × Tape) :=
  match spanDigits tape, tape with
  | ([], _), [] => .error atEnd
  | ([], _), _ :: _ => .error .malformed
  | found, _ => .ok found

/-- At least one digit, and no superfluous zero in front. -/
def readWhole (atEnd : ReadFault) (tape : Tape) : Readable (List Nat × Tape) :=
  match readDigits atEnd tape with
  | .ok (0 :: _ :: _, _) => .error .malformed
  | outcome => outcome

/-- The digits behind a point, if there is one. -/
def readFraction (atEnd : ReadFault) (tape : Tape) : Readable (Option (List Nat) × Tape) :=
  match tape with
  | some '.' :: rest => (readDigits atEnd rest).map fun (digits, rest) => (some digits, rest)
  | _ => .ok (none, tape)

/-- The sign and the digits of an exponent, if there is one. -/
def readExponent (atEnd : ReadFault) (tape : Tape) :
    Readable (Option (Bool × List Nat) × Tape) :=
  match tape with
  | some c :: rest =>
      if c = 'e' ∨ c = 'E' then
        let (negative, unsigned) :=
          match rest with
          | some '-' :: unsigned => (true, unsigned)
          | some '+' :: unsigned => (false, unsigned)
          | _ => (false, rest)
        (readDigits atEnd unsigned).map fun (digits, rest) => (some (negative, digits), rest)
      else .ok (none, tape)
  | _ => .ok (none, tape)

/-- A number: an optional minus sign, a whole part, and possibly a fraction and an exponent. -/
def readNumberText (atEnd : ReadFault) (tape : Tape) : Readable (NumberText × Tape) := do
  let (negative, tape) :=
    match tape with
    | some '-' :: rest => (true, rest)
    | _ => (false, tape)
  let (whole, tape) ← readWhole atEnd tape
  let (fraction, tape) ← readFraction atEnd tape
  let (exponent, tape) ← readExponent atEnd tape
  .ok (⟨negative, whole, fraction, exponent⟩, tape)

namespace NumberText

/-- The largest significand that is kept in full. -/
def significandLimit : Nat := Nat.pow 2 64 - 1

/-- The number that `digits` continue, as long as it stays within the limit, and the digits left
over. -/
def absorb : Nat → List Nat → Nat × List Nat
  | significand, [] => (significand, [])
  | significand, digit :: digits =>
      if significand * 10 + digit ≤ significandLimit then
        absorb (significand * 10 + digit) digits
      else (significand, digit :: digits)

/-- The value of a run of digits. -/
def valueOf (digits : List Nat) : Nat :=
  digits.foldl (fun value digit => value * 10 + digit) 0

/-- A significand within the limit and a power of ten, which make up the magnitude of a number.
Digits beyond the limit count only by their place. -/
def scaled (number : NumberText) : Nat × Int :=
  let (significand, beyond) := absorb 0 number.whole
  let fraction := number.fraction.getD []
  let (significand, unused) := absorb significand fraction
  let places : Int := (beyond.length : Int) - ((fraction.length - unused.length : Nat) : Int)
  let shift : Int :=
    match number.exponent with
    | some (true, digits) => -(valueOf digits : Int)
    | some (false, digits) => valueOf digits
    | none => 0
  (significand, places + shift)

/-- Whether a magnitude lies past the range of floats.  Only a power of ten can put it there, since
a significand is within the limit. -/
def isPastFloats (significand : Nat) (exponent : Int) : Bool :=
  significand != 0 && 0 < exponent &&
    (308 < exponent ||
      (Decimal.nearestFloat significand 0 * Decimal.nearestFloat 1 exponent).isInf)

/-- The natural number that is written without sign, fraction and exponent, if it is within the
limit. -/
def natural? (number : NumberText) : Option Nat :=
  match number.negative, absorb 0 number.whole, number.fraction, number.exponent with
  | false, (significand, []), none, none => some significand
  | _, _, _, _ => none

end NumberText

/-- A number whose magnitude is within the range of floats. -/
def readNumber (tape : Tape) : Readable (NumberText × Tape) := do
  let (number, tape) ← readNumberText .endsEarly tape
  let (significand, exponent) := number.scaled
  if NumberText.isPastFloats significand exponent then .error .malformed
  else .ok (number, tape)

/-- Skip a number of any size. -/
def skipNumber (tape : Tape) : Readable Tape :=
  (readNumberText .malformed tape).map Prod.snd

/-! ## Strings -/

/-- Where a reader stands within a string. -/
inductive StringState where
  /-- Between characters. -/
  | plain
  /-- Behind a backslash. -/
  | escape
  /-- Within the four hexadecimal digits of an escape: how many bytes are to come, the number so
  far unless a digit was wrong, and the high surrogate that came before, if there was one. -/
  | digits (left : Nat) (number : Option Nat) (high : Option Nat)
  /-- Behind a high surrogate, where a backslash and a `u` have to follow. -/
  | highBackslash (high : Nat)
  | highLetter (high : Nat)
deriving DecidableEq, Repr

/-- What one place of the tape does within a string. -/
inductive StringStep where
  | closed
  | on (state : StringState) (found : Option (Option Char))
deriving DecidableEq, Repr

/-- The value of a hexadecimal digit. -/
def hexValue? (c : Char) : Option Nat :=
  if c.isDigit then some (c.toNat - '0'.toNat)
  else if 'a' ≤ c ∧ c ≤ 'f' then some (c.toNat - 'a'.toNat + 10)
  else if 'A' ≤ c ∧ c ≤ 'F' then some (c.toNat - 'A'.toNat + 10)
  else none

/-- The character of a one-letter escape. -/
def escaped? (c : Char) : Option Char :=
  match c with
  | '"' => some '"'
  | '\\' => some '\\'
  | '/' => some '/'
  | 'b' => some '\x08'
  | 'f' => some '\x0c'
  | 'n' => some '\n'
  | 'r' => some '\r'
  | 't' => some '\t'
  | _ => none

namespace StringState

/-- Go on behind a complete number.  Where the string is checked, surrogates come in pairs. -/
def afterNumber (checked : Bool) (number : Nat) : Option Nat → Readable StringStep
  | none =>
      if !checked then .ok (.on .plain (some none))
      else if 0xd800 ≤ number ∧ number ≤ 0xdbff then .ok (.on (.highBackslash number) none)
      else if 0xdc00 ≤ number ∧ number ≤ 0xdfff then .error .malformed
      else .ok (.on .plain (some (some (Char.ofNat number))))
  | some high =>
      if 0xdc00 ≤ number ∧ number ≤ 0xdfff then
        let c := Char.ofNat ((high - 0xd800) * 0x400 + (number - 0xdc00) + 0x10000)
        .ok (.on .plain (some (some c)))
      else .error .malformed

/-- Read one place. -/
def step (checked : Bool) (state : StringState) (place : Option Char) : Readable StringStep :=
  match state, place with
  | .plain, none => .ok (.on .plain (some none))
  | .plain, some c =>
      if c = '"' then .ok .closed
      else if c = '\\' then .ok (.on .escape none)
      else if c.toNat < 0x20 then .error .malformed
      else .ok (.on .plain (some (some c)))
  | .escape, none => .error .malformed
  | .escape, some c =>
      if c = 'u' then .ok (.on (.digits 4 (some 0) none) none)
      else
        match escaped? c with
        | some c => .ok (.on .plain (some (some c)))
        | none => .error .malformed
  | .digits left number high, place =>
      let size := (place.map Char.utf8Size).getD 1
      let number := do
        let number ← number
        let digit ← place.bind hexValue?
        some (number * 16 + digit)
      if size < left then .ok (.on (.digits (left - size) number high) none)
      else
        match number with
        | some number => afterNumber checked number high
        | none => .error .malformed
  | .highBackslash high, place =>
      if place = some '\\' then .ok (.on (.highLetter high) none) else .error .malformed
  | .highLetter high, place =>
      if place = some 'u' then .ok (.on (.digits 4 (some 0) (some high)) none)
      else .error .malformed

end StringState

/-- The contents of a string up to its closing quote. -/
def stringContents (checked : Bool) : StringState → Tape → Readable (Tape × Tape)
  | _, [] => .error .endsEarly
  | state, place :: tape =>
      match state.step checked place with
      | .error fault => .error fault
      | .ok .closed => .ok ([], tape)
      | .ok (.on state found) =>
          (stringContents checked state tape).map fun (contents, rest) =>
            (found.toList ++ contents, rest)

/-- A string behind its opening quote. -/
def readQuoted (tape : Tape) : Readable (String × Tape) := do
  let (contents, tape) ← stringContents true .plain tape
  match contents.text? with
  | some text => .ok (text, tape)
  | none => .error .malformed

/-- Skip a string behind its opening quote. -/
def skipQuoted (tape : Tape) : Readable Tape :=
  (stringContents false .plain tape).map Prod.snd

end Switchboard.Json
