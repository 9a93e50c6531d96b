import Switchboard.Entries
import Switchboard.Json.Tape

/-!
Reading JSON values of a known type.

A value of another type is wrong data, but only once it is clear that it is a value at all: a
scalar is read to its end first, an array or an object only to its opening bracket.  The entries of
an object and the elements of an array are read one by one by whoever knows their types.
-/

namespace Switchboard.Json

/-- Wrong data, once the rest of a part has been read. -/
def wrongAfter {A : Type} (part : Readable A) : ReadFault :=
  match part with
  | .ok _ => .wrongData
  | .error fault => fault

/-- The fault of the value that begins here, which is of another type than wanted. -/
def mistyped (tape : Tape) : ReadFault :=
  match tape with
  | [] => .endsEarly
  | none :: _ => .malformed
  | some c :: rest =>
      if c = 'n' then wrongAfter (Tape.readWord "ull".toList rest)
      else if c = 't' then wrongAfter (Tape.readWord "rue".toList rest)
      else if c = 'f' then wrongAfter (Tape.readWord "alse".toList rest)
      else if c = '"' then wrongAfter (readQuoted rest)
      else if c = '-' ∨ c.isDigit then wrongAfter (readNumber tape)
      else if c = '[' ∨ c = '\x7b' then .wrongData
      else .malformed

/-- A natural number below `2 ^ 64`. -/
def readNatural (tape : Tape) : Readable (Nat × Tape) :=
  let tape := Tape.skipBlank tape
  match tape with
  | some c :: _ =>
      if c = '-' ∨ c.isDigit then do
        let (number, rest) ← readNumber tape
        match number.natural? with
        | some n => .ok (n, rest)
        | none => .error .wrongData
      else .error (mistyped tape)
  | _ => .error (mistyped tape)

/-- A string. -/
def readString (tape : Tape) : Readable (String × Tape) :=
  match Tape.skipBlank tape with
  | some '"' :: rest => readQuoted rest
  | rest => .error (mistyped rest)

/-- The colon behind a name. -/
def readColon (tape : Tape) : Readable Tape :=
  match Tape.skipBlank tape with
  | some ':' :: rest => .ok rest
  | _ :: _ => .error .malformed
  | [] => .error .endsEarly

/-- The name of the next entry of an object, or nothing behind the last one. -/
def nextName (isFirst : Bool) (tape : Tape) : Readable (Option String × Tape) :=
  match Tape.skipBlank tape with
  | [] => .error .endsEarly
  | some '\x7d' :: rest => .ok (none, rest)
  | some '"' :: rest =>
      if isFirst then (readQuoted rest).map fun (name, rest) => (some name, rest)
      else .error .malformed
  | some ',' :: rest =>
      if isFirst then .error .malformed
      else
        match Tape.skipBlank rest with
        | [] => .error .endsEarly
        | some '"' :: rest => (readQuoted rest).map fun (name, rest) => (some name, rest)
        | _ :: _ => .error .malformed
  | _ :: _ => .error .malformed

/-- Fold the entries of an object.  What stands behind each name, from its colon on, is left to
`entry`. -/
def foldEntries {S : Type} (entry : S → String → Tape → Readable (S × Tape)) :
    Nat → Bool → S → Tape → Readable (S × Tape)
  | 0, _, _, _ => .error .endsEarly
  | fuel + 1, isFirst, state, tape =>
      match nextName isFirst tape with
      | .error fault => .error fault
      | .ok (none, rest) => .ok (state, rest)
      | .ok (some name, rest) =>
          match entry state name rest with
          | .error fault => .error fault
          | .ok (state, rest) => foldEntries entry fuel false state rest

/-- Fold the entries of an object behind its opening brace. -/
def readEntries {S : Type} (entry : S → String → Tape → Readable (S × Tape)) (start : S)
    (tape : Tape) : Readable (S × Tape) :=
  foldEntries entry (tape.length + 1) true start tape

/-- An object whose values are all of one type.  A repeated name keeps its first place and takes
the last value. -/
def readDict {A : Type} (value : Tape → Readable (A × Tape)) (tape : Tape) :
    Readable (Dict A × Tape) :=
  match Tape.skipBlank tape with
  | some '\x7b' :: rest =>
      readEntries (fun dict name rest => do
        let rest ← readColon rest
        let (found, rest) ← value rest
        .ok (dict.bind name found, rest)) Dict.empty rest
  | rest => .error (mistyped rest)

/-- The next element of an array, or nothing when the closing bracket comes first. -/
def readElement {A : Type} (isFirst : Bool) (value : Tape → Readable (A × Tape))
    (tape : Tape) : Readable (Option A × Tape) :=
  let present (tape : Tape) : Readable (Option A × Tape) :=
    (value tape).map fun (found, rest) => (some found, rest)
  let tape := Tape.skipBlank tape
  match tape with
  | [] => .error .endsEarly
  | some ']' :: _ => .ok (none, tape)
  | place :: rest =>
      if isFirst then present tape
      else if place = some ',' then
        match Tape.skipBlank rest with
        | [] => .error .endsEarly
        | some ']' :: _ => .error .malformed
        | rest => present rest
      else .error .malformed

/-- The closing bracket of an array that must not have any more elements. -/
def closeArray (tape : Tape) : Readable Tape :=
  match Tape.skipBlank tape with
  | [] => .error .endsEarly
  | some ']' :: rest => .ok rest
  | _ :: _ => .error .malformed

/-- The end of the text. -/
def readEnd (tape : Tape) : Readable Unit :=
  if (Tape.skipBlank tape).isEmpty then .ok () else .error .malformed

end Switchboard.Json
