import Switchboard.Json.Tape

/-!
Skipping a JSON value that nobody asked for.
-/

namespace Switchboard.Json

/-- What values can be nested in. -/
inductive Container where
  | array
  | object
deriving DecidableEq, Repr

def Container.closing : Container → Char
  | .array => ']'
  | .object => '\x7d'

/-- Skip a value without parts. -/
def skipScalar (tape : Tape) : Readable Tape :=
  match tape with
  | [] => .error .endsEarly
  | none :: _ => .error .malformed
  | some c :: rest =>
      if c = 'n' then Tape.readWord "ull".toList rest
      else if c = 't' then Tape.readWord "rue".toList rest
      else if c = 'f' then Tape.readWord "alse".toList rest
      else if c = '"' then skipQuoted rest
      else if c = '-' ∨ c.isDigit then skipNumber tape
      else .error .malformed

/-- Skip the name of an entry and the colon behind it. -/
def skipName (tape : Tape) : Readable Tape :=
  match Tape.skipBlank tape with
  | some '"' :: rest =>
      match skipQuoted rest with
      | .error fault => .error fault
      | .ok rest =>
          match Tape.skipBlank rest with
          | some ':' :: rest => .ok rest
          | _ :: _ => .error .malformed
          | [] => .error .endsEarly
  | _ :: _ => .error .malformed
  | [] => .error .endsEarly

mutual

/-- Skip a value; `fuel` bounds the number of values and items entered. -/
def skipValueWithin : Nat → Tape → Readable Tape
  | 0, _ => .error .endsEarly
  | fuel + 1, tape =>
      match Tape.skipBlank tape with
      | some '[' :: rest =>
          match Tape.skipBlank rest with
          | some ']' :: rest => .ok rest
          | rest => skipItems fuel .array rest
      | some '\x7b' :: rest =>
          match Tape.skipBlank rest with
          | some '\x7d' :: rest => .ok rest
          | rest => skipItems fuel .object rest
      | rest => skipScalar rest

/-- Skip the items of a container, the first of which begins here, and its closing bracket. -/
def skipItems : Nat → Container → Tape → Readable Tape
  | 0, _, _ => .error .endsEarly
  | fuel + 1, container, tape => do
      let tape ←
        match container with
        | .array => .ok tape
        | .object => skipName tape
      let tape ← skipValueWithin fuel tape
      match Tape.skipBlank tape with
      | some ',' :: rest => skipItems fuel container rest
      | some c :: rest => if c = container.closing then .ok rest else .error .malformed
      | none :: _ => .error .malformed
      | [] => .error .endsEarly

end

/-- Skip a value.  Between two brackets or commas at most two steps are taken, so the length of the
tape bounds them. -/
def skipValue (tape : Tape) : Readable Tape :=
  skipValueWithin (2 * tape.length + 2) tape

example : (skipValue (Tape.ofText "[1, \x7b\"k\": []\x7d] x")).toOption.bind Tape.text? =
    some " x" := by decide +kernel

example : (skipValue (Tape.ofText "[1, 2")).isOk = false := by decide +kernel

example : (skipValue (Tape.ofText "[1,]")).isOk = false := by decide +kernel

end Switchboard.Json
