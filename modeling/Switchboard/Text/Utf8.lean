/-!
Characters in a run of bytes.

A file holds bytes, and they need not all belong to characters.  Decoding gives the characters in
order, and keeps the place of every byte that belongs to none, so that a reader can still tell what
comes before it.
-/

namespace Switchboard.Text

/-- The character that these bytes begin with. -/
def leading? (bytes : List UInt8) : Option Char :=
  (bytes.take 4).toByteArray.utf8DecodeChar? 0

/-- The characters behind the next `skipped` bytes. -/
def decodeAfter : Nat → List UInt8 → List (Option Char)
  | _, [] => []
  | skipped + 1, _ :: rest => decodeAfter skipped rest
  | 0, byte :: rest =>
      match leading? (byte :: rest) with
      | some c => some c :: decodeAfter (c.utf8Size - 1) rest
      | none => none :: decodeAfter 0 rest

/-- The characters of these bytes, with nothing in the place of a byte that belongs to none. -/
def decode (bytes : List UInt8) : List (Option Char) :=
  decodeAfter 0 bytes

example : decode [0x41, 0xe2, 0x82, 0xac, 0x22] = [some 'A', some '€', some '"'] := by
  decide +kernel

example : decode [0xe2, 0x82, 0x22, 0xff] = [none, none, some '"', none] := by decide +kernel

end Switchboard.Text
