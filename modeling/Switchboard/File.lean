/-!
What a path leads to.

Reading a file starts with what is found under its path: nothing, something that cannot be opened,
a directory, or a run of bytes.
-/

namespace Switchboard.File

/-- What is found under a path. -/
inductive Content where
  | nothing
  | sealed
  | directory
  | bytes (data : List UInt8)
deriving DecidableEq, Repr

end Switchboard.File
