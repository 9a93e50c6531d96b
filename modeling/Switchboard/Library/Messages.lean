import Switchboard.Library.Basic

/-!
`lang.message`: headers and payloads.

Every function but `fromString` works on the message that is its first argument, and on no other.
-/

namespace Switchboard.Library.Messages

def package : String := "lang.message"

/-- Remove a header.  It need not be there. -/
def removeHeader : LibraryBody := fun store arguments => do
  let id ← Arguments.message arguments 0
  let key ← Arguments.string arguments 1
  return (none, store.update id fun message => message.removeHeader key)

/-- Set a header, unless the message has one of this name. -/
def addHeader : LibraryBody := fun store arguments => do
  let id ← Arguments.message arguments 0
  let key ← Arguments.string arguments 1
  match (store.read id).header? key with
  | some _ => return (none, store)
  | none =>
      let value ← Arguments.string arguments 2
      return (none, store.update id fun message => message.setHeader key value)

/-- Set a header. -/
def setHeader : LibraryBody := fun store arguments => do
  let id ← Arguments.message arguments 0
  let key ← Arguments.string arguments 1
  let value ← Arguments.string arguments 2
  return (none, store.update id fun message => message.setHeader key value)

/-- The value of a header, which is empty when the message has none of this name. -/
def getHeader : LibraryBody := fun store arguments => do
  let id ← Arguments.message arguments 0
  let key ← Arguments.string arguments 1
  return (some (.string (((store.read id).header? key).getD "")), store)

/-- The payload as it is displayed, which is empty when there is none. -/
def getStringPayload : LibraryBody := fun store arguments => do
  let id ← Arguments.message arguments 0
  return (some (.string (((store.read id).payload.map Value.text).getD "")), store)

/-- Replace the payload. -/
def setPayload : LibraryBody := fun store arguments => do
  let id ← Arguments.message arguments 0
  let payload ← Arguments.value arguments 1
  return (none, store.update id fun message => message.setPayload payload)

/-- A new message around a payload. -/
def fromString : LibraryBody := fun store arguments => do
  let payload ← Arguments.value arguments 0
  let (id, store) := store.create (.ofPayload payload)
  return (some (.message id), store)

/-- The functions of the package. -/
def contributions : List Contribution :=
  [removeHeader.contribution package "removeHeader"
      [("message", "message"), ("key", "string")] none,
    addHeader.contribution package "addHeader"
      [("message", "message"), ("key", "string"), ("value", "string")] none,
    setHeader.contribution package "setHeader"
      [("message", "message"), ("key", "string"), ("value", "string")] none,
    getHeader.contribution package "getHeader"
      [("message", "message"), ("key", "string")] (some "string"),
    getStringPayload.contribution package "getStringPayload"
      [("message", "message")] (some "string"),
    setPayload.contribution package "setStringPayload"
      [("message", "message"), ("payload", "string")] none,
    setPayload.contribution package "setMapPayload"
      [("message", "message"), ("payload", "map")] none,
    fromString.contribution package "fromString" [("payload", "string")] (some "message")]

end Switchboard.Library.Messages
