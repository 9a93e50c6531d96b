import Switchboard.Config
import Switchboard.File
import Switchboard.Json.Reader
import Switchboard.Json.Skip
import Switchboard.Text.Utf8

/-!
Reading a configuration from JSON text.

Settings and connectors are written as objects or, without names, as arrays of their fields in
order.  In either form what is missing takes its default, except the family of a connector.
In an object unknown names are skipped, and a known name may stand only once.

A configuration that reads well must still be acceptable.
-/

namespace Switchboard

open Json

/-- Keep the value of a field, which must not have one yet. -/
def readField {A : Type} (value : Tape → Readable (A × Tape)) (known : Option A) (tape : Tape) :
    Readable (Option A × Tape) :=
  match known with
  | some _ => .error .wrongData
  | none => do
      let tape ← readColon tape
      let (found, tape) ← value tape
      .ok (some found, tape)

/-- Skip the value of a field that is not known. -/
def skipField (tape : Tape) : Readable Tape := do
  let tape ← readColon tape
  skipValue tape

namespace ConnectorConfig

/-- The fields of a connector that have been read. -/
structure Draft where
  family : Option String
  properties : Option (Dict String)

/-- The connector, once its family is known. -/
def Draft.finish (draft : Draft) : Readable ConnectorConfig :=
  match draft.family with
  | some family => .ok ⟨family, draft.properties.getD Dict.empty⟩
  | none => .error .wrongData

/-- Read what stands behind a field's name. -/
def Draft.readEntry (draft : Draft) (name : String) (tape : Tape) : Readable (Draft × Tape) :=
  if name = "family" then
    (readField readString draft.family tape).map fun (family, rest) =>
      (⟨family, draft.properties⟩, rest)
  else if name = "properties" then
    (readField (readDict readString) draft.properties tape).map fun (properties, rest) =>
      (⟨draft.family, properties⟩, rest)
  else (skipField tape).map fun rest => (draft, rest)

/-- A connector, as an object or as an array. -/
def read (tape : Tape) : Readable (ConnectorConfig × Tape) :=
  match Tape.skipBlank tape with
  | some '\x7b' :: rest => do
      let (draft, rest) ← readEntries Draft.readEntry ⟨none, none⟩ rest
      let connector ← draft.finish
      .ok (connector, rest)
  | some '[' :: rest => do
      let (family, rest) ← readElement true readString rest
      let (properties, rest) ← readElement false (readDict readString) rest
      let connector ← Draft.finish ⟨family, properties⟩
      let rest ← closeArray rest
      .ok (connector, rest)
  | rest => .error (mistyped rest)

end ConnectorConfig

namespace Config

/-- The settings that have been read. -/
structure Draft where
  diagnosticsBufferSize : Option Nat
  transportTimeout : Option Millis
  shutdownTimeout : Option Millis
  connectors : Option (Dict ConnectorConfig)

/-- The configuration, with defaults for what was not given. -/
def Draft.finish (draft : Draft) : Config where
  diagnosticsBufferSize := draft.diagnosticsBufferSize.getD default.diagnosticsBufferSize
  transportTimeout := draft.transportTimeout.getD default.transportTimeout
  shutdownTimeout := draft.shutdownTimeout.getD default.shutdownTimeout
  connectors := draft.connectors.getD default.connectors

/-- Read what stands behind a setting's name. -/
def Draft.readEntry (draft : Draft) (name : String) (tape : Tape) : Readable (Draft × Tape) :=
  if name = "diagnostics_buffer_size" then
    (readField readNatural draft.diagnosticsBufferSize tape).map fun (size, rest) =>
      ({ draft with diagnosticsBufferSize := size }, rest)
  else if name = "transport_timeout" then
    (readField readNatural draft.transportTimeout tape).map fun (limit, rest) =>
      ({ draft with transportTimeout := limit }, rest)
  else if name = "shutdown_timeout" then
    (readField readNatural draft.shutdownTimeout tape).map fun (limit, rest) =>
      ({ draft with shutdownTimeout := limit }, rest)
  else if name = "connectors" then
    (readField (readDict ConnectorConfig.read) draft.connectors tape).map
      fun (connectors, rest) => ({ draft with connectors := connectors }, rest)
  else (skipField tape).map fun rest => (draft, rest)

/-- A configuration, as an object or as an array. -/
def read (tape : Tape) : Readable (Config × Tape) :=
  match Tape.skipBlank tape with
  | some '\x7b' :: rest =>
      (readEntries Draft.readEntry ⟨none, none, none, none⟩ rest).map fun (draft, rest) =>
        (draft.finish, rest)
  | some '[' :: rest => do
      let (size, rest) ← readElement true readNatural rest
      let (sending, rest) ← readElement false readNatural rest
      let (closing, rest) ← readElement false readNatural rest
      let (connectors, rest) ← readElement false (readDict ConnectorConfig.read) rest
      let rest ← closeArray rest
      .ok (Draft.finish ⟨size, sending, closing, connectors⟩, rest)
  | rest => .error (mistyped rest)

/-- The configuration that a whole text holds. -/
def readWhole (tape : Tape) : Readable Config := do
  let (config, rest) ← read tape
  readEnd rest
  .ok config

/-- The acceptable configuration that a whole text holds. -/
def ofTape (tape : Tape) : Except ConfigFault Config :=
  match readWhole tape with
  | .error .malformed => .error .malformedText
  | .error .endsEarly => .error .endsTooEarly
  | .error .wrongData => .error .wrongData
  | .ok config => config.validate.map fun _ => config

/-- The configuration written in a text. -/
def ofText (text : String) : Except ConfigFault Config :=
  ofTape (Tape.ofText text)

/-- The configuration written in the bytes of a file. -/
def ofBytes (bytes : List UInt8) : Except ConfigFault Config :=
  ofTape (Text.decode bytes)

/-- The configuration in what was found under a path. -/
def ofFile (path : String) : File.Content → Except ConfigFault Config
  | .nothing => .error (.unopened path)
  | .sealed => .error (.unopened path)
  | .directory => .error .unreadable
  | .bytes data => ofBytes data

example : (ofText "[1, 2]").toOption = some ⟨1, 2, 5000, Dict.empty⟩ := by decide +kernel

example : (ofText "\x7b\"transport_timeout\": 01\x7d").toOption = none := by decide +kernel

end Config

end Switchboard
