import Switchboard.Json
import Switchboard.Transport.Fault

/-!
The configuration of an engine.

A configuration bounds the diagnostics buffer and the time that sends and shutdowns may take, and
declares connectors in order.  It is acceptable when the buffer has room and every connector has a
name and a family.
-/

namespace Switchboard

/-- A declared connector. -/
structure ConnectorConfig where
  family : String
  properties : Dict String
deriving DecidableEq

/-- The settings of an engine. -/
structure Config where
  diagnosticsBufferSize : Nat
  transportTimeout : Millis
  shutdownTimeout : Millis
  connectors : Dict ConnectorConfig
deriving DecidableEq

/-- Why there is no usable configuration. -/
inductive ConfigFault where
  /-- The file cannot be opened. -/
  | unopened (path : String)
  /-- The text is no JSON, ends too early, has parts of a wrong type, or cannot be read. -/
  | malformedText
  | endsTooEarly
  | wrongData
  | unreadable
  | emptyBuffer
  | namelessConnector
  | connectorWithoutFamily (name : String)
deriving DecidableEq, Repr

namespace ConfigFault

/-- The wording of a fault. -/
def message : ConfigFault → String
  | unopened path => s!"failed to open config file {path}"
  | malformedText => "failed to parse config: malformed text"
  | endsTooEarly => "failed to parse config: unexpected end of text"
  | wrongData => "failed to parse config: wrong data"
  | unreadable => "failed to parse config: unreadable"
  | emptyBuffer => "invalid config: diagnostics_buffer_size must be positive"
  | namelessConnector => "invalid config: connector name is empty"
  | connectorWithoutFamily name => s!"invalid config: connector '{name}' has no family"

end ConfigFault

namespace ConnectorConfig

def ofFamily (family : String) : ConnectorConfig := ⟨family, Dict.empty⟩

def withProperty (connector : ConnectorConfig) (name value : String) : ConnectorConfig :=
  { connector with properties := connector.properties.bind name value }

/-- The JSON form: the family, then the properties. -/
def toJson (connector : ConnectorConfig) : Json :=
  .object [("family", .string connector.family),
    ("properties",
      .object (connector.properties.entries.map fun (name, value) => (name, .string value)))]

end ConnectorConfig

namespace Config

/-- A buffer of 256 records, half a minute for a send, five seconds for a shutdown, and no
connector. -/
def default : Config := ⟨256, 30000, 5000, Dict.empty⟩

def withConnector (config : Config) (name : String) (connector : ConnectorConfig) : Config :=
  { config with connectors := config.connectors.bind name connector }

/-- The first fault among these connectors. -/
def checkConnectors : Entries ConnectorConfig → Except ConfigFault Unit
  | [] => .ok ()
  | (name, connector) :: rest =>
      if name.isEmpty then .error .namelessConnector
      else if connector.family.isEmpty then .error (.connectorWithoutFamily name)
      else checkConnectors rest

/-- Whether the configuration is acceptable, or its first fault. -/
def validate (config : Config) : Except ConfigFault Unit :=
  if config.diagnosticsBufferSize = 0 then .error .emptyBuffer
  else checkConnectors config.connectors.entries

/-- The JSON form: the settings in order, times in milliseconds. -/
def toJson (config : Config) : Json :=
  .object [("diagnostics_buffer_size", .integer config.diagnosticsBufferSize),
    ("transport_timeout", .integer config.transportTimeout),
    ("shutdown_timeout", .integer config.shutdownTimeout),
    ("connectors",
      .object (config.connectors.entries.map fun (name, connector) =>
        (name, connector.toJson)))]

/-- The written form of a configuration. -/
def text (config : Config) : String :=
  config.toJson.text

end Config

end Switchboard
