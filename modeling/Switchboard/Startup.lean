import Switchboard.Engine
import Switchboard.Library

/-!
Putting an engine together.

A blueprint is checked part by part: the configuration, the contributions, the transports, the
connectors.  The first fault ends it.  The library is always contributed first.
-/

namespace Switchboard

/-- What an engine is made of, apart from the library. -/
structure Blueprint where
  config : Config
  contributions : List Contribution
  transports : List Transport

namespace World

/-- Add transports in turn, up to the first whose family is served already. -/
def registerTransports (world : World) : List Transport → Except EngineFault World
  | [] => .ok world
  | transport :: rest => do
      let world ← world.registerTransport transport
      world.registerTransports rest

end World

namespace Blueprint

/-- A blueprint without contributions and transports of its own. -/
def ofConfig (config : Config) : Blueprint :=
  ⟨config, [], []⟩

/-- The world in which the transports are registered and the configured connectors declared. -/
def furnish (blueprint : Blueprint) : Except EngineFault World := do
  let start := World.start (.ofSlots blueprint.config.diagnosticsBufferSize)
  let world ← start.registerTransports blueprint.transports
  match world.declareAll blueprint.config.connectors.entries with
  | (.ok (), world) => .ok world
  | (.error fault, _) => .error fault

/-- The parts that stay fixed, and the world at the start. -/
def check (blueprint : Blueprint) : Except Error (Engine × World) := do
  blueprint.config.validate.mapError Error.config
  let registry ← (Registry.build (Library.contributions ++ blueprint.contributions)).mapError
    Error.registry
  let world ← blueprint.furnish.mapError Error.engine
  .ok (⟨blueprint.config, registry, .standard⟩, world)

/-- The engine of a blueprint.  A blueprint that passes every check panics when the diagnostics
buffer cannot be had. -/
def build (blueprint : Blueprint) : Except (Halt Error) (Engine × World) :=
  match blueprint.check with
  | .error error => .error (.failed error)
  | .ok parts =>
      if Broadcast.fits blueprint.config.diagnosticsBufferSize then .ok parts
      else .error .panicked

end Blueprint

end Switchboard
