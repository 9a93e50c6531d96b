import Switchboard.Config.Reader
import Switchboard.Evaluation
import Switchboard.Shutdown
import Switchboard.Startup

/-!
The command line.

A command runs on an engine of its own, with a loopback transport in place of a broker, and the
transports are shut down at its end.  What it writes and how it exits is a function of the
configuration and the command.
-/

namespace Switchboard.CommandLine

/-- What can be asked for. -/
inductive Command where
  /-- The signatures of everything registered and the declared connectors. -/
  | list
  /-- The value of an expression. -/
  | eval (source : String)
deriving DecidableEq, Repr

/-- What was written where, and the exit code. -/
structure Report where
  code : UInt8
  out : String
  err : String
deriving DecidableEq, Repr

/-- The name that locations give to the expression of a command. -/
def sourceName : String := "<cli>"

/-- Lines with their ends. -/
def unlines (lines : List String) : String :=
  String.join (lines.map fun line => line ++ "\n")

/-- The lines of a list: signatures by name, then connectors by name. -/
def listing (engine : Engine) (world : World) : List String :=
  engine.registry.descriptors.map Descriptor.signature ++
    world.connectorsByName.map fun connector =>
      s!"connector {connector.name} ({connector.family})"

/-- The displayed value of an expression in a fresh context. -/
def displayed (engine : Engine) (source : String) (world : World) :
    Except (Halt Error) String × World :=
  let (context, world) := world.newContext
  match engine.evaluateText source sourceName context world with
  | .error error => (.error (.failed (.parse error)), world)
  | .ok outcome =>
      let result :=
        match outcome.result with
        | .ok value => .ok value.text
        | .error (.failed failure) => .error (.failed (.failure failure))
        | .error .panicked => .error .panicked
      (result, outcome.world)

/-- The lines of a command. -/
def answer (engine : Engine) (world : World) :
    Command → Except (Halt Error) (List String) × World
  | .list => (.ok (listing engine world), world)
  | .eval source =>
      let (result, world) := displayed engine source world
      (result.map fun text => [text], world)

/-- The report of a command that did not come to its end. -/
def halted (out : String) : Halt Error → Report
  | .failed error => ⟨1, out, s!"Error: {error.text}\n"⟩
  | .panicked => ⟨101, out, "panicked\n"⟩

/-- Run a command under a configuration. -/
def runWith (config : Config) (command : Command) : Report :=
  let broker : Transport := .loopback (.ofProtocol Jms.family)
  match Blueprint.build ⟨config, [], [broker]⟩ with
  | .error halt => halted "" halt
  | .ok (engine, world) =>
      match answer engine world command with
      | (.error halt, _) => halted "" halt
      | (.ok lines, world) =>
          match (world.shutdown engine.config.shutdownTimeout).1 with
          | .ok () => ⟨0, unlines lines, ""⟩
          | .error fault => halted (unlines lines) (.failed (.engine fault))

/-- The configuration for a command: the one in the file, or the default one where there is no
file. -/
def configure (path : String) : File.Content → Except ConfigFault Config
  | .nothing => .ok .default
  | found => Config.ofFile path found

/-- Run a command under the configuration in what was found under a path, or say why there is
none. -/
def run (path : String) (found : File.Content) (command : Command) : Report :=
  match configure path found with
  | .error fault => halted "" (.failed (.config fault))
  | .ok config => runWith config command

end Switchboard.CommandLine
