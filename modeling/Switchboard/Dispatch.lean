import Switchboard.Engine
import Switchboard.Schedule

/-!
Calls that wait.

A call that is admitted is recorded, and then its implementation runs once.  Its result must be of
the declared type.  A fault leaves here as a failure: with the current location and the name of the
call, and reported.
-/

namespace Switchboard

namespace World

/-- Prepare, send, wait and conclude. -/
def perform (world : World) (limit : Millis) (native : Action) (name : String)
    (connector : Connector) (context : Context) (arguments : List Value) :
    Answer (Option Value) × World :=
  match world.prepare native name connector context arguments with
  | (.error halt, world) => (.error halt, world)
  | (.ok request, world) =>
      let (ending, world) := world.sendAndWait limit connector.family request
      world.conclude native name ending

/-- Run what a checked call runs, and wait for the answer. -/
def runTarget (world : World) (limit : Millis) (name : String) (context : Context)
    (arguments : List Value) : Target → Answer (Option Value) × Context × World
  | .function native => world.execute native name context arguments
  | .action native connector =>
      let (answer, world) := world.perform limit native name connector context arguments
      (answer, context, world)

end World

/-- A fault of the call `name`, reported. -/
def Outcome.failIn {A : Type} (name : String) (fault : Fault) (context : Context)
    (world : World) : Outcome A :=
  let (failure, world) := world.reportIn context name fault
  ⟨.error (.failed failure), context, world⟩

/-- What the call `name` comes to once its implementation has run. -/
def Descriptor.handOver (descriptor : Descriptor) (name : String)
    (answer : Answer (Option Value)) (context : Context) (world : World) :
    Outcome (Option Value) :=
  match answer with
  | .ok value =>
      match descriptor.checkReturn value with
      | .ok value => ⟨.ok value, context, world⟩
      | .error fault => .failIn name fault context world
  | .error (.failed fault) => .failIn name fault context world
  | .error .panicked => ⟨.error .panicked, context, world⟩

namespace Engine

/-- Call `name` and wait for the result. -/
def invoke (engine : Engine) (name : String) (arguments : List Value) (context : Context)
    (world : World) : Outcome (Option Value) :=
  let world := world.note (.invoked .blocking name arguments)
  match engine.registry.check .blocking name arguments with
  | .error fault => .failIn name fault context world
  | .ok (descriptor, target) =>
      let world := world.emit (.ofDispatch name context.location?)
      let (answer, context, world) :=
        world.runTarget engine.config.transportTimeout name context arguments target
      descriptor.handOver name answer context world

end Engine

end Switchboard
