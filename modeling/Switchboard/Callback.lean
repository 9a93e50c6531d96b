import Switchboard.Engine
import Switchboard.Schedule

/-!
Calls with a callback.

Such a call takes its context along and gives it back through the callback, which is known by a
ticket.  What is wrong with a call before anything was sent is delivered at once.  Otherwise a task
is left over that has still to run: the body of a function, or a send.

The checks, the preparation and the sending are those of a call that waits.
-/

namespace Switchboard

/-- What starting a call with a callback leads to. -/
inductive Started where
  /-- The callback has fired. -/
  | delivered
  /-- A task was left behind that will make it fire. -/
  | spawned
  /-- Native code panicked in the caller, and the callback was lost. -/
  | panicked
deriving DecidableEq, Repr

namespace World

/-- Start the action of a checked call: let it validate and prepare, and leave the send to a
task. -/
def startAction (world : World) (limit : Millis) (ticket : Nat) (name : String)
    (descriptor : Descriptor) (native : Action) (connector : Connector) (arguments : List Value)
    (context : Context) : Started × World :=
  match world.validate native name arguments with
  | (.error (.failed fault), world) =>
      (.delivered, world.deliverFault ticket name context fault)
  | (.error .panicked, world) => (.panicked, world)
  | (.ok (), world) =>
      match world.prepare native name connector context arguments with
      | (.error (.failed fault), world) =>
          (.delivered, world.deliverFault ticket name context fault)
      | (.error .panicked, world) => (.panicked, world)
      | (.ok request, world) =>
          let (completion, world) := world.newCompletion name
          (.spawned, world.spawn ⟨ticket, name, descriptor, context.setCompletion completion,
            .sending native connector.family limit request⟩)

end World

namespace Engine

/-- Call `name` and let the callback of this ticket have the outcome. -/
def start (engine : Engine) (ticket : Nat) (name : String) (arguments : List Value)
    (context : Context) (world : World) : Started × World :=
  let world := world.note (.invoked .callback name arguments)
  match engine.registry.check .callback name arguments with
  | .error fault => (.delivered, world.deliverFault ticket name context fault)
  | .ok (descriptor, target) =>
      let world := world.emit (.ofDispatch name context.location?)
      match target with
      | .function native =>
          (.spawned, world.spawn ⟨ticket, name, descriptor, context, .body native arguments⟩)
      | .action native connector =>
          world.startAction engine.config.transportTimeout ticket name descriptor native connector
            arguments context

end Engine

end Switchboard
