import Switchboard.Admission
import Switchboard.Execution
import Switchboard.Sending

/-!
Waiting, and what happens meanwhile.

Somebody who waits lets the tasks run.  In one turn every task that is due takes a step, in order.
Then the clock goes on to the next moment at which a task is due, and so on, until the time has
come that is waited for, or the callback has fired.  When the time has come, whoever waited for it
goes on first, and tasks that are due at that very moment stay for the next wait.

A panic in a task is a fault like any other.
-/

namespace Switchboard

/-- A panic counts as this fault. -/
def Answer.guard {A : Type} (answer : Answer A) (onPanic : Fault) : Checked A :=
  match answer with
  | .ok value => .ok value
  | .error (.failed fault) => .error fault
  | .error .panicked => .error onPanic

namespace World

/-- Deliver a fault of the call `name`, and report it. -/
def deliverFault (world : World) (ticket : Nat) (name : String) (context : Context)
    (fault : Fault) : World :=
  let (failure, world) := world.reportIn context name fault
  world.deliver ticket context (.error failure)

/-- Deliver what a task came to, once its type has been checked. -/
def settle (world : World) (task : Task) (context : Context)
    (result : Checked (Option Value)) : World :=
  match result with
  | .error fault => world.deliverFault task.ticket task.name context fault
  | .ok value =>
      match task.descriptor.checkReturn value with
      | .ok value => world.deliver task.ticket context (.ok value)
      | .error fault => world.deliverFault task.ticket task.name context fault

/-- Settle a task whose send has ended. -/
def settleSend (world : World) (task : Task) (native : Action) (ending : SendEnd) : World :=
  let (answer, world) := world.conclude native task.name ending
  world.settle task task.context
    (answer.guard (.connectorExecutionFailure task.name .panicked))

end World

/-- One step.  A task in flight waits until its flight is due. -/
def Task.step (task : Task) (world : World) : Option Task × World :=
  match task.work with
  | .body native arguments =>
      let (answer, context, world) := world.execute native task.name task.context arguments
      (none, world.settle task context (answer.guard (.native task.name "panicked")))
  | .sending native family limit request =>
      match world.launch limit family request with
      | (.settled ending, world) => (none, world.settleSend task native ending)
      | (.flying flight, world) => (some { task with work := .flying native flight }, world)
  | .flying native flight =>
      if flight.due ≤ world.now then
        let (ending, world) := world.land flight
        (none, world.settleSend task native ending)
      else (some task, world)

/-- Let these tasks take a step, in order.  What is left are the tasks in flight. -/
def Task.stepAll : List Task → World → List Task × World
  | [], world => ([], world)
  | task :: rest, world =>
      let (left, world) := task.step world
      let (others, world) := stepAll rest world
      (left.toList ++ others, world)

namespace World

/-- Every task takes a step. -/
def turn (world : World) : World :=
  let (tasks, world) := Task.stepAll world.tasks world
  { world with tasks }

/-- Turn after turn, with the clock at the next moment a task is due each time, as long as that
moment is still waited for.  Every turn after the first lands a flight, so there are at most
`fuel` of them when that is more than the number of tasks. -/
def runWhile (waiting : World → Millis → Bool) : Nat → World → World
  | 0, world => world
  | fuel + 1, world =>
      let world := world.turn
      match Task.earliest world.now world.tasks with
      | none => world
      | some time =>
          if waiting world time then runWhile waiting fuel (world.advanceTo time) else world

/-- Wait until `time`.  Who does not have to wait does not let anyone else run. -/
def waitUntil (world : World) (time : Millis) : World :=
  if world.now < time then
    (runWhile (fun _ next => next < time) (world.tasks.length + 1) world).advanceTo time
  else world

/-- Wait until the callback of this ticket has fired. -/
def await (world : World) (ticket : Nat) : World :=
  if (world.deliveriesOf ticket).isEmpty then
    runWhile (fun world _ => (world.deliveriesOf ticket).isEmpty) (world.tasks.length + 1) world
  else world

/-- Send a request and wait until it has ended. -/
def sendAndWait (world : World) (limit : Millis) (family : String) (request : Request) :
    SendEnd × World :=
  match world.launch limit family request with
  | (.settled ending, world) => (ending, world)
  | (.flying flight, world) => (world.waitUntil flight.due).land flight

end World

end Switchboard
