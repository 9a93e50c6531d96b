import Switchboard.World

/-!
Running native code in a world.

Every piece of native code is entered in the journal first, and what it does to the store is kept,
however it ends.
-/

namespace Switchboard

namespace World

/-- Report a fault of the call `name`. -/
def reportIn (world : World) (context : Context) (name : String) (fault : Fault) :
    Failure × World :=
  let failure := (context.fail fault).inFunction name
  (failure, world.report failure)

/-- Run a function. -/
def execute (world : World) (native : NativeFunction) (name : String) (context : Context)
    (arguments : List Value) : Answer (Option Value) × Context × World :=
  let world := world.note (.executed name arguments)
  let run := native.run world.store context arguments
  (run.answer, run.context, world.withStore run.store)

/-- Let an action check its arguments. -/
def validate (world : World) (native : Action) (name : String) (arguments : List Value) :
    Answer Unit × World :=
  let world := world.note (.validated name arguments)
  let step := native.validate world.store arguments
  (step.answer, world.withStore step.store)

/-- Let an action prepare its request, and add the properties of the connector to it. -/
def prepare (world : World) (native : Action) (name : String) (connector : Connector)
    (context : Context) (arguments : List Value) : Answer Request × World :=
  let world := world.note (.prepared name arguments)
  let step := native.prepare world.store context arguments
  let answer := step.answer.map fun request =>
    { request with properties := mergeProperties connector.properties request.properties }
  (answer, world.withStore step.store)

/-- Let an action make a result of a reply. -/
def complete (world : World) (native : Action) (name : String) (reply : Reply) :
    Answer (Option Value) × World :=
  let world := world.note (.completed name reply)
  let step := native.complete world.store reply
  (step.answer, world.withStore step.store)

/-- The result of an action whose send has ended. -/
def conclude (world : World) (native : Action) (name : String) :
    SendEnd → Answer (Option Value) × World
  | .reply reply => world.complete native name reply
  | .fault fault => (.error (.failed (.connectorExecutionFailure name fault)), world)
  | .panicked => (.error .panicked, world)

end World

end Switchboard
