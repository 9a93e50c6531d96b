import Switchboard.Flight
import Switchboard.Native

/-!
Tasks: what is left to do of calls with a callback.

A task is spawned by its caller and runs while somebody waits.  It takes one step when it starts
and, if its send is in flight by then, a second one when the flight lands; the last step makes the
callback fire.  Until then it keeps the context that the call took along.
-/

namespace Switchboard

/-- What a task has still to do. -/
inductive Work where
  | body (native : NativeFunction) (arguments : List Value)
  | sending (native : Action) (family : String) (limit : Millis) (request : Request)
  | flying (native : Action) (flight : Flight)

/-- A call that will be delivered later. -/
structure Task where
  ticket : Nat
  name : String
  descriptor : Descriptor
  context : Context
  work : Work

namespace Task

/-- When a task has to be looked at again: at once, unless it is in flight. -/
def due (task : Task) (now : Millis) : Millis :=
  match task.work with
  | .flying _ flight => flight.due
  | _ => now

/-- The earliest moment at which one of the tasks is due. -/
def earliest (now : Millis) : List Task → Option Millis
  | [] => none
  | task :: rest =>
      match earliest now rest with
      | some time => some (min (task.due now) time)
      | none => some (task.due now)

end Task

end Switchboard
