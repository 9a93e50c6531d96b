import Switchboard.Evaluation

/-!
A conversation with an engine.

A session has a current context and the variables that were set in it by hand.  A call that waits
borrows the current context.  A call with a callback takes it along: a fresh one, with the same
variables, takes its place until somebody waits for the callback and gets the context back from it.
-/

namespace Switchboard

/-- The state of a conversation. -/
structure Session where
  engine : Engine
  world : World
  context : Context
  /-- Variables that were set by hand. -/
  bindings : Entries Value
  nextTicket : Nat

/-- A callback that somebody may wait for, and whether a task was left to make it fire. -/
structure Appointment where
  ticket : Nat
  spawned : Bool
deriving DecidableEq, Repr

namespace Session

/-- A conversation that begins, in a fresh context. -/
def begin (engine : Engine) (world : World) : Session :=
  let (context, world) := world.newContext
  ⟨engine, world, context, [], 0⟩

/-- Set a variable by hand. -/
def set (session : Session) (name : String) (value : Value) : Session :=
  { session with
    context := session.context.set name value
    bindings := Entries.bind name value session.bindings }

/-- Go on in a fresh context in which the same variables are set. -/
def renew (session : Session) : Session :=
  let (context, world) := session.world.newContext
  { session with
    world
    context := session.bindings.foldl (fun context pair => context.set pair.1 pair.2) context }

/-- Go on in a fresh context and forget the variables. -/
def restart (session : Session) : Session :=
  { session with bindings := [] }.renew

/-- Lend the context to a call that waits, and have its result. -/
def borrow {A : Type} (session : Session) (call : Context → World → Outcome A) :
    Except (Halt Failure) A × Session :=
  let outcome := call session.context session.world
  (outcome.result, { session with context := outcome.context, world := outcome.world })

/-- Give the context away to a call with a callback.  There is no appointment when native code
panicked, and the callback with it was lost. -/
def giveAway (session : Session) (call : Nat → Context → World → Started × World) :
    Option Appointment × Session :=
  let away := { session.renew with nextTicket := session.nextTicket + 1 }
  match call session.nextTicket session.context away.world with
  | (.delivered, world) => (some ⟨session.nextTicket, false⟩, { away with world })
  | (.spawned, world) => (some ⟨session.nextTicket, true⟩, { away with world })
  | (.panicked, world) => (none, { away with world })

/-- How often the callback of an appointment has fired. -/
def fired (session : Session) (appointment : Appointment) : Nat :=
  (session.world.deliveriesOf appointment.ticket).length

/-- Wait for a callback and go on in the context that it hands back. -/
def join (session : Session) (appointment : Appointment) : Option Delivery × Session :=
  let world := session.world.await appointment.ticket
  let session := { session with world }
  match world.deliveriesOf appointment.ticket with
  | [] => (none, session)
  | delivery :: _ => (some delivery, { session with context := delivery.context })

end Session

end Switchboard
