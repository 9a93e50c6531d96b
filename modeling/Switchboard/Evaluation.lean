import Switchboard.Callback
import Switchboard.Dispatch

/-!
Evaluating expressions.

Evaluation is strict and goes from left to right: operands before their operator, arguments before
their call, and both operands also of `&&` and `||`.  The first failure ends it.  A failure carries
the location of the node that could not be evaluated, and it has been reported once.

While a call runs its location is on top of the context's stack; afterwards the stack is as before,
unless native code panicked in between.
-/

namespace Switchboard

/-- Report a fault at a location, or at the current one when there is none. -/
def World.reportAt (world : World) (location : Option Location) (context : Context)
    (fault : Fault) : Failure × World :=
  let failure := (Failure.ofFault fault).at? (location.or context.location?)
  (failure, world.report failure)

namespace Outcome

/-- A fault at a location, reported. -/
def failAt {A : Type} (location : Option Location) (fault : Fault) (context : Context)
    (world : World) : Outcome A :=
  let (failure, world) := world.reportAt location context fault
  ⟨.error (.failed failure), context, world⟩

/-- A checked result, at a location. -/
def checkedAt {A : Type} (location : Option Location) (result : Checked A) (context : Context)
    (world : World) : Outcome A :=
  match result with
  | .ok value => ⟨.ok value, context, world⟩
  | .error fault => failAt location fault context world

/-- Take the current location off the stack again, unless there was a panic. -/
def leave {A : Type} (outcome : Outcome A) : Outcome A :=
  match outcome.result with
  | .error .panicked => outcome
  | _ => { outcome with context := outcome.context.popLocation }

end Outcome

namespace Engine

/-- Call `name`, with a location on top of the stack if there is one. -/
def invokeAt (engine : Engine) (name : String) (arguments : List Value)
    (location : Option Location) (context : Context) (world : World) : Outcome (Option Value) :=
  match location with
  | none => engine.invoke name arguments context world
  | some location =>
      (engine.invoke name arguments (context.pushLocation location) world).leave

mutual

/-- The value of an expression. -/
def evaluate (engine : Engine) : Expr → Context → World → Outcome Value
  | .literal value, context, world => ⟨.ok (.ofLiteral value), context, world⟩
  | .var name location, context, world =>
      .checkedAt (some location) (context.get name) context world
  | .binary op left right location, context, world =>
      (evaluate engine left context world).andThen fun left context world =>
        (evaluate engine right context world).andThen fun right context world =>
          .checkedAt (some location) (engine.operators.apply op left right) context world
  | .call function arguments location, context, world =>
      (evaluateAll engine arguments context world).andThen fun arguments context world =>
        (engine.invokeAt function arguments (some location) context world).andThen
          fun value context world =>
            match value with
            | some value => ⟨.ok value, context, world⟩
            | none => .failAt (some location) (.noValue function) context world

/-- The values of expressions, from left to right. -/
def evaluateAll (engine : Engine) : List Expr → Context → World → Outcome (List Value)
  | [], context, world => ⟨.ok [], context, world⟩
  | expr :: rest, context, world =>
      (evaluate engine expr context world).andThen fun value context world =>
        (evaluateAll engine rest context world).map fun values => value :: values

end

/-- A call that need not have a value. -/
def evaluateCall (engine : Engine) (function : String) (arguments : List Expr)
    (location : Option Location) (context : Context) (world : World) : Outcome (Option Value) :=
  (evaluateAll engine arguments context world).andThen fun arguments context world =>
    engine.invokeAt function arguments location context world

/-- The fault of an expression that is no call, where one is needed. -/
def onlyCalls : Fault :=
  .native "callback" "only calls can complete through a callback"

/-- Evaluate the arguments of a call and start it with the callback of this ticket.  Its location
stays on the stack of the context, which leaves with the call. -/
def startExpr (engine : Engine) (ticket : Nat) (expr : Expr) (context : Context)
    (world : World) : Started × World :=
  match expr with
  | .call function arguments location =>
      let outcome := engine.evaluateAll arguments context world
      match outcome.result with
      | .ok arguments =>
          engine.start ticket function arguments (outcome.context.pushLocation location)
            outcome.world
      | .error (.failed failure) =>
          (.delivered, outcome.world.deliver ticket outcome.context (.error failure))
      | .error .panicked => (.panicked, outcome.world)
  | other =>
      let (failure, world) := world.reportAt other.location? context onlyCalls
      (.delivered, world.deliver ticket context (.error failure))

/-- Read and evaluate a text. -/
def evaluateText (engine : Engine) (source file : String) (context : Context) (world : World) :
    Except ReadError (Outcome Value) :=
  (Expr.read source file).map fun expr => engine.evaluate expr context world

/-- Read a text and start the call in it with the callback of this ticket. -/
def startText (engine : Engine) (ticket : Nat) (source file : String) (context : Context)
    (world : World) : Except ReadError (Started × World) :=
  (Expr.read source file).map fun expr => engine.startExpr ticket expr context world

end Engine

end Switchboard
