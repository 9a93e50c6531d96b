import Switchboard.OperatorTable
import Switchboard.World

/-!
An engine is what stays fixed while programs run: its configuration, its registry and its table of
operators.  What changes is in the `World` that every operation takes and gives back.

`Outcome` is what such an operation leaves behind for the caller who lent it a context.  When it
stops early the context and the world are as they were at that moment.
-/

namespace Switchboard

/-- The fixed parts. -/
structure Engine where
  config : Config
  registry : Registry
  operators : OperatorTable

/-- An answer to the caller: a value, a failure or a panic, with the context and the world as they
are then. -/
structure Outcome (A : Type) where
  result : Except (Halt Failure) A
  context : Context
  world : World

namespace Outcome

variable {A B : Type}

/-- Go on with a value; a failure or a panic ends it. -/
def andThen (outcome : Outcome A) (next : A → Context → World → Outcome B) : Outcome B :=
  match outcome.result with
  | .ok value => next value outcome.context outcome.world
  | .error halt => ⟨.error halt, outcome.context, outcome.world⟩

def map (outcome : Outcome A) (change : A → B) : Outcome B :=
  outcome.andThen fun value context world => ⟨.ok (change value), context, world⟩

end Outcome

end Switchboard
