import Switchboard.Library.Basic
import Switchboard.Transport

/-!
Natives and transports that do as they are told.

Their behaviour is given as data, so that an engine can be tried out with parts that return what
they should not, fail, panic, or meddle with their context.
-/

namespace Switchboard

/-- What a scripted function does. -/
inductive Script where
  | nothing
  | constant (value : Value)
  /-- Return the argument at a position. -/
  | argument (index : Nat)
  /-- Return the argument at a position, which must be an integer. -/
  | integerArgument (index : Nat)
  | fail (message : String)
  /-- Leave a location on the stack of the context, and fail. -/
  | failAt (location : Location) (message : String)
  /-- Bind the first argument in the context. -/
  | bindArgument (name : String)
  /-- Return the value of a variable. -/
  | lookUp (name : String)
  | enterScope
  | leaveScope
  | panic

namespace Script

/-- The answer of a script, and the context that it leaves behind. -/
def run (script : Script) (name : String) (context : Context) (arguments : List Value) :
    Answer (Option Value) × Context :=
  match script with
  | nothing => (.ok none, context)
  | constant value => (.ok (some value), context)
  | argument index => ((Arguments.value arguments index).map some, context)
  | integerArgument index =>
      ((Arguments.readAs Value.asInteger arguments index).map fun n => some (.integer n), context)
  | fail message => (.error (.failed (.native name message)), context)
  | failAt location message =>
      (.error (.failed (.native name message)), context.pushLocation location)
  | bindArgument target =>
      match Arguments.value arguments 0 with
      | .ok value => (.ok none, context.set target value)
      | .error halt => (.error halt, context)
  | lookUp source => (.ofChecked ((context.get source).map some), context)
  | enterScope => (.ok none, context.pushScope)
  | leaveScope => (.ok none, context.popScope)
  | panic => (.error .panicked, context)

/-- The function that follows a script. -/
def contribution (script : Script) (spec : NativeSpec) : Contribution :=
  .function {
    spec
    run := fun store context arguments =>
      let (answer, context) := script.run spec.name context arguments
      ⟨answer, context, store⟩ }

end Script

/-- What a scripted action makes of a reply. -/
inductive Ending where
  /-- Whether the message was accepted. -/
  | accepted
  | nothing
  | constant (value : Value)
  /-- The identity under which the message was accepted, if there is one. -/
  | messageId
  | fail (message : String)
  | panic

/-- The result of an action that ends so. -/
def Ending.result (ending : Ending) (name : String) (reply : Reply) : Answer (Option Value) :=
  match ending with
  | accepted => .ok (some (.boolean reply.accepted))
  | nothing => .ok none
  | constant value => .ok (some value)
  | messageId => .ok (reply.messageId.map Value.string)
  | fail message => .error (.failed (.native name message))
  | panic => .error .panicked

/-- What a scripted action does. -/
structure ActionScript where
  family : String
  modes : CallModes
  /-- Why its validation rejects every call. -/
  rejection : Option String
  /-- Why it cannot prepare any request. -/
  obstacle : Option String
  properties : Dict String
  wantsReply : Bool
  ending : Ending

namespace ActionScript

/-- A text that tells the number of arguments. -/
def request (script : ActionScript) (arguments : List Value) : Request :=
  ⟨⟨.text, .text s!"{arguments.length} args", .empty⟩, script.properties, script.wantsReply⟩

/-- The action that follows a script. -/
def contribution (script : ActionScript) (spec : NativeSpec) : Contribution :=
  .action {
    spec
    family := script.family
    modes := script.modes
    validate := fun store _ =>
      match script.rejection with
      | some reason =>
          ⟨.error (.failed (.validationFailure spec.qualifiedName.text reason)), store⟩
      | none => ⟨.ok (), store⟩
    prepare := fun store _ arguments =>
      match script.obstacle with
      | some reason => ⟨.error (.failed (.native spec.name reason)), store⟩
      | none => ⟨.ok (script.request arguments), store⟩
    complete := fun store reply => ⟨script.ending.result spec.name reply, store⟩ }

end ActionScript

/-- A transport that ends every send in the same way, at once. -/
def Transport.scripted (protocol : String) (ending : SendEnd) (closing : PeerClosing) :
    Transport :=
  .peer ⟨protocol, [], fun _ _ => ⟨some 0, ending⟩, closing⟩

end Switchboard
