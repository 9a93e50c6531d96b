import Switchboard.Registry

/-!
Who may call what.

A call is checked before anything of its implementation runs: that the name is registered, that an
action supports the mode of the call and gets a connector of its family first, that the number of
arguments is right, and that each has the declared type.  The first of these that fails is the
outcome.  What a call returns is checked too.
-/

namespace Switchboard

/-- What a checked call runs.  An action comes with the connector that is its first argument. -/
inductive Target where
  | function (native : NativeFunction)
  | action (native : Action) (connector : Connector)

/-- The connector that is the first argument, when it is of the family that `native` wants. -/
def Action.resolveConnector (native : Action) (name : String) :
    List Value → Checked Connector
  | .connector connector :: _ =>
      if connector.family = native.family then .ok connector
      else
        .error (.connectorTypeMismatch name native.family
          s!"{connector.family} connector '{connector.name}'")
  | other :: _ => .error (.connectorTypeMismatch name native.family other.type.name)
  | [] => .error (.connectorTypeMismatch name native.family "nothing")

namespace Descriptor

/-- Whether a call in this mode is supported.  Functions can be called in either. -/
def checkMode (descriptor : Descriptor) (mode : CallMode) : Checked Unit :=
  match descriptor.kind with
  | .function => .ok ()
  | .action _ modes =>
      if modes.supports mode then .ok ()
      else .error (.unsupportedCallMode descriptor.name.text mode)

/-- Whether the number of arguments is the declared one. -/
def checkArity (descriptor : Descriptor) (arguments : List Value) : Checked Unit :=
  if arguments.length = descriptor.arity then .ok ()
  else .error (.arityMismatch descriptor.name.text descriptor.arity arguments.length)

/-- Whether arguments from position `index` on have the declared types. -/
def checkTypes (function : String) : Nat → List Param → List Value → Checked Unit
  | index, param :: params, argument :: arguments =>
      if argument.type = param.type then checkTypes function (index + 1) params arguments
      else .error (.argumentTypeMismatch function index param.type argument.type)
  | _, _, _ => .ok ()

/-- Whether a result is of the declared type, or absent.  Where nothing is declared nothing may be
returned. -/
def checkReturn (descriptor : Descriptor) (value : Option Value) : Checked (Option Value) :=
  match descriptor.returns, value with
  | some expected, some found =>
      if found.type = expected then .ok value
      else
        .error (.returnTypeMismatch descriptor.name.text expected.name found.type.name)
  | none, some found =>
      .error (.returnTypeMismatch descriptor.name.text "nothing" found.type.name)
  | _, none => .ok value

end Descriptor

namespace Contribution

/-- What a contribution runs for these arguments. -/
def resolveTarget (name : String) (arguments : List Value) : Contribution → Checked Target
  | .function native => .ok (.function native)
  | .action native => do
      let connector ← native.resolveConnector name arguments
      .ok (.action native connector)

end Contribution

namespace Registry

/-- Check a call: name, mode, connector, number and types of the arguments, in this order. -/
def check (registry : Registry) (mode : CallMode) (name : String) (arguments : List Value) :
    Checked (Descriptor × Target) :=
  match registry.find? name with
  | none => .error (.unknownFunction name)
  | some entry => do
      entry.descriptor.checkMode mode
      let target ← entry.contribution.resolveTarget name arguments
      entry.descriptor.checkArity arguments
      Descriptor.checkTypes name 0 entry.descriptor.params arguments
      .ok (entry.descriptor, target)

end Registry

end Switchboard
