import Switchboard.CallMode
import Switchboard.Expr
import Switchboard.MessageKind
import Switchboard.Transport.Fault
import Switchboard.ValueType

/-!
What can go wrong while an expression is evaluated.

A `Fault` is a cause and holds the data of its wording.  A `Failure` is a fault as the caller sees
it: with the location that was current when it surfaced and the qualified name that was being
dispatched.  Both are attached once; a later attempt to attach them changes nothing.
-/

namespace Switchboard

/-- Causes of failure. -/
inductive Fault where
  | typeMismatch (expected found : ValueType)
  | operandTypeMismatch (operator : Operator) (left right : ValueType)
  | argumentTypeMismatch (function : String) (index : Nat) (expected found : ValueType)
  | arityMismatch (function : String) (expected found : Nat)
  | unknownFunction (name : String)
  | divisionByZero (operator : Operator)
  | connectorTypeMismatch (action expected found : String)
  | payloadKindMismatch (kind : MessageKind) (requirement : String)
  | connectorExecutionFailure (action : String) (cause : TransportFault)
  | validationFailure (action reason : String)
  | undefinedVariable (name : String)
  | noValue (function : String)
  | returnTypeMismatch (function expected found : String)
  | unsupportedCallMode (function : String) (mode : CallMode)
  | unknownConnector (name : String)
  | native (function message : String)
deriving DecidableEq, Repr

/-- Faults told apart by kind only; the three mismatches of types are one kind. -/
inductive FaultKind where
  | typeMismatch
  | arityMismatch
  | unknownFunction
  | divisionByZero
  | connectorTypeMismatch
  | payloadKindMismatch
  | connectorExecutionFailure
  | validationFailure
  | undefinedVariable
  | noValue
  | returnTypeMismatch
  | unsupportedCallMode
  | unknownConnector
  | native
deriving DecidableEq, Repr

/-- The name that records show. -/
def FaultKind.name : FaultKind → String
  | .typeMismatch => "TypeMismatch"
  | .arityMismatch => "ArityMismatch"
  | .unknownFunction => "UnknownFunction"
  | .divisionByZero => "DivisionByZero"
  | .connectorTypeMismatch => "ConnectorTypeMismatch"
  | .payloadKindMismatch => "PayloadKindMismatch"
  | .connectorExecutionFailure => "ConnectorExecutionFailure"
  | .validationFailure => "ValidationFailure"
  | .undefinedVariable => "UndefinedVariable"
  | .noValue => "NoValue"
  | .returnTypeMismatch => "ReturnTypeMismatch"
  | .unsupportedCallMode => "UnsupportedCallMode"
  | .unknownConnector => "UnknownConnector"
  | .native => "Native"

namespace Fault

def kind : Fault → FaultKind
  | typeMismatch .. => .typeMismatch
  | operandTypeMismatch .. => .typeMismatch
  | argumentTypeMismatch .. => .typeMismatch
  | arityMismatch .. => .arityMismatch
  | unknownFunction .. => .unknownFunction
  | divisionByZero .. => .divisionByZero
  | connectorTypeMismatch .. => .connectorTypeMismatch
  | payloadKindMismatch .. => .payloadKindMismatch
  | connectorExecutionFailure .. => .connectorExecutionFailure
  | validationFailure .. => .validationFailure
  | undefinedVariable .. => .undefinedVariable
  | noValue .. => .noValue
  | returnTypeMismatch .. => .returnTypeMismatch
  | unsupportedCallMode .. => .unsupportedCallMode
  | unknownConnector .. => .unknownConnector
  | native .. => .native

/-- The wording of a fault. -/
def message : Fault → String
  | typeMismatch expected found =>
      s!"type mismatch: expected {expected.name}, found {found.name}"
  | operandTypeMismatch operator left right =>
      s!"operator '{operator.symbol}' is not defined for {left.name} and {right.name}"
  | argumentTypeMismatch function index expected found =>
      s!"argument {index} of '{function}': expected {expected.name}, found {found.name}"
  | arityMismatch function expected found =>
      s!"'{function}' expects {expected} argument(s), got {found}"
  | unknownFunction name => s!"unknown function: {name}"
  | divisionByZero operator => s!"{operator.symbol} by zero"
  | connectorTypeMismatch action expected found =>
      s!"'{action}' needs a {expected} connector as its first argument, found {found}"
  | payloadKindMismatch kind requirement =>
      s!"if the message type is {kind.name}, {requirement}"
  | connectorExecutionFailure action cause =>
      s!"'{action}' failed while talking to the transport: {cause.message}"
  | validationFailure action reason => s!"'{action}' rejected by validation: {reason}"
  | undefinedVariable name => s!"undefined variable: {name}"
  | noValue function => s!"'{function}' returns no value"
  | returnTypeMismatch function expected found =>
      s!"'{function}' declared to return {expected}, returned {found}"
  | unsupportedCallMode function mode =>
      s!"'{function}' cannot be called in {mode.name} mode"
  | unknownConnector name => s!"unknown connector: {name}"
  | native function message => s!"{function}: {message}"

/-- The fault behind this one: a failed send has the transport's cause. -/
def cause? : Fault → Option TransportFault
  | connectorExecutionFailure _ cause => some cause
  | _ => none

end Fault

/-- A fault with the place and the call where it surfaced. -/
structure Failure where
  fault : Fault
  location : Option Location
  function : Option String
deriving DecidableEq, Repr

namespace Failure

/-- A fault nothing is known about yet. -/
def ofFault (fault : Fault) : Failure :=
  ⟨fault, none, none⟩

/-- Attach a location, unless there is one. -/
def at? (failure : Failure) (location : Option Location) : Failure :=
  match failure.location with
  | some _ => failure
  | none => { failure with location }

/-- Attach the name being dispatched, unless there is one. -/
def inFunction (failure : Failure) (name : String) : Failure :=
  match failure.function with
  | some _ => failure
  | none => { failure with function := some name }

def kind (failure : Failure) : FaultKind :=
  failure.fault.kind

/-- The written form: the location, if known, then the wording of the fault. -/
def text (failure : Failure) : String :=
  match failure.location with
  | some location => s!"{location.text}: {failure.fault.message}"
  | none => failure.fault.message

/-- The wordings of the causes, outermost first. -/
def causes (failure : Failure) : List String :=
  failure.fault.message :: (failure.fault.cause?.map TransportFault.message).toList

end Failure

/-- A computation that may find a fault. -/
abbrev Checked (A : Type) := Except Fault A

end Switchboard
