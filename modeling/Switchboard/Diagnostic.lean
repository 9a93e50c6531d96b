import Switchboard.Failure

/-!
Diagnostic records.

Every dispatched call and every failure is recorded.  A record of a failure has a kind; a record of
a dispatch has none.  `Diagnostic.event` is the form in which a record is written to a log.
-/

namespace Switchboard

/-- How much a record matters. -/
inductive Severity where
  | debug
  | info
  | warn
  | error
deriving DecidableEq, Repr

namespace Severity

def label : Severity → String
  | debug => "Debug"
  | info => "Info"
  | warn => "Warn"
  | error => "Error"

/-- Every severity, in increasing order. -/
def all : List Severity := [debug, info, warn, error]

/-- The severity of this name, in any letter case. -/
def ofName? (text : String) : Option Severity :=
  all.find? fun severity => Text.asciiLower severity.label == Text.asciiLower text

/-- The capitals of a log line. -/
def heading : Severity → String
  | debug => "DEBUG"
  | info => "INFO"
  | warn => "WARN"
  | error => "ERROR"

end Severity

/-- One record. -/
structure Diagnostic where
  location : Option Location
  function : Option String
  kind : Option FaultKind
  message : String
  severity : Severity
deriving DecidableEq, Repr

/-- A record as a log shows it. -/
structure LogEvent where
  severity : Severity
  fields : List (String × String)
deriving DecidableEq, Repr

namespace Diagnostic

/-- The record of a failure. -/
def ofFailure (failure : Failure) : Diagnostic :=
  ⟨failure.location, failure.function, some failure.kind, failure.fault.message, .error⟩

/-- The record of a call that is about to run. -/
def ofDispatch (name : String) (location : Option Location) : Diagnostic :=
  ⟨location, some name, none, s!"dispatch {name}", .debug⟩

def isFailure (record : Diagnostic) : Bool :=
  record.kind.isSome

@[simp] theorem isFailure_ofFailure (failure : Failure) :
    (ofFailure failure).isFailure = true := rfl

@[simp] theorem isFailure_ofDispatch (name : String) (location : Option Location) :
    (ofDispatch name location).isFailure = false := rfl

/-- The log form: absent names and places are empty, and only errors show their kind. -/
def event (record : Diagnostic) : LogEvent :=
  let location := (record.location.map Location.text).getD ""
  let function := record.function.getD ""
  let kind :=
    match record.severity with
    | .error =>
        match record.kind with
        | some kind => [("kind", s!"Some({kind.name})")]
        | none => [("kind", "None")]
    | _ => []
  ⟨record.severity,
    [("location", location), ("function", function)] ++ kind ++ [("message", record.message)]⟩

end Diagnostic

end Switchboard
