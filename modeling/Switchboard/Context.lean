import Switchboard.Value

/-!
The context of one chain of calls.

A context has nested scopes of variables, a stack of the locations that are being evaluated, a
trace name and, after a send was started in callback mode, the handle of that send.  The innermost
scope is a field of its own, so that there is always a scope to bind in; the outermost one cannot
be left.
-/

namespace Switchboard

/-- Ties a send that was started in callback mode to the context it left with. -/
structure Completion where
  correlation : Identity
  action : String
deriving DecidableEq, Repr

/-- What one chain of calls carries along. -/
structure Context where
  traceId : String
  /-- The innermost scope. -/
  scope : Entries Value
  /-- The scopes around it, from the inside out. -/
  outer : List (Entries Value)
  /-- The locations being evaluated, the current one first. -/
  locations : List Location
  completion : Option Completion

namespace Context

/-- A context without bindings. -/
def ofTrace (traceId : String) : Context :=
  ⟨traceId, [], [], [], none⟩

/-- Look a name up in these scopes, the first one first. -/
def lookup (name : String) : List (Entries Value) → Option Value
  | [] => none
  | scope :: outer =>
      match Entries.find? name scope with
      | some value => some value
      | none => lookup name outer

/-- The value of a name, from the innermost scope that binds it. -/
def get? (context : Context) (name : String) : Option Value :=
  lookup name (context.scope :: context.outer)

/-- The value of a name, or the fault of its absence. -/
def get (context : Context) (name : String) : Checked Value :=
  match context.get? name with
  | some value => .ok value
  | none => .error (.undefinedVariable name)

/-- Bind a name in the innermost scope. -/
def set (context : Context) (name : String) (value : Value) : Context :=
  { context with scope := Entries.bind name value context.scope }

/-- Enter a new scope. -/
def pushScope (context : Context) : Context :=
  { context with scope := [], outer := context.scope :: context.outer }

/-- Leave the innermost scope, unless it is the only one. -/
def popScope (context : Context) : Context :=
  match context.outer with
  | [] => context
  | scope :: outer => { context with scope, outer }

def pushLocation (context : Context) (location : Location) : Context :=
  { context with locations := location :: context.locations }

def popLocation (context : Context) : Context :=
  { context with locations := context.locations.tail }

/-- The current location. -/
def location? (context : Context) : Option Location :=
  context.locations.head?

/-- A fault at the current location. -/
def fail (context : Context) (fault : Fault) : Failure :=
  (Failure.ofFault fault).at? context.location?

def setCompletion (context : Context) (completion : Completion) : Context :=
  { context with completion := some completion }

def clearCompletion (context : Context) : Context :=
  { context with completion := none }

@[simp] theorem get?_set (context : Context) (name other : String) (value : Value) :
    (context.set name value).get? other =
      if name = other then some value else context.get? other := by
  by_cases h : name = other <;> simp [get?, set, lookup, Entries.find?_bind, h]

@[simp] theorem get?_pushScope (context : Context) (name : String) :
    context.pushScope.get? name = context.get? name := by
  simp [get?, pushScope, lookup, Entries.find?]

@[simp] theorem popScope_pushScope (context : Context) :
    context.pushScope.popScope = context := rfl

@[simp] theorem popLocation_pushLocation (context : Context) (location : Location) :
    (context.pushLocation location).popLocation = context := rfl

end Context

end Switchboard
