import Switchboard.Native

/-!
How library functions are written.

A library function takes its arguments by position and answers with a value, with nothing, or with a
fault; it may change what messages hold, and it leaves its context alone.  An argument that is not
there is no fault but a panic: calls are checked before a function runs, and it relies on that.
-/

namespace Switchboard

/-- What a library function makes of the store and its arguments. -/
abbrev LibraryBody := Store → List Value → Answer (Option Value × Store)

/-- The function with this body.  Unless it succeeds the store stays as it was. -/
def LibraryBody.toFunction (body : LibraryBody) (spec : NativeSpec) : NativeFunction where
  spec
  run store context arguments :=
    match body store arguments with
    | .ok (value, store) => ⟨.ok value, context, store⟩
    | .error halt => ⟨.error halt, context, store⟩

/-- A public contribution with this body. -/
def LibraryBody.contribution (body : LibraryBody) (package name : String)
    (params : List (String × String)) (returns : Option String) : Contribution :=
  .function (body.toFunction ⟨package, name, params, returns, true⟩)

namespace Arguments

/-- The argument at a position. -/
def value (arguments : List Value) (index : Nat) : Answer Value :=
  match arguments[index]? with
  | some value => .ok value
  | none => .error .panicked

/-- The argument at a position, as an accessor reads it. -/
def readAs {A : Type} (read : Value → Checked A) (arguments : List Value) (index : Nat) :
    Answer A := do
  let value ← value arguments index
  Answer.ofChecked (read value)

def message (arguments : List Value) (index : Nat) : Answer MessageId :=
  readAs Value.asMessage arguments index

def string (arguments : List Value) (index : Nat) : Answer String :=
  readAs Value.asString arguments index

def float (arguments : List Value) (index : Nat) : Answer Float :=
  readAs Value.asFloat arguments index

end Arguments

@[simp] theorem LibraryBody.run_toFunction_context (body : LibraryBody) (spec : NativeSpec)
    (store : Store) (context : Context) (arguments : List Value) :
    ((body.toFunction spec).run store context arguments).context = context := by
  simp only [LibraryBody.toFunction]
  split <;> rfl

end Switchboard
