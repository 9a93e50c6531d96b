import Switchboard.Context
import Switchboard.Envelope

/-!
Native functions and connector actions.

A contribution describes itself with names of types and comes with code.  A function reads the
store, its context and its arguments, and answers with a value, nothing, a fault, or a panic; it
may change the context and the store.  An action has three parts of its own: it checks the
arguments before a send in callback mode, prepares the request, and makes a result of the reply.

A panic is told apart from a fault: it is not an answer, and whoever waits for one has to notice.
-/

namespace Switchboard

/-- How a computation stops without an answer. -/
inductive Halt (E : Type) where
  | failed (error : E)
  | panicked

/-- An answer, a fault or a panic. -/
abbrev Answer (A : Type) := Except (Halt Fault) A

/-- A checked computation never panics. -/
def Answer.ofChecked {A : Type} : Checked A → Answer A
  | .ok value => .ok value
  | .error fault => .error (.failed fault)

/-- `package:name`. -/
structure QualifiedName where
  package : String
  name : String
deriving DecidableEq, Repr

namespace QualifiedName

def text (name : QualifiedName) : String :=
  name.package ++ ":" ++ name.name

/-- Split at the first colon. -/
def splitColon : List Char → Option (List Char × List Char)
  | [] => none
  | c :: rest =>
      if c = ':' then some ([], rest)
      else (splitColon rest).map fun (before, after) => (c :: before, after)

/-- Both parts around the first colon, when neither is empty. -/
def ofText? (text : String) : Option QualifiedName :=
  match splitColon text.toList with
  | some (package, name) =>
      if package.isEmpty || name.isEmpty then none
      else some ⟨String.ofList package, String.ofList name⟩
  | none => none

/-- By package, then by name. -/
def less (left right : QualifiedName) : Bool :=
  left.package < right.package || (left.package == right.package && left.name < right.name)

end QualifiedName

/-- How a contribution describes itself.  Types are given by name. -/
structure NativeSpec where
  package : String
  name : String
  params : List (String × String)
  returns : Option String
  isPublic : Bool

def NativeSpec.qualifiedName (spec : NativeSpec) : QualifiedName :=
  ⟨spec.package, spec.name⟩

/-- What a function left behind. -/
structure NativeRun where
  answer : Answer (Option Value)
  context : Context
  store : Store

/-- A native function. -/
structure NativeFunction where
  spec : NativeSpec
  run : Store → Context → List Value → NativeRun

/-- What one part of an action left behind. -/
structure ActionStep (A : Type) where
  answer : Answer A
  store : Store

/-- A connector action. -/
structure Action where
  spec : NativeSpec
  /-- Family of the connector that is the first argument. -/
  family : String
  modes : CallModes
  validate : Store → List Value → ActionStep Unit
  prepare : Store → Context → List Value → ActionStep Request
  complete : Store → Reply → ActionStep (Option Value)

/-- What can be registered. -/
inductive Contribution where
  | function (native : NativeFunction)
  | action (native : Action)

def Contribution.spec : Contribution → NativeSpec
  | .function native => native.spec
  | .action native => native.spec

/-- A parameter with its type. -/
structure Param where
  name : String
  type : ValueType
deriving DecidableEq, Repr

/-- What kind of contribution a descriptor stands for. -/
inductive DescriptorKind where
  | function
  | action (family : String) (modes : CallModes)
deriving DecidableEq, Repr

/-- A description whose names and types have been checked. -/
structure Descriptor where
  name : QualifiedName
  params : List Param
  returns : Option ValueType
  isPublic : Bool
  kind : DescriptorKind
deriving DecidableEq, Repr

namespace Descriptor

def arity (descriptor : Descriptor) : Nat :=
  descriptor.params.length

def isAction (descriptor : Descriptor) : Bool :=
  match descriptor.kind with
  | .function => false
  | .action _ _ => true

/-- `package:name(a: int, b: string) -> boolean`; the arrow is missing when nothing is returned. -/
def signature (descriptor : Descriptor) : String :=
  let params := ", ".intercalate
    (descriptor.params.map fun param => param.name ++ ": " ++ param.type.name)
  let head := descriptor.name.text ++ "(" ++ params ++ ")"
  match descriptor.returns with
  | some type => head ++ " -> " ++ type.name
  | none => head

end Descriptor

end Switchboard
