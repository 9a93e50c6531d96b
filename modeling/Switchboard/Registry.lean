import Switchboard.Native

/-!
The registry of native functions and connector actions.

A registry is built once from a list of contributions.  The first contribution that is faulty, or
that repeats an earlier name, ends the building.  Package names are lower-case words joined by
points; other names are letters, digits and underscores and do not begin with a digit.
-/

namespace Switchboard

/-- What can be wrong with a contribution. -/
inductive RegistryFault where
  | duplicateName (name : String)
  | unknownType (function typeName : String)
  | malformedName (name : String)
  | missingConnectorParameter (name : String)
  | noExecutionMode (name : String)
deriving DecidableEq, Repr

namespace RegistryFault

/-- The name of the kind of fault. -/
def label : RegistryFault → String
  | duplicateName _ => "DuplicateName"
  | unknownType _ _ => "UnknownType"
  | malformedName _ => "MalformedName"
  | missingConnectorParameter _ => "MissingConnectorParameter"
  | noExecutionMode _ => "NoExecutionMode"

/-- The wording of a fault. -/
def message : RegistryFault → String
  | duplicateName name => s!"duplicate registration of {name}"
  | unknownType function typeName => s!"{function}: '{typeName}' is not a value type"
  | malformedName name => s!"malformed qualified name: {name}"
  | missingConnectorParameter name =>
      s!"{name}: connector actions take the connector as their first parameter"
  | noExecutionMode name => s!"{name}: connector action supports no execution mode"

end RegistryFault

namespace QualifiedName

/-- Both parts of a qualified name, or the fault of a text that is none. -/
def ofText (text : String) : Except RegistryFault QualifiedName :=
  match ofText? text with
  | some name => .ok name
  | none => .error (.malformedName text)

/-- A lower-case letter. -/
def isWordStart (c : Char) : Bool :=
  c.isLower

/-- A lower-case letter, a digit or an underscore. -/
def isWordPart (c : Char) : Bool :=
  c.isLower || c.isDigit || c == '_'

/-- The rest of a package name behind the first letter of a word. -/
def isPackageTail : List Char → Bool
  | [] => true
  | '.' :: c :: rest => isWordStart c && isPackageTail rest
  | c :: rest => isWordPart c && isPackageTail rest

/-- Lower-case words joined by points. -/
def isPackage : List Char → Bool
  | [] => false
  | c :: rest => isWordStart c && isPackageTail rest

/-- A letter or underscore, then letters, digits and underscores. -/
def isName : List Char → Bool
  | [] => false
  | c :: rest => (c.isAlpha || c == '_') && rest.all fun c => c.isAlphanum || c == '_'

/-- Both parts follow their patterns. -/
def isWellFormed (name : QualifiedName) : Bool :=
  isPackage name.package.toList && isName name.name.toList

end QualifiedName

/-- A registered contribution. -/
structure Entry where
  descriptor : Descriptor
  contribution : Contribution

/-- The name under which an entry is looked up. -/
def Entry.key (entry : Entry) : String :=
  entry.descriptor.name.text

/-- Registered contributions in the order of registration. -/
structure Registry where
  entries : List Entry

namespace Contribution

/-- The type of this name, for a contribution called `display`. -/
def resolveType (display typeName : String) : Except RegistryFault ValueType :=
  match ValueType.ofName? typeName with
  | some type => .ok type
  | none => .error (.unknownType display typeName)

/-- The parameters with their types, or the fault of the first unknown one. -/
def resolveParams (display : String) :
    List (String × String) → Except RegistryFault (List Param)
  | [] => .ok []
  | (name, typeName) :: rest => do
      let type ← resolveType display typeName
      let others ← resolveParams display rest
      .ok (⟨name, type⟩ :: others)

/-- The type of the result, if there is one. -/
def resolveReturns (display : String) :
    Option String → Except RegistryFault (Option ValueType)
  | none => .ok none
  | some typeName => do
      let type ← resolveType display typeName
      .ok (some type)

/-- The kind of a contribution with these parameters.  An action takes a connector first and
supports some way of calling. -/
def resolveKind (display : String) (params : List Param) :
    Contribution → Except RegistryFault DescriptorKind
  | .function _ => .ok .function
  | .action native =>
      if params.head?.map Param.type ≠ some .connector then
        .error (.missingConnectorParameter display)
      else if native.modes.isEmpty then .error (.noExecutionMode display)
      else .ok (.action native.family native.modes)

/-- Check a contribution: its name, its parameters, its result and its kind, in this order. -/
def describe (contribution : Contribution) : Except RegistryFault Descriptor := do
  let spec := contribution.spec
  let name := spec.qualifiedName
  if !name.isWellFormed then .error (.malformedName name.text)
  else
    let params ← resolveParams name.text spec.params
    let returns ← resolveReturns name.text spec.returns
    let kind ← resolveKind name.text params contribution
    .ok ⟨name, params, returns, spec.isPublic, kind⟩

end Contribution

namespace Registry

def empty : Registry := ⟨[]⟩

/-- The entry of this qualified name. -/
def find? (registry : Registry) (name : String) : Option Entry :=
  registry.entries.find? fun entry => entry.key == name

def contains (registry : Registry) (name : String) : Bool :=
  (registry.find? name).isSome

def size (registry : Registry) : Nat :=
  registry.entries.length

/-- Add one contribution. -/
def register (registry : Registry) (contribution : Contribution) :
    Except RegistryFault Registry := do
  let descriptor ← contribution.describe
  if registry.contains descriptor.name.text then
    .error (.duplicateName descriptor.name.text)
  else .ok ⟨registry.entries ++ [⟨descriptor, contribution⟩]⟩

/-- Add contributions in turn, up to the first fault. -/
def registerAll (registry : Registry) : List Contribution → Except RegistryFault Registry
  | [] => .ok registry
  | contribution :: rest => do
      let registry ← registry.register contribution
      registry.registerAll rest

/-- The registry of these contributions. -/
def build (contributions : List Contribution) : Except RegistryFault Registry :=
  empty.registerAll contributions

/-- Put a descriptor before the first one whose name is not smaller. -/
def insertSorted (descriptor : Descriptor) : List Descriptor → List Descriptor
  | [] => [descriptor]
  | head :: rest =>
      if head.name.less descriptor.name then head :: insertSorted descriptor rest
      else descriptor :: head :: rest

/-- The descriptors in increasing order of their names. -/
def descriptors (registry : Registry) : List Descriptor :=
  (registry.entries.map Entry.descriptor).foldr insertSorted []

end Registry

end Switchboard
