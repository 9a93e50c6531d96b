import Switchboard.Proofs.Panics

/-!
Types of expressions.

The type of an expression can be read off before it is evaluated: from the tags of the variables,
from what the registry declares, and from which operators apply to which tags.  Native code is not
trusted to return what it declares, but the check of every result makes up for it, so an expression
that has a value has a type and the value has that tag.  No operator skips an operand, and so an
expression with a part that has no type has no value either.
-/

namespace Switchboard.Typing

/-! ## Static types -/

def isArithmetic : Operator → Bool
  | .add | .subtract | .multiply | .divide | .modulo => true
  | _ => false

def isComparison : Operator → Bool
  | .equal | .notEqual | .lessThan | .greaterThan | .lessThanEqual | .greaterThanEqual => true
  | _ => false

/-- The type of an operation on numbers whose arithmetic is in `number`. -/
def numericType (op : Operator) (number : ValueType) : Option ValueType :=
  if isArithmetic op then some number
  else if isComparison op then some .boolean
  else none

/-- The type of an operation on strings. -/
def stringType (op : Operator) : Option ValueType :=
  if isComparison op then some .boolean else none

/-- The type of an operation on truth values. -/
def booleanType : Operator → Option ValueType
  | .equal | .notEqual | .and | .or => some .boolean
  | _ => none

/-- The type of an operation, if the operator applies to these tags. -/
def operationType (op : Operator) : ValueType → ValueType → Option ValueType
  | .integer, .integer => numericType op .integer
  | .integer, .float => numericType op .float
  | .float, .integer => numericType op .float
  | .float, .float => numericType op .float
  | .string, .string => stringType op
  | .boolean, .boolean => booleanType op
  | _, _ => none

/-- The tags of the variables that a context binds. -/
def tags (context : Context) (name : String) : Option ValueType :=
  (context.get? name).map Value.type

mutual

/-- The type of an expression, if it has one: a call has the declared type when it is registered
and its arguments have the declared types, in number and kind. -/
def staticType (registry : Registry) (tags : String → Option ValueType) :
    Expr → Option ValueType
  | .literal value => some (Value.ofLiteral value).type
  | .var name _ => tags name
  | .binary op left right _ =>
      match staticType registry tags left, staticType registry tags right with
      | some leftType, some rightType => operationType op leftType rightType
      | _, _ => none
  | .call function arguments _ =>
      match registry.find? function, staticTypes registry tags arguments with
      | some entry, some types =>
          if types = entry.descriptor.params.map Param.type then entry.descriptor.returns
          else none
      | _, _ => none

/-- The types of expressions, if all of them have one. -/
def staticTypes (registry : Registry) (tags : String → Option ValueType) :
    List Expr → Option (List ValueType)
  | [] => some []
  | expr :: rest =>
      match staticType registry tags expr, staticTypes registry tags rest with
      | some type, some types => some (type :: types)
      | _, _ => none

end

/-! ## Operations -/

theorem lift_eq_ok {A : Type} {contents : Value → Checked A} {combine : A → A → Checked Value}
    {left right value : Value} (h : Reducer.lift contents combine left right = .ok value) :
    ∃ a b, combine a b = .ok value := by
  obtain ⟨a, -, h⟩ := Except.bind_eq_ok.1 h
  obtain ⟨b, -, h⟩ := Except.bind_eq_ok.1 h
  exact ⟨a, b, h⟩

theorem dividing_type {op : Operator} {combine : Int64 → Int64 → Int64} {left right value : Value}
    (h : Reducer.dividing op combine left right = .ok value) : value.type = .integer := by
  obtain ⟨a, b, h⟩ := lift_eq_ok h
  split at h
  · cases h
  · cases h
    rfl

theorem integer?_type {op : Operator} {reducer : Reducer} {left right value : Value}
    (hreducer : Reducer.integer? op = some reducer) (h : reducer left right = .ok value) :
    numericType op .integer = some value.type := by
  cases op with
  | and | or => cases hreducer
  | divide | modulo =>
      cases hreducer
      rw [dividing_type h]
      rfl
  | _ =>
      cases hreducer
      obtain ⟨a, b, h⟩ := lift_eq_ok h
      cases h
      rfl

theorem float?_type {op : Operator} {reducer : Reducer} {left right value : Value}
    (hreducer : Reducer.float? op = some reducer) (h : reducer left right = .ok value) :
    numericType op .float = some value.type := by
  cases op with
  | and | or => cases hreducer
  | _ =>
      cases hreducer
      obtain ⟨a, b, h⟩ := lift_eq_ok h
      cases h
      rfl

theorem string?_type {op : Operator} {reducer : Reducer} {left right value : Value}
    (hreducer : Reducer.string? op = some reducer) (h : reducer left right = .ok value) :
    stringType op = some value.type := by
  cases op with
  | equal | notEqual | lessThan | greaterThan | lessThanEqual | greaterThanEqual =>
      cases hreducer
      obtain ⟨a, b, h⟩ := lift_eq_ok h
      cases h
      rfl
  | _ => cases hreducer

theorem boolean?_type {op : Operator} {reducer : Reducer} {left right value : Value}
    (hreducer : Reducer.boolean? op = some reducer) (h : reducer left right = .ok value) :
    booleanType op = some value.type := by
  cases op with
  | equal | notEqual | and | or =>
      cases hreducer
      obtain ⟨a, b, h⟩ := lift_eq_ok h
      cases h
      rfl
  | _ => cases hreducer

/-- The type of an operation whose operands form this pair. -/
def pairType (op : Operator) : OperandPair → Option ValueType
  | .integer => numericType op .integer
  | .float => numericType op .float
  | .boolean => booleanType op
  | .string => stringType op

theorem reducer?_type {op : Operator} {pair : OperandPair} {reducer : Reducer}
    {left right value : Value} (hreducer : OperatorTable.standard.reducer? op pair = some reducer)
    (h : reducer left right = .ok value) : pairType op pair = some value.type := by
  cases pair with
  | integer => exact integer?_type hreducer h
  | float => exact float?_type hreducer h
  | boolean => exact boolean?_type hreducer h
  | string => exact string?_type hreducer h

theorem operationType_of_pair {left right : Value} {pair : OperandPair}
    (h : OperandPair.of? left right = some pair) (op : Operator) :
    operationType op left.type right.type = pairType op pair := by
  simp only [OperandPair.of?] at h
  split at h <;> cases h <;> rfl

/-- What an operation comes to has the type of the operation. -/
theorem apply_type {op : Operator} {left right value : Value}
    (h : OperatorTable.standard.apply op left right = .ok value) :
    operationType op left.type right.type = some value.type := by
  simp only [OperatorTable.apply] at h
  split at h
  · cases h
  · next pair hpair =>
    rw [operationType_of_pair hpair op]
    split at h
    · cases h
    · next reducer hreducer =>
      split at h <;> exact reducer?_type hreducer h

/-! ## Evaluation -/

end Switchboard.Typing

namespace Switchboard

/-- A function that leaves the bindings of its context alone. -/
def NativeFunction.KeepsBindings (native : NativeFunction) : Prop :=
  ∀ store context arguments name,
    (native.run store context arguments).context.get? name = context.get? name

/-- No function that is registered changes a binding. -/
def Registry.KeepsBindings (registry : Registry) : Prop :=
  ∀ entry ∈ registry.entries, ∀ native, entry.contribution = .function native →
    native.KeepsBindings

namespace Typing

variable {engine : Engine}

theorem tags_runTarget {contribution : Contribution} {name : String} {arguments : List Value}
    {target : Target} (htarget : contribution.resolveTarget name arguments = .ok target)
    (hkeeps : ∀ native, contribution = .function native → native.KeepsBindings)
    (world : World) (limit : Millis) (context : Context) :
    tags (world.runTarget limit name context arguments target).2.1 = tags context := by
  rcases Contribution.resolveTarget_eq_ok htarget with
    ⟨native, hnative, rfl⟩ | ⟨native, connector, -, rfl, -⟩
  · funext variableName
    exact congrArg (Option.map Value.type) (hkeeps native hnative _ context arguments variableName)
  · rfl

theorem invoke_type (hkeeps : engine.registry.KeepsBindings) {name : String}
    {arguments : List Value} {context : Context} {world : World} {value : Option Value}
    (h : (engine.invoke name arguments context world).result = .ok value) :
    ∃ entry, engine.registry.find? name = some entry ∧
      arguments.map Value.type = entry.descriptor.params.map Param.type ∧
      (∀ found, value = some found → entry.descriptor.returns = some found.type) ∧
      tags (engine.invoke name arguments context world).context = tags context := by
  obtain ⟨entry, target, hadmits, -, hdeclared, hcontext⟩ := engine.invoke_eq_ok _ _ _ _ h
  refine ⟨entry, hadmits.found, hadmits.types, hdeclared, ?_⟩
  rw [hcontext]
  exact tags_runTarget hadmits.target (hkeeps entry hadmits.mem) _ _ context

theorem invokeAt_type (hkeeps : engine.registry.KeepsBindings) {name : String}
    {arguments : List Value} {location : Location} {context : Context} {world : World}
    {value : Option Value}
    (h : (engine.invokeAt name arguments (some location) context world).result = .ok value) :
    ∃ entry, engine.registry.find? name = some entry ∧
      arguments.map Value.type = entry.descriptor.params.map Param.type ∧
      (∀ found, value = some found → entry.descriptor.returns = some found.type) ∧
      tags (engine.invokeAt name arguments (some location) context world).context =
        tags context := by
  simp only [Engine.invokeAt] at h ⊢
  rw [Outcome.leave_result] at h
  obtain ⟨entry, hfound, htypes, hdeclared, htags⟩ := invoke_type hkeeps h
  refine ⟨entry, hfound, htypes, hdeclared, ?_⟩
  rw [Outcome.leave_context (by rw [h]; rintro ⟨⟩)]
  exact htags

mutual

/-- An expression that has a value has a type, and it is the tag of the value. -/
theorem evaluate_type (hstandard : engine.operators = .standard)
    (hkeeps : engine.registry.KeepsBindings) :
    ∀ (expr : Expr) (context : Context) (world : World) (value : Value),
      (engine.evaluate expr context world).result = .ok value →
        staticType engine.registry (tags context) expr = some value.type ∧
          tags (engine.evaluate expr context world).context = tags context
  | .literal literal, _, _, value, h => by
      obtain rfl : Value.ofLiteral literal = value := Except.ok.inj h
      exact ⟨rfl, rfl⟩
  | .var name location, context, world, value, h => by
      simp only [Engine.evaluate] at h ⊢
      obtain ⟨hget, houtcome⟩ := Outcome.checkedAt_eq_ok h
      rw [houtcome]
      refine ⟨?_, rfl⟩
      simp only [Context.get] at hget
      split at hget
      · next found hfound =>
        cases hget
        exact congrArg (Option.map Value.type) hfound
      · cases hget
  | .binary op left right location, context, world, value, h => by
      simp only [Engine.evaluate] at h ⊢
      obtain ⟨first, hfirst, houtcome⟩ := Outcome.andThen_eq_ok h
      obtain ⟨hleft, hleftTags⟩ := evaluate_type hstandard hkeeps left _ _ _ hfirst
      rw [houtcome] at h ⊢
      obtain ⟨second, hsecond, houtcome⟩ := Outcome.andThen_eq_ok h
      obtain ⟨hright, hrightTags⟩ := evaluate_type hstandard hkeeps right _ _ _ hsecond
      rw [houtcome] at h ⊢
      obtain ⟨happly, houtcome⟩ := Outcome.checkedAt_eq_ok h
      rw [houtcome]
      rw [hleftTags] at hright hrightTags
      rw [hstandard] at happly
      refine ⟨?_, hrightTags⟩
      simp only [staticType, hleft, hright]
      exact apply_type happly
  | .call function arguments location, context, world, value, h => by
      simp only [Engine.evaluate] at h ⊢
      obtain ⟨values, hvalues, houtcome⟩ := Outcome.andThen_eq_ok h
      obtain ⟨harguments, hargumentTags⟩ :=
        evaluateAll_types hstandard hkeeps arguments _ _ _ hvalues
      rw [houtcome] at h ⊢
      obtain ⟨answer, hanswer, houtcome⟩ := Outcome.andThen_eq_ok h
      obtain ⟨entry, hfound, htypes, hdeclared, hcallTags⟩ := invokeAt_type hkeeps hanswer
      rw [houtcome] at h ⊢
      rw [hargumentTags] at hcallTags
      cases answer with
      | none => cases h
      | some result =>
          cases h
          refine ⟨?_, hcallTags⟩
          simp only [staticType, hfound, harguments, htypes, ↓reduceIte]
          exact hdeclared value rfl

theorem evaluateAll_types (hstandard : engine.operators = .standard)
    (hkeeps : engine.registry.KeepsBindings) :
    ∀ (exprs : List Expr) (context : Context) (world : World) (values : List Value),
      (engine.evaluateAll exprs context world).result = .ok values →
        staticTypes engine.registry (tags context) exprs = some (values.map Value.type) ∧
          tags (engine.evaluateAll exprs context world).context = tags context
  | [], _, _, values, h => by
      obtain rfl : [] = values := Except.ok.inj h
      exact ⟨rfl, rfl⟩
  | expr :: rest, context, world, values, h => by
      simp only [Engine.evaluateAll] at h ⊢
      obtain ⟨first, hfirst, houtcome⟩ := Outcome.andThen_eq_ok h
      obtain ⟨hexpr, hexprTags⟩ := evaluate_type hstandard hkeeps expr _ _ _ hfirst
      rw [houtcome] at h ⊢
      obtain ⟨others, hothers, houtcome⟩ := Outcome.andThen_eq_ok h
      obtain ⟨hrest, hrestTags⟩ := evaluateAll_types hstandard hkeeps rest _ _ _ hothers
      simp only [Outcome.map] at h ⊢
      rw [houtcome] at h ⊢
      cases h
      rw [hexprTags] at hrest hrestTags
      refine ⟨?_, hrestTags⟩
      simp only [staticTypes, hexpr, hrest]
      rfl

end

/-- Evaluation preserves types, whatever native code returns: a value has the type of its
expression.  An expression without a type never has a value, and it fails unless something panicked
on the way. -/
theorem evaluation_preserves_types (hstandard : engine.operators = .standard)
    (hkeeps : engine.registry.KeepsBindings) (expr : Expr) (context : Context) (world : World) :
    (∀ value, (engine.evaluate expr context world).result = .ok value →
      staticType engine.registry (tags context) expr = some value.type) ∧
    (staticType engine.registry (tags context) expr = none →
      (∃ failure, (engine.evaluate expr context world).result = .error (.failed failure)) ∨
      (engine.evaluate expr context world).result = .error .panicked ∧
        ¬ (engine.registry.Calm ∧ world.Calm)) := by
  have htype := evaluate_type hstandard hkeeps expr context world
  refine ⟨fun value h => (htype value h).1, ?_⟩
  intro huntyped
  rcases hresult : (engine.evaluate expr context world).result with ⟨failure | _⟩ | value
  · exact .inl ⟨failure, rfl⟩
  · refine .inr ⟨rfl, ?_⟩
    rintro ⟨hregistry, hworld⟩
    exact (Engine.calm_evaluate hregistry expr context hworld).result hresult
  · rw [(htype value hresult).1] at huntyped
    cases huntyped

/-- A function that returns a string where it declares an integer. -/
def liar : NativeFunction where
  spec := ⟨"lab", "lie", [], some "int", true⟩
  run store context _ := ⟨.ok (some (.string "no")), context, store⟩

/-- The only thing an engine of liars can call. -/
def liars : Engine where
  config := .default
  registry := ⟨[⟨⟨⟨"lab", "lie"⟩, [], some .integer, true, .function⟩, .function liar⟩]⟩
  operators := .standard

/-- A lie to which a string is added. -/
def lieAndMore : Expr :=
  .binary .add (.call "lab:lie" [] ⟨"f", 1, 1⟩) (.literal (.string "x")) ⟨"f", 1, 9⟩

theorem keepsBindings_liars : liars.registry.KeepsBindings := by
  intro entry hentry native hnative
  obtain rfl := List.mem_singleton.1 hentry
  cases hnative
  intro store context arguments name
  rfl

theorem calm_liars : liars.registry.Calm := by
  intro entry hentry
  obtain rfl := List.mem_singleton.1 hentry
  intro store context arguments
  rintro ⟨⟩

/-- A lie has the type it declares, so adding a string to it has none, and it fails. -/
theorem evaluation_preserves_types_of_liars :
    liars.operators = .standard ∧ liars.registry.KeepsBindings ∧
      staticType liars.registry (tags (.ofTrace "t")) lieAndMore = none ∧
      ∃ failure, (liars.evaluate lieAndMore (.ofTrace "t") (.start (.ofSlots 1))).result =
        .error (.failed failure) := by
  have huntyped : staticType liars.registry (tags (.ofTrace "t")) lieAndMore = none := by
    decide +kernel
  have hworld : (World.start (.ofSlots 1)).Calm := by
    intro family transport hfind
    cases hfind
  refine ⟨rfl, keepsBindings_liars, huntyped, ?_⟩
  rcases (evaluation_preserves_types rfl keepsBindings_liars lieAndMore (.ofTrace "t")
    (.start (.ofSlots 1))).2 huntyped with hfailed | ⟨-, hpanics⟩
  · exact hfailed
  · exact absurd ⟨calm_liars, hworld⟩ hpanics

end Typing

end Switchboard
