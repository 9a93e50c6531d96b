import Switchboard.Proofs.Library
import Switchboard.Proofs.Typing

/-!
What has a type has a value.

An expression that has a type by what the library declares has a value of this type, in every
context, whatever the messages hold: every variable is there, every operator has a reducer for its
operands, every call is admitted, and every function keeps its word.  The one thing that can still
go wrong is a division of integers by zero.
-/

namespace Switchboard

/-! ## Operations -/

/-- The type of the operands of a pair. -/
def OperandPair.type : OperandPair → ValueType
  | integer => .integer
  | float => .float
  | boolean => .boolean
  | string => .string

/-- Combining operands of this type comes to a value, or divides by zero. -/
def Reducer.Settles (reducer : Reducer) (type : ValueType) : Prop :=
  ∀ left right : Value, left.type = type → right.type = type →
    (∃ value, reducer left right = .ok value) ∨
      ∃ op, reducer left right = .error (.divisionByZero op)

namespace Reducer

theorem settles_lift {A : Type} {contents : Value → Checked A} {combine : A → A → Checked Value}
    {type : ValueType}
    (hcontents : ∀ {value : Value}, value.type = type → ∃ content, contents value = .ok content)
    (hcombine : ∀ a b, (∃ value, combine a b = .ok value) ∨
      ∃ op, combine a b = .error (.divisionByZero op)) : (lift contents combine).Settles type := by
  intro left right hleft hright
  obtain ⟨a, ha⟩ := hcontents hleft
  obtain ⟨b, hb⟩ := hcontents hright
  simp only [lift]
  rw [ha, hb]
  exact hcombine a b

theorem settles_onIntegers (combine : Int64 → Int64 → Value) :
    (onIntegers combine).Settles .integer :=
  settles_lift Value.asInteger_of_type fun _ _ => .inl ⟨_, rfl⟩

theorem settles_dividing (op : Operator) (combine : Int64 → Int64 → Int64) :
    (dividing op combine).Settles .integer := by
  apply settles_lift Value.asInteger_of_type
  intro a b
  by_cases hzero : b = 0
  · rw [if_pos hzero]
    exact .inr ⟨op, rfl⟩
  · rw [if_neg hzero]
    exact .inl ⟨_, rfl⟩

theorem settles_onFloats (combine : Float → Float → Value) : (onFloats combine).Settles .float :=
  settles_lift Value.asFloat_of_type fun _ _ => .inl ⟨_, rfl⟩

theorem settles_onBooleans (combine : Bool → Bool → Bool) :
    (onBooleans combine).Settles .boolean :=
  settles_lift Value.asBoolean_of_type fun _ _ => .inl ⟨_, rfl⟩

theorem settles_onStrings (combine : String → String → Bool) :
    (onStrings combine).Settles .string :=
  settles_lift Value.asString_of_type fun _ _ => .inl ⟨_, rfl⟩

end Reducer

namespace Typing

/-- Where an operation on a pair has a type there is a reducer for it. -/
theorem exists_reducer {op : Operator} {pair : OperandPair} {type : ValueType}
    (htype : pairType op pair = some type) :
    ∃ reducer, OperatorTable.standard.reducer? op pair = some reducer ∧
      reducer.Settles pair.type := by
  cases pair with
  | integer =>
      cases op with
      | and | or => cases htype
      | divide | modulo => exact ⟨_, rfl, Reducer.settles_dividing _ _⟩
      | _ => exact ⟨_, rfl, Reducer.settles_onIntegers _⟩
  | float =>
      cases op with
      | and | or => cases htype
      | _ => exact ⟨_, rfl, Reducer.settles_onFloats _⟩
  | boolean =>
      cases op with
      | equal | notEqual | and | or => exact ⟨_, rfl, Reducer.settles_onBooleans _⟩
      | _ => cases htype
  | string =>
      cases op with
      | equal | notEqual | lessThan | greaterThan | lessThanEqual | greaterThanEqual =>
          exact ⟨_, rfl, Reducer.settles_onStrings _⟩
      | _ => cases htype

/-- Operands of an operation that has a type form a pair. -/
theorem exists_pair {op : Operator} {left right : Value} {type : ValueType}
    (htype : operationType op left.type right.type = some type) :
    ∃ pair, OperandPair.of? left right = some pair := by
  cases left with
  | integer | float =>
      cases right with
      | integer | float => exact ⟨_, rfl⟩
      | _ => cases htype
  | boolean =>
      cases right with
      | boolean => exact ⟨_, rfl⟩
      | _ => cases htype
  | string =>
      cases right with
      | string => exact ⟨_, rfl⟩
      | _ => cases htype
  | map | message | connector => cases right <;> cases htype

/-- The operands that a reducer is given are of the type of its pair. -/
theorem operands_type {left right : Value} {pair : OperandPair}
    (hpair : OperandPair.of? left right = some pair) :
    (pair = .float → left.promote.type = pair.type ∧ right.promote.type = pair.type) ∧
      (pair ≠ .float → left.type = pair.type ∧ right.type = pair.type) := by
  simp only [OperandPair.of?] at hpair
  split at hpair <;> cases hpair <;> simp [Value.promote, Value.type, OperandPair.type]

/-- An operation that has a type comes to a value of this type, or divides by zero. -/
theorem apply_settles {op : Operator} {left right : Value} {type : ValueType}
    (htype : operationType op left.type right.type = some type) :
    (∃ value, OperatorTable.standard.apply op left right = .ok value ∧ value.type = type) ∨
      ∃ other, OperatorTable.standard.apply op left right = .error (.divisionByZero other) := by
  obtain ⟨pair, hpair⟩ := exists_pair htype
  have hpairType := htype
  rw [operationType_of_pair hpair] at hpairType
  obtain ⟨reducer, hreducer, hsettles⟩ := exists_reducer hpairType
  obtain ⟨hpromoted, hplain⟩ := operands_type hpair
  have hends : (∃ value, OperatorTable.standard.apply op left right = .ok value) ∨
      ∃ other, OperatorTable.standard.apply op left right = .error (.divisionByZero other) := by
    simp only [OperatorTable.apply]
    rw [hpair]
    dsimp only
    rw [hreducer]
    dsimp only
    by_cases hfloat : pair = .float
    · rw [if_pos hfloat]
      exact hsettles _ _ (hpromoted hfloat).1 (hpromoted hfloat).2
    · rw [if_neg hfloat]
      exact hsettles _ _ (hplain hfloat).1 (hplain hfloat).2
  rcases hends with ⟨value, hvalue⟩ | hdivided
  · have hsame := apply_type hvalue
    rw [htype] at hsame
    exact .inl ⟨value, hvalue, (Option.some.inj hsame).symm⟩
  · exact .inr hdivided

end Typing

/-! ## Evaluation -/

namespace Outcome

variable {A B : Type}

/-- An outcome that is a good value, in the context that was lent, or a division by zero. -/
inductive Settles (good : A → Prop) (context : Context) : Outcome A → Prop
  | value {value : A} {world : World} (hgood : good value) :
      Settles good context ⟨.ok value, context, world⟩
  | divided {failure : Failure} {back : Context} {world : World}
      (hkind : failure.kind = .divisionByZero) :
      Settles good context ⟨.error (.failed failure), back, world⟩

theorem Settles.andThen {good : A → Prop} {better : B → Prop} {context : Context}
    {outcome : Outcome A} {next : A → Context → World → Outcome B}
    (houtcome : outcome.Settles good context)
    (hnext : ∀ value world, good value → (next value context world).Settles better context) :
    (outcome.andThen next).Settles better context := by
  rcases houtcome with hgood | hkind
  · exact hnext _ _ hgood
  · exact .divided hkind

theorem settles_checkedAt {good : A → Prop} {result : Checked A}
    (hresult : (∃ value, result = .ok value ∧ good value) ∨
      ∃ op, result = .error (.divisionByZero op))
    (location : Option Location) (context : Context) (world : World) :
    (checkedAt location result context world).Settles good context := by
  rcases hresult with ⟨value, rfl, hgood⟩ | ⟨op, rfl⟩
  · exact .value hgood
  · exact .divided rfl

end Outcome

namespace Engine

variable {engine : Engine}

/-- A call of a function that keeps its word has a result of the declared type. -/
theorem settles_invokeAt {entry : Entry} {native : NativeFunction} {name : String}
    (hfound : engine.registry.find? name = some entry)
    (hkind : entry.descriptor.kind = .function)
    (hnative : entry.contribution = .function native)
    (hkeeps : native.KeepsWord entry.descriptor) {arguments : List Value}
    (htypes : arguments.map Value.type = entry.descriptor.params.map Param.type)
    (location : Location) (context : Context) (world : World) :
    (engine.invokeAt name arguments (some location) context world).Settles
      (fun value => value.map Value.type = entry.descriptor.returns) context := by
  have hmode : entry.descriptor.checkMode .blocking = .ok () := by
    simp only [Descriptor.checkMode]
    rw [hkind]
  have htarget : entry.contribution.resolveTarget name arguments = .ok (.function native) := by
    rw [hnative]
    rfl
  have hcheck := Registry.check_eq_ok_iff.2 ⟨entry, ⟨hfound, hmode, htarget, htypes⟩, rfl⟩
  obtain ⟨value, left, hrun, hvalue⟩ := hkeeps world.store (context.pushLocation location) arguments
    htypes
  have hreturn : entry.descriptor.checkReturn value = .ok value := by
    refine Descriptor.checkReturn_eq_ok_iff.2 ⟨rfl, ?_⟩
    rintro found rfl
    exact hvalue.symm
  let lent := context.pushLocation location
  have hexecute (between : World) (hstore : between.store = world.store) :
      between.execute native name lent arguments =
        (.ok value, lent, (between.note (.executed name arguments)).withStore left) := by
    have hstart : (between.note (.executed name arguments)).store = world.store := hstore
    simp only [World.execute]
    rw [hstart, hrun]
  have hadmitted := hexecute
    ((world.note (.invoked .blocking name arguments)).emit (.ofDispatch name lent.location?)) rfl
  simp only [invokeAt, invoke]
  rw [hcheck]
  simp only [World.runTarget]
  rw [hadmitted]
  simp only [Descriptor.handOver]
  rw [hreturn]
  exact .value hvalue

mutual

/-- An expression that has a type by what the library declares has a value of this type, or divides
by zero. -/
theorem settles_evaluate (hstandard : engine.operators = .standard) {library : Registry}
    (hprovides : engine.Provides library) :
    ∀ (expr : Expr) (context : Context) (world : World) (type : ValueType),
      Typing.staticType library (Typing.tags context) expr = some type →
        (engine.evaluate expr context world).Settles (fun value => value.type = type) context
  | .literal literal, context, world, type, htype => .value (Option.some.inj htype)
  | .var name location, context, world, type, htype => by
      apply Outcome.settles_checkedAt
      obtain ⟨value, hvalue, rfl⟩ := Option.map_eq_some_iff.1 htype
      simp only [Context.get]
      rw [hvalue]
      exact .inl ⟨value, rfl, rfl⟩
  | .binary op left right location, context, world, type, htype => by
      simp only [Typing.staticType] at htype
      split at htype
      · next leftType rightType hleft hright =>
        apply (settles_evaluate hstandard hprovides left context world leftType hleft).andThen
        rintro leftValue world rfl
        apply (settles_evaluate hstandard hprovides right context world rightType hright).andThen
        rintro rightValue world rfl
        apply Outcome.settles_checkedAt
        rw [hstandard]
        exact Typing.apply_settles htype
      · cases htype
  | .call function arguments location, context, world, type, htype => by
      simp only [Typing.staticType] at htype
      split at htype
      · next entry types hfound harguments =>
        split at htype
        · next hdeclared =>
          obtain ⟨hregistered, hkind, native, hnative, hkeeps⟩ := hprovides function entry hfound
          apply (settles_evaluateAll hstandard hprovides arguments context world types
            harguments).andThen
          rintro values world rfl
          apply (settles_invokeAt hregistered hkind hnative hkeeps hdeclared location context
            world).andThen
          intro value world hvalue
          rw [htype] at hvalue
          obtain ⟨found, rfl, hfound⟩ := Option.map_eq_some_iff.1 hvalue
          exact .value hfound
        · cases htype
      · cases htype

theorem settles_evaluateAll (hstandard : engine.operators = .standard) {library : Registry}
    (hprovides : engine.Provides library) :
    ∀ (exprs : List Expr) (context : Context) (world : World) (types : List ValueType),
      Typing.staticTypes library (Typing.tags context) exprs = some types →
        (engine.evaluateAll exprs context world).Settles
          (fun values => values.map Value.type = types) context
  | [], context, world, types, htypes => .value (Option.some.inj htypes)
  | expr :: rest, context, world, types, htypes => by
      simp only [Typing.staticTypes] at htypes
      split at htypes
      · next type others hexpr hrest =>
        cases htypes
        apply (settles_evaluate hstandard hprovides expr context world type hexpr).andThen
        rintro value world rfl
        apply (settles_evaluateAll hstandard hprovides rest context world others hrest).andThen
        rintro values world rfl
        exact .value rfl
      · cases htypes

end

/-- In a system with the library, an expression that has a type by what the functions of the library
declare evaluates to a value of this type or fails with a division by zero, in every context and
whatever the messages hold.  It fails in no other way, and it does not panic. -/
theorem typed_expressions_make_progress {blueprint : Blueprint} {engine : Engine} {start : World}
    (hbuild : blueprint.build = .ok (engine, start)) {library : Registry}
    (hlibrary : Registry.build Library.functions = .ok library) (expr : Expr) (context : Context)
    (world : World) (type : ValueType)
    (htype : Typing.staticType library (Typing.tags context) expr = some type) :
    (∃ value, (engine.evaluate expr context world).result = .ok value ∧ value.type = type) ∨
      ∃ failure, (engine.evaluate expr context world).result = .error (.failed failure) ∧
        failure.kind = .divisionByZero := by
  have hsettles := settles_evaluate (Blueprint.build_eq_ok hbuild).2.2
    (Blueprint.provides_library hbuild hlibrary) expr context world type htype
  generalize engine.evaluate expr context world = outcome at hsettles ⊢
  rcases hsettles with hgood | hkind
  · exact .inl ⟨_, rfl, hgood⟩
  · exact .inr ⟨_, rfl, hkind⟩

/-- The length of a string, divided by zero. -/
def lengthByZero : Expr :=
  .binary .divide (.call "lang.string:length" [.literal (.string "ab")] ⟨"f", 1, 1⟩)
    (.literal (.integer 0)) ⟨"f", 1, 26⟩

/-- Whether a system and its library were built in which this expression is an integer. -/
def typesAsInteger (expr : Expr) (context : Context) :
    Except (Halt Error) (Engine × World) → Except RegistryFault Registry → Bool
  | .ok _, .ok library =>
      decide (Typing.staticType library (Typing.tags context) expr = some .integer)
  | _, _ => false

/-- The length of a string divided by zero is an integer, as far as types go. -/
theorem typed_expressions_make_progress_by_zero :
    ∃ engine start library, (Blueprint.ofConfig .default).build = .ok (engine, start) ∧
      Registry.build Library.functions = .ok library ∧
      Typing.staticType library (Typing.tags (.ofTrace "t")) lengthByZero = some .integer ∧
      ((∃ value, (engine.evaluate lengthByZero (.ofTrace "t") start).result = .ok value ∧
          value.type = .integer) ∨
        ∃ failure, (engine.evaluate lengthByZero (.ofTrace "t") start).result =
            .error (.failed failure) ∧ failure.kind = .divisionByZero) := by
  have htyped : typesAsInteger lengthByZero (.ofTrace "t") (Blueprint.ofConfig .default).build
      (Registry.build Library.functions) = true := by decide +kernel
  simp only [typesAsInteger] at htyped
  split at htyped
  · next parts library hbuild hlibrary =>
    have htype := of_decide_eq_true htyped
    exact ⟨parts.1, parts.2, library, hbuild, hlibrary, htype,
      typed_expressions_make_progress hbuild hlibrary lengthByZero (.ofTrace "t") parts.2 .integer
        htype⟩
  · cases htyped

end Engine

end Switchboard
