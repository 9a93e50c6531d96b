import Switchboard.Proofs.Admission

/-!
What is wrong with a call.

A call can be wrong in several ways at once.  An objection is one of them, said by itself, whatever
the other checks have to say.  The checks have ranks, and a call is refused with the objection of
the least rank; it is admitted exactly when no check objects.
-/

namespace Switchboard

/-- The checks of a call. -/
inductive Check where
  | name
  | mode
  | connector
  | arity
  | types
deriving DecidableEq, Repr

/-- The place of a check in their order. -/
def Check.rank : Check → Nat
  | .name => 0
  | .mode => 1
  | .connector => 2
  | .arity => 3
  | .types => 4

theorem Check.rank_injective {left right : Check} (h : left.rank = right.rank) :
    left = right := by
  cases left <;> cases right <;> simp_all [rank]

/-- What stands in the first place of these arguments, when it is not a connector of the family. -/
inductive Misplaced (family : String) : List Value → String → Prop
  | absent : Misplaced family [] "nothing"
  | other {value : Value} {rest : List Value} (htype : value.type ≠ .connector) :
      Misplaced family (value :: rest) value.type.name
  | stranger {connector : Connector} {rest : List Value} (hfamily : connector.family ≠ family) :
      Misplaced family (.connector connector :: rest)
        s!"{connector.family} connector '{connector.name}'"

/-- The argument at this position is not of the type of its parameter, and it is the first one that
is not. -/
structure FirstMismatch (params : List Param) (arguments : List Value) (index : Nat)
    (param : Param) (argument : Value) : Prop where
  atParam : params[index]? = some param
  atArgument : arguments[index]? = some argument
  differs : argument.type ≠ param.type
  least : ∀ (earlier : Nat) (expected : Param) (found : Value), earlier < index →
    params[earlier]? = some expected → arguments[earlier]? = some found →
      found.type = expected.type

namespace FirstMismatch

variable {head param : Param} {params : List Param} {first argument : Value}
  {arguments : List Value} {index : Nat}

/-- Behind an argument of the right type the search goes on. -/
theorem cons_iff_of_eq (htype : first.type = head.type) :
    FirstMismatch (head :: params) (first :: arguments) index param argument ↔
      ∃ rest, index = rest + 1 ∧ FirstMismatch params arguments rest param argument := by
  constructor
  · intro h
    cases index with
    | zero =>
        obtain rfl := Option.some.inj h.atParam
        obtain rfl := Option.some.inj h.atArgument
        exact absurd htype h.differs
    | succ rest =>
        refine ⟨rest, rfl, h.atParam, h.atArgument, h.differs, ?_⟩
        intro earlier expected found hearlier hparam hargument
        exact h.least (earlier + 1) expected found (Nat.succ_lt_succ hearlier) hparam hargument
  · rintro ⟨rest, rfl, h⟩
    refine ⟨h.atParam, h.atArgument, h.differs, ?_⟩
    intro earlier expected found hearlier hparam hargument
    cases earlier with
    | zero =>
        obtain rfl := Option.some.inj hparam
        obtain rfl := Option.some.inj hargument
        exact htype
    | succ earlier =>
        exact h.least earlier expected found (Nat.lt_of_succ_lt_succ hearlier) hparam hargument

/-- At an argument of another type it ends. -/
theorem cons_iff_of_ne (htype : first.type ≠ head.type) :
    FirstMismatch (head :: params) (first :: arguments) index param argument ↔
      index = 0 ∧ param = head ∧ argument = first := by
  constructor
  · intro h
    cases index with
    | zero => exact ⟨rfl, (Option.some.inj h.atParam).symm, (Option.some.inj h.atArgument).symm⟩
    | succ rest => exact absurd (h.least 0 head first (Nat.succ_pos rest) rfl rfl) htype
  · rintro ⟨rfl, rfl, rfl⟩
    refine ⟨rfl, rfl, htype, ?_⟩
    intro earlier _ _ hearlier
    exact absurd hearlier (Nat.not_lt_zero earlier)

end FirstMismatch

/-- What a check has against a call. -/
inductive Objection (registry : Registry) (mode : CallMode) (name : String)
    (arguments : List Value) : Check → Fault → Prop
  | unknown (hfound : registry.find? name = none) :
      Objection registry mode name arguments .name (.unknownFunction name)
  | mode {entry : Entry} {family : String} {modes : CallModes}
      (hfound : registry.find? name = some entry)
      (hkind : entry.descriptor.kind = .action family modes)
      (hmodes : modes.supports mode = false) :
      Objection registry mode name arguments .mode (.unsupportedCallMode name mode)
  | connector {entry : Entry} {native : Action} {found : String}
      (hfound : registry.find? name = some entry)
      (hnative : entry.contribution = .action native)
      (hmisplaced : Misplaced native.family arguments found) :
      Objection registry mode name arguments .connector
        (.connectorTypeMismatch name native.family found)
  | arity {entry : Entry} (hfound : registry.find? name = some entry)
      (hlength : arguments.length ≠ entry.descriptor.params.length) :
      Objection registry mode name arguments .arity
        (.arityMismatch name entry.descriptor.params.length arguments.length)
  | types {entry : Entry} {index : Nat} {param : Param} {argument : Value}
      (hfound : registry.find? name = some entry)
      (hmismatch : FirstMismatch entry.descriptor.params arguments index param argument) :
      Objection registry mode name arguments .types
        (.argumentTypeMismatch name index param.type argument.type)

namespace Registry

variable (registry : Registry) (mode : CallMode) (name : String) (arguments : List Value)

/-- The first check that objects does so with this fault. -/
def Refuses (fault : Fault) : Prop :=
  ∃ check, Objection registry mode name arguments check fault ∧
    ∀ earlier other, earlier.rank < check.rank →
      ¬ Objection registry mode name arguments earlier other

end Registry

/-! ## One check at a time -/

theorem Value.exists_of_type_eq_connector {value : Value} (h : value.type = .connector) :
    ∃ connector, value = .connector connector := by
  cases value with
  | connector handle => exact ⟨handle, rfl⟩
  | _ => cases h

theorem Action.resolveConnector_eq_error_iff {native : Action} {name : String}
    {arguments : List Value} {fault : Fault} :
    native.resolveConnector name arguments = .error fault ↔
      ∃ found, Misplaced native.family arguments found ∧
        fault = .connectorTypeMismatch name native.family found := by
  constructor
  · intro h
    simp only [resolveConnector] at h
    split at h
    · split at h
      · cases h
      · next hfamily => exact ⟨_, .stranger hfamily, (Except.error.inj h).symm⟩
    · next value rest hvalue =>
      refine ⟨_, .other ?_, (Except.error.inj h).symm⟩
      intro htype
      obtain ⟨connector, rfl⟩ := Value.exists_of_type_eq_connector htype
      exact hvalue connector rfl
    · exact ⟨_, .absent, (Except.error.inj h).symm⟩
  · rintro ⟨found, hmisplaced, rfl⟩
    rcases hmisplaced with - | @⟨value, rest, htype⟩ | hfamily
    · rfl
    · cases value with
      | connector => exact absurd rfl htype
      | _ => rfl
    · simp only [resolveConnector]
      rw [if_neg hfamily]

namespace Descriptor

variable {descriptor : Descriptor} {arguments : List Value} {fault : Fault}

theorem checkMode_eq_error_iff {mode : CallMode} :
    descriptor.checkMode mode = .error fault ↔
      (∃ family modes, descriptor.kind = .action family modes ∧ modes.supports mode = false) ∧
        fault = .unsupportedCallMode descriptor.name.text mode := by
  simp only [checkMode]
  rcases descriptor.kind with - | ⟨family, modes⟩
  · constructor
    · rintro ⟨⟩
    · rintro ⟨⟨_, _, ⟨⟩, _⟩, _⟩
  · dsimp only
    split
    · next hmodes =>
      constructor
      · rintro ⟨⟩
      · rintro ⟨⟨_, _, ⟨⟩, hunsupported⟩, _⟩
        rw [hmodes] at hunsupported
        cases hunsupported
    · next hmodes =>
      constructor
      · intro h
        exact ⟨⟨family, modes, rfl, Bool.not_eq_true _ ▸ hmodes⟩, (Except.error.inj h).symm⟩
      · rintro ⟨-, rfl⟩
        rfl

theorem checkArity_eq_error_iff :
    descriptor.checkArity arguments = .error fault ↔
      arguments.length ≠ descriptor.params.length ∧
        fault = .arityMismatch descriptor.name.text descriptor.params.length
          arguments.length := by
  simp only [checkArity]
  split
  · next hlength =>
    constructor
    · rintro ⟨⟩
    · rintro ⟨hdiffers, -⟩
      exact absurd hlength hdiffers
  · next hlength =>
    constructor
    · intro h
      exact ⟨hlength, (Except.error.inj h).symm⟩
    · rintro ⟨-, rfl⟩
      rfl

/-- The check of types walks along the arguments, so what it finds first is the least. -/
theorem checkTypes_eq_error_iff {function : String} {start : Nat} {params : List Param} :
    checkTypes function start params arguments = .error fault ↔
      ∃ index param argument, FirstMismatch params arguments index param argument ∧
        fault = .argumentTypeMismatch function (start + index) param.type argument.type := by
  induction params generalizing start arguments with
  | nil =>
      constructor
      · rintro ⟨⟩
      · rintro ⟨index, param, argument, hmismatch, -⟩
        exact absurd hmismatch.atParam (by simp)
  | cons head params ih =>
      rcases arguments with - | ⟨first, arguments⟩
      · constructor
        · rintro ⟨⟩
        · rintro ⟨index, param, argument, hmismatch, -⟩
          exact absurd hmismatch.atArgument (by simp)
      · simp only [checkTypes]
        by_cases htype : first.type = head.type
        · rw [if_pos htype, ih]
          simp only [FirstMismatch.cons_iff_of_eq htype]
          constructor
          · rintro ⟨index, param, argument, hmismatch, hfault⟩
            refine ⟨index + 1, param, argument, ⟨index, rfl, hmismatch⟩, ?_⟩
            rw [hfault, Nat.add_assoc, Nat.add_comm 1 index]
          · rintro ⟨-, param, argument, ⟨index, rfl, hmismatch⟩, hfault⟩
            refine ⟨index, param, argument, hmismatch, ?_⟩
            rw [hfault, Nat.add_assoc, Nat.add_comm 1 index]
        · rw [if_neg htype]
          simp only [FirstMismatch.cons_iff_of_ne htype]
          constructor
          · intro h
            exact ⟨0, head, first, ⟨rfl, rfl, rfl⟩, (Except.error.inj h).symm⟩
          · rintro ⟨-, -, -, ⟨rfl, rfl, rfl⟩, rfl⟩
            rfl

end Descriptor

theorem Contribution.resolveTarget_eq_error_iff {contribution : Contribution} {name : String}
    {arguments : List Value} {fault : Fault} :
    contribution.resolveTarget name arguments = .error fault ↔
      ∃ native found, contribution = .action native ∧
        Misplaced native.family arguments found ∧
        fault = .connectorTypeMismatch name native.family found := by
  rcases contribution with native | native
  · simp [resolveTarget]
  · have hconnector := @Action.resolveConnector_eq_error_iff native name arguments fault
    have hbind : (Contribution.action native).resolveTarget name arguments = .error fault ↔
        native.resolveConnector name arguments = .error fault := by
      simp only [resolveTarget]
      rcases native.resolveConnector name arguments with refusal | connector
      · exact ⟨fun h => congrArg Except.error (Except.error.inj h),
          fun h => congrArg Except.error (Except.error.inj h)⟩
      · constructor <;> rintro ⟨⟩
    rw [hbind, hconnector]
    constructor
    · rintro ⟨found, hmisplaced, hfault⟩
      exact ⟨native, found, rfl, hmisplaced, hfault⟩
    · rintro ⟨_, found, ⟨⟩, hmisplaced, hfault⟩
      exact ⟨found, hmisplaced, hfault⟩

/-! ## The first objection -/

namespace Registry

variable {registry : Registry} {mode : CallMode} {name : String} {arguments : List Value}
  {entry : Entry} {fault : Fault}

theorem name_of_find? (hfound : registry.find? name = some entry) :
    entry.descriptor.name.text = name := by
  simp only [find?] at hfound
  have hkey := List.find?_some hfound
  exact eq_of_beq hkey

section Found

variable (hfound : registry.find? name = some entry)

include hfound

theorem objection_mode_iff :
    Objection registry mode name arguments .mode fault ↔
      entry.descriptor.checkMode mode = .error fault := by
  rw [Descriptor.checkMode_eq_error_iff, name_of_find? hfound]
  constructor
  · rintro ⟨⟩
    next hother hkind hmodes =>
      obtain rfl := Option.some.inj (hfound.symm.trans hother)
      exact ⟨⟨_, _, hkind, hmodes⟩, rfl⟩
  · rintro ⟨⟨family, modes, hkind, hmodes⟩, rfl⟩
    exact .mode hfound hkind hmodes

theorem objection_connector_iff :
    Objection registry mode name arguments .connector fault ↔
      entry.contribution.resolveTarget name arguments = .error fault := by
  rw [Contribution.resolveTarget_eq_error_iff]
  constructor
  · rintro ⟨⟩
    next hother hnative hmisplaced =>
      obtain rfl := Option.some.inj (hfound.symm.trans hother)
      exact ⟨_, _, hnative, hmisplaced, rfl⟩
  · rintro ⟨native, found, hnative, hmisplaced, rfl⟩
    exact .connector hfound hnative hmisplaced

theorem objection_arity_iff :
    Objection registry mode name arguments .arity fault ↔
      entry.descriptor.checkArity arguments = .error fault := by
  rw [Descriptor.checkArity_eq_error_iff, name_of_find? hfound]
  constructor
  · rintro ⟨⟩
    next hother hlength =>
      obtain rfl := Option.some.inj (hfound.symm.trans hother)
      exact ⟨hlength, rfl⟩
  · rintro ⟨hlength, rfl⟩
    exact .arity hfound hlength

theorem objection_types_iff :
    Objection registry mode name arguments .types fault ↔
      Descriptor.checkTypes name 0 entry.descriptor.params arguments = .error fault := by
  rw [Descriptor.checkTypes_eq_error_iff]
  constructor
  · rintro ⟨⟩
    next index _ _ hother hmismatch =>
      obtain rfl := Option.some.inj (hfound.symm.trans hother)
      refine ⟨index, _, _, hmismatch, ?_⟩
      rw [Nat.zero_add]
  · rintro ⟨index, param, argument, hmismatch, rfl⟩
    rw [Nat.zero_add]
    exact .types hfound hmismatch

theorem not_objection_name : ¬ Objection registry mode name arguments .name fault := by
  rintro ⟨⟩
  next hnone =>
    rw [hfound] at hnone
    cases hnone

end Found

/-- A check objects with one fault at most. -/
theorem objection_unique {check : Check} {other : Fault}
    (h : Objection registry mode name arguments check fault)
    (hother : Objection registry mode name arguments check other) : fault = other := by
  rcases hfound : registry.find? name with - | entry
  · cases h with
    | unknown =>
        cases hother
        rfl
    | mode hentry | connector hentry | arity hentry | types hentry =>
        rw [hfound] at hentry
        cases hentry
  · cases check with
    | name => exact absurd h (not_objection_name hfound)
    | mode =>
        rw [objection_mode_iff hfound] at h hother
        exact Except.error.inj (h.symm.trans hother)
    | connector =>
        rw [objection_connector_iff hfound] at h hother
        exact Except.error.inj (h.symm.trans hother)
    | arity =>
        rw [objection_arity_iff hfound] at h hother
        exact Except.error.inj (h.symm.trans hother)
    | types =>
        rw [objection_types_iff hfound] at h hother
        exact Except.error.inj (h.symm.trans hother)

/-- A call is refused with one fault at most. -/
theorem Refuses.unique {other : Fault} (h : registry.Refuses mode name arguments fault)
    (hother : registry.Refuses mode name arguments other) : fault = other := by
  obtain ⟨check, hobjects, hfirst⟩ := h
  obtain ⟨check', hobjects', hfirst'⟩ := hother
  rcases Nat.lt_trichotomy check.rank check'.rank with hlt | heq | hgt
  · exact absurd hobjects (hfirst' check fault hlt)
  · obtain rfl := Check.rank_injective heq
    exact objection_unique hobjects hobjects'
  · exact absurd hobjects' (hfirst check' other hgt)

/-! ### One check after the other -/

/-- No check before this one objects. -/
def Passes (registry : Registry) (mode : CallMode) (name : String) (arguments : List Value)
    (check : Check) : Prop :=
  ∀ earlier fault, earlier.rank < check.rank →
    ¬ Objection registry mode name arguments earlier fault

/-- When a check does not object either, it is the turn of the next one. -/
theorem Passes.next {check next : Check} (h : registry.Passes mode name arguments check)
    (hnext : next.rank = check.rank + 1)
    (hnone : ∀ fault, ¬ Objection registry mode name arguments check fault) :
    registry.Passes mode name arguments next := by
  intro earlier fault hearlier
  rw [hnext] at hearlier
  rcases Nat.lt_or_eq_of_le (Nat.le_of_lt_succ hearlier) with hlt | heq
  · exact h earlier fault hlt
  · obtain rfl := Check.rank_injective heq
    exact hnone fault

end Registry

end Switchboard
