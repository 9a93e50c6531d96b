import Switchboard.Admission

/-!
Which calls are admitted.

The checks of a call are made one after the other, but what they come to together is one statement
about the call: the name is registered, the mode is supported, the connector fits, and the tags of
the arguments are the declared ones, in number and kind.
-/

namespace Switchboard

theorem Except.bind_eq_ok {E A B : Type} {first : Except E A} {next : A → Except E B}
    {result : B} :
    (first >>= next) = .ok result ↔ ∃ value, first = .ok value ∧ next value = .ok result := by
  cases first with
  | error fault =>
      constructor
      · intro h
        cases h
      · rintro ⟨_, ⟨⟩, _⟩
  | ok value =>
      constructor
      · intro h
        exact ⟨value, rfl, h⟩
      · rintro ⟨_, ⟨⟩, h⟩
        exact h

namespace Descriptor

theorem checkArity_eq_ok_iff {descriptor : Descriptor} {arguments : List Value} :
    descriptor.checkArity arguments = .ok () ↔ arguments.length = descriptor.arity := by
  simp only [checkArity]
  split
  · next h => exact ⟨fun _ => h, fun _ => rfl⟩
  · next h =>
    constructor
    · intro hok
      cases hok
    · intro hlength
      exact absurd hlength h

theorem checkTypes_eq_ok_iff {function : String} {index : Nat} {params : List Param}
    {arguments : List Value} (hlength : arguments.length = params.length) :
    checkTypes function index params arguments = .ok () ↔
      arguments.map Value.type = params.map Param.type := by
  induction params generalizing index arguments with
  | nil =>
      have hnil : arguments = [] := List.eq_nil_of_length_eq_zero hlength
      subst hnil
      exact ⟨fun _ => rfl, fun _ => rfl⟩
  | cons param params ih =>
      cases arguments with
      | nil => cases hlength
      | cons argument arguments =>
          have hrest : arguments.length = params.length := Nat.succ.inj hlength
          simp only [checkTypes]
          rw [List.map_cons, List.map_cons, List.cons.injEq]
          by_cases htype : argument.type = param.type
          · rw [if_pos htype, ih hrest]
            exact ⟨fun h => ⟨htype, h⟩, fun h => h.2⟩
          · rw [if_neg htype]
            constructor
            · intro h
              cases h
            · intro h
              exact absurd h.1 htype

theorem checkReturn_eq_ok_iff {descriptor : Descriptor} {value result : Option Value} :
    descriptor.checkReturn value = .ok result ↔
      result = value ∧ ∀ found, value = some found → descriptor.returns = some found.type := by
  simp only [checkReturn]
  constructor
  · intro h
    split at h
    · next expected found hreturns =>
      split at h
      · next htype =>
        refine ⟨(Except.ok.inj h).symm, ?_⟩
        rintro _ ⟨⟩
        rw [hreturns, htype]
      · cases h
    · cases h
    · exact ⟨(Except.ok.inj h).symm, fun _ hfound => nomatch hfound⟩
  · rintro ⟨rfl, hdeclared⟩
    split
    · next hreturns =>
      have hsame := hreturns.symm.trans (hdeclared _ rfl)
      rw [if_pos (Option.some.inj hsame).symm]
    · next hreturns =>
      have hsome := hreturns.symm.trans (hdeclared _ rfl)
      cases hsome
    · rfl

end Descriptor

/-- The connector that an action resolves heads the arguments and is of its family. -/
theorem Action.resolveConnector_eq_ok {native : Action} {name : String} {arguments : List Value}
    {connector : Connector} (h : native.resolveConnector name arguments = .ok connector) :
    arguments.head? = some (.connector connector) ∧ connector.family = native.family := by
  simp only [resolveConnector] at h
  split at h
  · split at h
    · next hfamily =>
      cases h
      exact ⟨rfl, hfamily⟩
    · cases h
  · cases h
  · cases h

/-- What an admitted call runs is what was registered, with the connector it heads the arguments
with. -/
theorem Contribution.resolveTarget_eq_ok {contribution : Contribution} {name : String}
    {arguments : List Value} {target : Target}
    (h : contribution.resolveTarget name arguments = .ok target) :
    (∃ native, contribution = .function native ∧ target = .function native) ∨
      ∃ native connector, contribution = .action native ∧ target = .action native connector ∧
        native.resolveConnector name arguments = .ok connector := by
  cases contribution with
  | function native => exact .inl ⟨native, rfl, (Except.ok.inj h).symm⟩
  | action native =>
      obtain ⟨connector, hconnector, htarget⟩ := Except.bind_eq_ok.1 h
      exact .inr ⟨native, connector, rfl, (Except.ok.inj htarget).symm, hconnector⟩

namespace Registry

/-- A call that passes every check. -/
structure Admits (registry : Registry) (mode : CallMode) (name : String) (arguments : List Value)
    (entry : Entry) (target : Target) : Prop where
  found : registry.find? name = some entry
  mode : entry.descriptor.checkMode mode = .ok ()
  target : entry.contribution.resolveTarget name arguments = .ok target
  types : arguments.map Value.type = entry.descriptor.params.map Param.type

theorem Admits.mem {registry : Registry} {mode : CallMode} {name : String}
    {arguments : List Value} {entry : Entry} {target : Target}
    (h : registry.Admits mode name arguments entry target) : entry ∈ registry.entries :=
  List.mem_of_find?_eq_some h.found

theorem check_eq_ok_iff {registry : Registry} {mode : CallMode} {name : String}
    {arguments : List Value} {descriptor : Descriptor} {target : Target} :
    registry.check mode name arguments = .ok (descriptor, target) ↔
      ∃ entry, registry.Admits mode name arguments entry target ∧
        entry.descriptor = descriptor := by
  simp only [check]
  constructor
  · intro h
    split at h
    · cases h
    · next entry hfound =>
      obtain ⟨⟨⟩, hmode, h⟩ := Except.bind_eq_ok.1 h
      obtain ⟨found, htarget, h⟩ := Except.bind_eq_ok.1 h
      obtain ⟨⟨⟩, harity, h⟩ := Except.bind_eq_ok.1 h
      obtain ⟨⟨⟩, htypes, h⟩ := Except.bind_eq_ok.1 h
      obtain ⟨hdescriptor, rfl⟩ := Prod.mk.inj (Except.ok.inj h)
      have hlength := Descriptor.checkArity_eq_ok_iff.1 harity
      have hsame := (Descriptor.checkTypes_eq_ok_iff hlength).1 htypes
      exact ⟨entry, ⟨hfound, hmode, htarget, hsame⟩, hdescriptor⟩
  · rintro ⟨entry, hadmits, rfl⟩
    have hlength : arguments.length = entry.descriptor.arity := by
      have hlengths := congrArg List.length hadmits.types
      rwa [List.length_map, List.length_map] at hlengths
    have harity := Descriptor.checkArity_eq_ok_iff.2 hlength
    have htypes := (@Descriptor.checkTypes_eq_ok_iff name 0 _ _ hlength).2 hadmits.types
    rw [hadmits.found]
    apply Except.bind_eq_ok.2 ⟨(), hadmits.mode, _⟩
    apply Except.bind_eq_ok.2 ⟨target, hadmits.target, _⟩
    apply Except.bind_eq_ok.2 ⟨(), harity, _⟩
    exact Except.bind_eq_ok.2 ⟨(), htypes, rfl⟩

end Registry

end Switchboard
