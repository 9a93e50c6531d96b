import Mathlib.Data.List.Forall2
import Switchboard.Proofs.Names
import Switchboard.Proofs.Startup

/-!
Contributions by themselves.

A contribution is valid when its name follows the patterns, the types of its parameters and of its
result are known, and, for an action, a connector comes first and some way of calling is supported.
A valid contribution has a descriptor that says what the contribution says of itself; any other has
a first fault, in this order of the checks.
-/

namespace Switchboard

/-! ## Names of types -/

namespace ValueType

/-- The tag is spelled so, in any letter case. -/
def IsSpelled (text : String) (type : ValueType) : Prop :=
  Text.asciiLower text ∈ type.spellings

/-- Some tag is spelled so. -/
def IsKnown (text : String) : Prop :=
  ∃ type, IsSpelled text type

theorem mem_all (type : ValueType) : type ∈ all := by
  cases type <;> decide

/-- No two tags share a spelling. -/
theorem find?_spelling : ∀ type ∈ all, ∀ spelling ∈ type.spellings,
    all.find? (fun tag => tag.spellings.contains spelling) = some type := by
  decide +kernel

theorem ofName?_eq_some_iff {text : String} {type : ValueType} :
    ofName? text = some type ↔ IsSpelled text type := by
  constructor
  · intro h
    have hcontains := List.find?_some h
    exact List.contains_iff_mem.1 hcontains
  · intro h
    exact find?_spelling type (mem_all type) _ h

theorem ofName?_eq_none {text : String} (h : ¬ IsKnown text) : ofName? text = none := by
  rcases hname : ofName? text with _ | type
  · rfl
  · exact absurd ⟨type, ofName?_eq_some_iff.1 hname⟩ h

end ValueType

/-- The parameter is what was declared, with a type for its name. -/
structure Param.Resolves (declared : String × String) (param : Param) : Prop where
  name : param.name = declared.1
  type : ValueType.IsSpelled declared.2 param.type

namespace Contribution

open ValueType

/-! ## What a valid contribution is -/

/-- The name under which a contribution is registered. -/
def qualifiedName (contribution : Contribution) : QualifiedName :=
  contribution.spec.qualifiedName

/-- Every parameter has a type. -/
def ParamsKnown (contribution : Contribution) : Prop :=
  ∀ param ∈ contribution.spec.params, IsKnown param.2

/-- The result has a type, or there is none. -/
def ReturnsKnown (contribution : Contribution) : Prop :=
  ∀ typeName ∈ contribution.spec.returns, IsKnown typeName

/-- An action takes a connector first. -/
def TakesConnector (contribution : Contribution) : Prop :=
  ∀ native, contribution = .action native →
    ∃ first rest, contribution.spec.params = first :: rest ∧ IsSpelled first.2 .connector

/-- An action supports some way of calling. -/
def SupportsMode (contribution : Contribution) : Prop :=
  ∀ native, contribution = .action native → ∃ mode, native.modes.supports mode = true

/-- A contribution that can be registered where its name is free. -/
structure Valid (contribution : Contribution) : Prop where
  name : contribution.qualifiedName.FollowsPatterns
  params : contribution.ParamsKnown
  returns : contribution.ReturnsKnown
  connector : contribution.TakesConnector
  modes : contribution.SupportsMode

/-- The first thing that is wrong with a contribution. -/
inductive FirstFault (contribution : Contribution) : RegistryFault → Prop
  | name (hname : ¬ contribution.qualifiedName.FollowsPatterns) :
      FirstFault contribution (.malformedName contribution.qualifiedName.text)
  | param {before after : List (String × String)} {param : String × String}
      (hname : contribution.qualifiedName.FollowsPatterns)
      (hparams : contribution.spec.params = before ++ param :: after)
      (hbefore : ∀ earlier ∈ before, IsKnown earlier.2) (hparam : ¬ IsKnown param.2) :
      FirstFault contribution (.unknownType contribution.qualifiedName.text param.2)
  | returns {typeName : String} (hname : contribution.qualifiedName.FollowsPatterns)
      (hparams : contribution.ParamsKnown) (hreturns : contribution.spec.returns = some typeName)
      (hunknown : ¬ IsKnown typeName) :
      FirstFault contribution (.unknownType contribution.qualifiedName.text typeName)
  | connector (hname : contribution.qualifiedName.FollowsPatterns)
      (hparams : contribution.ParamsKnown) (hreturns : contribution.ReturnsKnown)
      (hconnector : ¬ contribution.TakesConnector) :
      FirstFault contribution (.missingConnectorParameter contribution.qualifiedName.text)
  | modes (hname : contribution.qualifiedName.FollowsPatterns)
      (hparams : contribution.ParamsKnown) (hreturns : contribution.ReturnsKnown)
      (hconnector : contribution.TakesConnector) (hmodes : ¬ contribution.SupportsMode) :
      FirstFault contribution (.noExecutionMode contribution.qualifiedName.text)

/-- The descriptor says what the contribution says of itself, with types for their names. -/
structure DescribedBy (contribution : Contribution) (descriptor : Descriptor) : Prop where
  name : descriptor.name = contribution.qualifiedName
  params : List.Forall₂ Param.Resolves contribution.spec.params descriptor.params
  returns : Option.Rel IsSpelled contribution.spec.returns descriptor.returns
  isPublic : descriptor.isPublic = contribution.spec.isPublic
  function : ∀ native, contribution = .function native → descriptor.kind = .function
  action : ∀ native, contribution = .action native →
    descriptor.kind = .action native.family native.modes

/-! ## Check by check -/

variable {display : String}

theorem resolveType_of_isSpelled {typeName : String} {type : ValueType}
    (h : IsSpelled typeName type) : resolveType display typeName = .ok type := by
  rw [resolveType, ofName?_eq_some_iff.2 h]

theorem resolveType_of_unknown {typeName : String} (h : ¬ IsKnown typeName) :
    resolveType display typeName = .error (.unknownType display typeName) := by
  rw [resolveType, ofName?_eq_none h]

theorem resolveParams_of_known {params : List (String × String)}
    (h : ∀ param ∈ params, IsKnown param.2) :
    ∃ resolved, resolveParams display params = .ok resolved ∧
      List.Forall₂ Param.Resolves params resolved := by
  induction params with
  | nil => exact ⟨[], rfl, .nil⟩
  | cons head rest ih =>
      obtain ⟨type, htype⟩ := h head List.mem_cons_self
      obtain ⟨resolved, hresolved, hall⟩ := ih fun param hparam =>
        h param (List.mem_cons_of_mem head hparam)
      refine ⟨⟨head.1, type⟩ :: resolved, ?_, .cons ⟨rfl, htype⟩ hall⟩
      simp only [resolveParams, resolveType_of_isSpelled htype, hresolved]
      rfl

theorem resolveParams_of_unknown {before after : List (String × String)}
    {param : String × String} (hbefore : ∀ earlier ∈ before, IsKnown earlier.2)
    (hparam : ¬ IsKnown param.2) :
    resolveParams display (before ++ param :: after) = .error (.unknownType display param.2) := by
  induction before with
  | nil =>
      simp only [List.nil_append, resolveParams, resolveType_of_unknown hparam]
      rfl
  | cons head rest ih =>
      obtain ⟨type, htype⟩ := hbefore head List.mem_cons_self
      have hrest := ih fun earlier hearlier => hbefore earlier (List.mem_cons_of_mem head hearlier)
      simp only [List.cons_append, resolveParams, resolveType_of_isSpelled htype, hrest]
      rfl

theorem resolveReturns_of_known {returns : Option String}
    (h : ∀ typeName ∈ returns, IsKnown typeName) :
    ∃ resolved, resolveReturns display returns = .ok resolved ∧
      Option.Rel IsSpelled returns resolved := by
  cases returns with
  | none => exact ⟨none, rfl, .none⟩
  | some typeName =>
      obtain ⟨type, htype⟩ := h typeName rfl
      refine ⟨some type, ?_, .some htype⟩
      simp only [resolveReturns, resolveType_of_isSpelled htype]
      rfl

theorem resolveReturns_of_unknown {typeName : String} (h : ¬ IsKnown typeName) :
    resolveReturns display (some typeName) = .error (.unknownType display typeName) := by
  simp only [resolveReturns, resolveType_of_unknown h]
  rfl

/-- Among parameters the first without a type can be told, if there is one. -/
theorem exists_first_unknown (params : List (String × String)) :
    (∀ param ∈ params, IsKnown param.2) ∨
      ∃ before param after, params = before ++ param :: after ∧
        (∀ earlier ∈ before, IsKnown earlier.2) ∧ ¬ IsKnown param.2 := by
  induction params with
  | nil => exact .inl (by simp)
  | cons head rest ih =>
      by_cases hhead : IsKnown head.2
      · rcases ih with hall | ⟨before, param, after, rfl, hbefore, hparam⟩
        · exact .inl (List.forall_mem_cons.2 ⟨hhead, hall⟩)
        · exact .inr ⟨head :: before, param, after, rfl, List.forall_mem_cons.2 ⟨hhead, hbefore⟩,
            hparam⟩
      · exact .inr ⟨[], head, rest, rfl, by simp, hhead⟩

section Kind

variable {contribution : Contribution} {params : List Param}
  (hall : List.Forall₂ Param.Resolves contribution.spec.params params)

include hall

/-- What stands first among the resolved parameters is what was declared first. -/
theorem takesConnector_iff {native : Action} (hnative : contribution = .action native) :
    contribution.TakesConnector ↔ params.head?.map Param.type = some .connector := by
  constructor
  · intro h
    obtain ⟨first, rest, hparams, hfirst⟩ := h native hnative
    rw [hparams] at hall
    cases hall with
    | cons hhead _ =>
        have hsame := (ofName?_eq_some_iff.2 hhead.type).symm.trans (ofName?_eq_some_iff.2 hfirst)
        exact congrArg some (Option.some.inj hsame)
  · intro h _ _
    generalize contribution.spec.params = declared at hall ⊢
    cases hall with
    | nil => cases h
    | cons hhead _ =>
        refine ⟨_, _, rfl, ?_⟩
        have htype := Option.some.inj h
        rw [← htype]
        exact hhead.type

theorem resolveKind_of_valid (hconnector : contribution.TakesConnector)
    (hmodes : contribution.SupportsMode) :
    ∃ kind, resolveKind display params contribution = .ok kind ∧
      (∀ native, contribution = .function native → kind = .function) ∧
      (∀ native, contribution = .action native → kind = .action native.family native.modes) := by
  cases contribution with
  | function native =>
      refine ⟨_, rfl, fun _ _ => rfl, ?_⟩
      rintro _ ⟨⟩
  | action native =>
      obtain ⟨mode, hmode⟩ := hmodes native rfl
      have hsome : ¬ native.modes.isEmpty = true := by
        intro hempty
        rw [(native.modes.isEmpty_iff.1 hempty) mode] at hmode
        cases hmode
      refine ⟨.action native.family native.modes, ?_, ?_, ?_⟩
      · rw [resolveKind, if_neg (not_not_intro ((takesConnector_iff hall rfl).1 hconnector)),
          if_neg hsome]
      · rintro _ ⟨⟩
      · rintro _ ⟨⟩
        rfl

theorem resolveKind_of_no_connector (h : ¬ contribution.TakesConnector) :
    resolveKind display params contribution = .error (.missingConnectorParameter display) := by
  cases contribution with
  | function native =>
      refine absurd ?_ h
      rintro _ ⟨⟩
  | action native =>
      rw [takesConnector_iff hall rfl] at h
      rw [resolveKind, if_pos h]

theorem resolveKind_of_no_mode (hconnector : contribution.TakesConnector)
    (h : ¬ contribution.SupportsMode) :
    resolveKind display params contribution = .error (.noExecutionMode display) := by
  cases contribution with
  | function native =>
      refine absurd ?_ h
      rintro _ ⟨⟩
  | action native =>
      have hempty : native.modes.isEmpty = true := by
        rw [CallModes.isEmpty_iff]
        intro mode
        rw [Bool.eq_false_iff]
        intro hmode
        apply h
        rintro _ ⟨⟩
        exact ⟨mode, hmode⟩
      rw [resolveKind, if_neg (not_not_intro ((takesConnector_iff hall rfl).1 hconnector)),
        if_pos hempty]

end Kind

/-! ## All checks -/

variable {contribution : Contribution} {fault : RegistryFault} {descriptor : Descriptor}

theorem describe_of_name (h : contribution.qualifiedName.FollowsPatterns) :
    contribution.describe = (do
      let params ← resolveParams contribution.qualifiedName.text contribution.spec.params
      let returns ← resolveReturns contribution.qualifiedName.text contribution.spec.returns
      let kind ← resolveKind contribution.qualifiedName.text params contribution
      .ok ⟨contribution.qualifiedName, params, returns, contribution.spec.isPublic, kind⟩) := by
  have hgood : contribution.spec.qualifiedName.isWellFormed = true :=
    (QualifiedName.isWellFormed_iff _).2 h
  simp only [describe, hgood]
  rfl

/-- Once the types have been told, the kind decides. -/
theorem exists_describe_of_known (hname : contribution.qualifiedName.FollowsPatterns)
    (hparams : contribution.ParamsKnown) (hreturns : contribution.ReturnsKnown) :
    ∃ params returns, List.Forall₂ Param.Resolves contribution.spec.params params ∧
      Option.Rel IsSpelled contribution.spec.returns returns ∧
      contribution.describe = (do
        let kind ← resolveKind contribution.qualifiedName.text params contribution
        .ok ⟨contribution.qualifiedName, params, returns, contribution.spec.isPublic, kind⟩) := by
  obtain ⟨params, hresolved, hall⟩ :=
    @resolveParams_of_known contribution.qualifiedName.text _ hparams
  obtain ⟨returns, hreturned, hsame⟩ :=
    @resolveReturns_of_known contribution.qualifiedName.text _ hreturns
  refine ⟨params, returns, hall, hsame, ?_⟩
  rw [describe_of_name hname, hresolved, hreturned]
  rfl

theorem exists_describe_of_valid (h : contribution.Valid) :
    ∃ descriptor, contribution.describe = .ok descriptor ∧
      contribution.DescribedBy descriptor := by
  obtain ⟨params, returns, hall, hsame, hdescribe⟩ :=
    exists_describe_of_known h.name h.params h.returns
  obtain ⟨kind, hkind, hfunction, haction⟩ :=
    @resolveKind_of_valid contribution.qualifiedName.text _ _ hall h.connector h.modes
  rw [hkind] at hdescribe
  exact ⟨_, hdescribe, rfl, hall, hsame, rfl, hfunction, haction⟩

theorem describe_of_firstFault (h : contribution.FirstFault fault) :
    contribution.describe = .error fault := by
  cases h with
  | name hname =>
      have hbad : contribution.spec.qualifiedName.isWellFormed = false := by
        rw [Bool.eq_false_iff]
        exact fun hgood => hname ((QualifiedName.isWellFormed_iff _).1 hgood)
      simp only [describe, hbad]
      rfl
  | param hname hparams hbefore hparam =>
      rw [describe_of_name hname, hparams, resolveParams_of_unknown hbefore hparam]
      rfl
  | returns hname hparams hreturns hunknown =>
      obtain ⟨params, hresolved, -⟩ :=
        @resolveParams_of_known contribution.qualifiedName.text _ hparams
      rw [describe_of_name hname, hresolved, hreturns, resolveReturns_of_unknown hunknown]
      rfl
  | connector hname hparams hreturns hconnector =>
      obtain ⟨params, returns, hall, -, hdescribe⟩ :=
        exists_describe_of_known hname hparams hreturns
      rw [hdescribe, resolveKind_of_no_connector hall hconnector]
      rfl
  | modes hname hparams hreturns hconnector hmodes =>
      obtain ⟨params, returns, hall, -, hdescribe⟩ :=
        exists_describe_of_known hname hparams hreturns
      rw [hdescribe, resolveKind_of_no_mode hall hconnector hmodes]
      rfl

/-- A contribution is valid, or it has a first fault. -/
theorem valid_or_firstFault (contribution : Contribution) :
    contribution.Valid ∨ ∃ fault, contribution.FirstFault fault := by
  by_cases hname : contribution.qualifiedName.FollowsPatterns
  · rcases exists_first_unknown contribution.spec.params with
      hparams | ⟨before, param, after, hparams, hbefore, hparam⟩
    · by_cases hreturns : contribution.ReturnsKnown
      · by_cases hconnector : contribution.TakesConnector
        · by_cases hmodes : contribution.SupportsMode
          · exact .inl ⟨hname, hparams, hreturns, hconnector, hmodes⟩
          · exact .inr ⟨_, .modes hname hparams hreturns hconnector hmodes⟩
        · exact .inr ⟨_, .connector hname hparams hreturns hconnector⟩
      · rw [ReturnsKnown, not_forall] at hreturns
        obtain ⟨typeName, hreturns⟩ := hreturns
        rw [Classical.not_imp] at hreturns
        exact .inr ⟨_, .returns hname hparams hreturns.1 hreturns.2⟩
    · exact .inr ⟨_, .param hname hparams hbefore hparam⟩
  · exact .inr ⟨_, .name hname⟩

theorem describe_eq_error_iff : contribution.describe = .error fault ↔
    contribution.FirstFault fault := by
  constructor
  · intro h
    rcases valid_or_firstFault contribution with hvalid | ⟨found, hfault⟩
    · obtain ⟨descriptor, hdescribe, -⟩ := exists_describe_of_valid hvalid
      cases h.symm.trans hdescribe
    · cases h.symm.trans (describe_of_firstFault hfault)
      exact hfault
  · exact describe_of_firstFault

theorem valid_of_describe (h : contribution.describe = .ok descriptor) :
    contribution.Valid ∧ contribution.DescribedBy descriptor := by
  rcases valid_or_firstFault contribution with hvalid | ⟨fault, hfault⟩
  · obtain ⟨found, hdescribe, hdescribed⟩ := exists_describe_of_valid hvalid
    cases h.symm.trans hdescribe
    exact ⟨hvalid, hdescribed⟩
  · cases h.symm.trans (describe_of_firstFault hfault)

end Contribution

end Switchboard
