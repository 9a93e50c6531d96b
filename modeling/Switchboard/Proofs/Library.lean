import Switchboard.Proofs.Objections
import Switchboard.Proofs.Startup

/-!
The library keeps its word.

A library function relies on the check of its arguments: it asks for each of them by position and by
kind, and an argument that is not there would be a panic.  Given arguments of the types that it
declares it always answers, with a value of the type that it declares or with nothing, whatever the
messages hold, and it leaves its context alone.
-/

namespace Switchboard

/-! ## What arguments hold -/

namespace Value

variable {value : Value}

theorem asInteger_of_type (h : value.type = .integer) : ∃ n, value.asInteger = .ok n := by
  cases value with
  | integer n => exact ⟨n, rfl⟩
  | _ => cases h

theorem asFloat_of_type (h : value.type = .float) : ∃ x, value.asFloat = .ok x := by
  cases value with
  | float x => exact ⟨x, rfl⟩
  | _ => cases h

theorem asBoolean_of_type (h : value.type = .boolean) : ∃ b, value.asBoolean = .ok b := by
  cases value with
  | boolean b => exact ⟨b, rfl⟩
  | _ => cases h

theorem asString_of_type (h : value.type = .string) : ∃ text, value.asString = .ok text := by
  cases value with
  | string text => exact ⟨text, rfl⟩
  | _ => cases h

theorem asMessage_of_type (h : value.type = .message) : ∃ id, value.asMessage = .ok id := by
  cases value with
  | message id => exact ⟨id, rfl⟩
  | _ => cases h

end Value

namespace Arguments

variable {arguments : List Value} {params : List ValueType} {type : ValueType}
  (htypes : arguments.map Value.type = params)

include htypes

theorem value_of_types (index : Nat) (h : params[index]? = some type) :
    ∃ found, value arguments index = .ok found ∧ found.type = type := by
  rw [← htypes, List.getElem?_map] at h
  obtain ⟨found, hfound, htype⟩ := Option.map_eq_some_iff.1 h
  refine ⟨found, ?_, htype⟩
  simp only [value]
  rw [hfound]

theorem readAs_of_types {A : Type} {read : Value → Checked A}
    (hread : ∀ {value : Value}, value.type = type → ∃ content, read value = .ok content)
    (index : Nat) (h : params[index]? = some type) :
    ∃ content, readAs read arguments index = .ok content := by
  obtain ⟨found, hfound, htype⟩ := value_of_types htypes index h
  obtain ⟨content, hcontent⟩ := hread htype
  refine ⟨content, ?_⟩
  simp only [readAs]
  rw [hfound]
  exact congrArg Answer.ofChecked hcontent

theorem message_of_types (index : Nat) (h : params[index]? = some .message) :
    ∃ id, message arguments index = .ok id :=
  readAs_of_types htypes Value.asMessage_of_type index h

theorem string_of_types (index : Nat) (h : params[index]? = some .string) :
    ∃ text, string arguments index = .ok text :=
  readAs_of_types htypes Value.asString_of_type index h

theorem float_of_types (index : Nat) (h : params[index]? = some .float) :
    ∃ x, float arguments index = .ok x :=
  readAs_of_types htypes Value.asFloat_of_type index h

end Arguments

/-! ## One function at a time -/

/-- Given arguments of these types, a body answers with what is declared. -/
def LibraryBody.Answers (body : LibraryBody) (params : List ValueType)
    (returns : Option ValueType) : Prop :=
  ∀ store arguments, arguments.map Value.type = params →
    ∃ value left, body store arguments = .ok (value, left) ∧ value.map Value.type = returns

namespace Library

theorem answers_removeHeader :
    LibraryBody.Answers Messages.removeHeader [.message, .string] none := by
  intro store arguments htypes
  obtain ⟨id, hid⟩ := Arguments.message_of_types htypes 0 rfl
  obtain ⟨key, hkey⟩ := Arguments.string_of_types htypes 1 rfl
  simp only [Messages.removeHeader]
  rw [hid, hkey]
  exact ⟨_, _, rfl, rfl⟩

theorem answers_addHeader :
    LibraryBody.Answers Messages.addHeader [.message, .string, .string] none := by
  intro store arguments htypes
  obtain ⟨id, hid⟩ := Arguments.message_of_types htypes 0 rfl
  obtain ⟨key, hkey⟩ := Arguments.string_of_types htypes 1 rfl
  obtain ⟨text, htext⟩ := Arguments.string_of_types htypes 2 rfl
  simp only [Messages.addHeader]
  rw [hid, hkey, htext]
  simp only [bind, Except.bind]
  rcases (store.read id).header? key with _ | found
  · exact ⟨_, _, rfl, rfl⟩
  · exact ⟨_, _, rfl, rfl⟩

theorem answers_setHeader :
    LibraryBody.Answers Messages.setHeader [.message, .string, .string] none := by
  intro store arguments htypes
  obtain ⟨id, hid⟩ := Arguments.message_of_types htypes 0 rfl
  obtain ⟨key, hkey⟩ := Arguments.string_of_types htypes 1 rfl
  obtain ⟨text, htext⟩ := Arguments.string_of_types htypes 2 rfl
  simp only [Messages.setHeader]
  rw [hid, hkey, htext]
  exact ⟨_, _, rfl, rfl⟩

theorem answers_getHeader :
    LibraryBody.Answers Messages.getHeader [.message, .string] (some .string) := by
  intro store arguments htypes
  obtain ⟨id, hid⟩ := Arguments.message_of_types htypes 0 rfl
  obtain ⟨key, hkey⟩ := Arguments.string_of_types htypes 1 rfl
  simp only [Messages.getHeader]
  rw [hid, hkey]
  exact ⟨_, _, rfl, rfl⟩

theorem answers_getStringPayload :
    LibraryBody.Answers Messages.getStringPayload [.message] (some .string) := by
  intro store arguments htypes
  obtain ⟨id, hid⟩ := Arguments.message_of_types htypes 0 rfl
  simp only [Messages.getStringPayload]
  rw [hid]
  exact ⟨_, _, rfl, rfl⟩

/-- A payload may be of any type. -/
theorem answers_setPayload (type : ValueType) :
    LibraryBody.Answers Messages.setPayload [.message, type] none := by
  intro store arguments htypes
  obtain ⟨id, hid⟩ := Arguments.message_of_types htypes 0 rfl
  obtain ⟨payload, hpayload, -⟩ := Arguments.value_of_types htypes 1 rfl
  simp only [Messages.setPayload]
  rw [hid, hpayload]
  exact ⟨_, _, rfl, rfl⟩

theorem answers_fromString : LibraryBody.Answers Messages.fromString [.string] (some .message) := by
  intro store arguments htypes
  obtain ⟨payload, hpayload, -⟩ := Arguments.value_of_types htypes 0 rfl
  simp only [Messages.fromString]
  rw [hpayload]
  exact ⟨_, _, rfl, rfl⟩

theorem answers_abs : LibraryBody.Answers Numbers.abs [.float] (some .float) := by
  intro store arguments htypes
  obtain ⟨x, hx⟩ := Arguments.float_of_types htypes 0 rfl
  simp only [Numbers.abs]
  rw [hx]
  exact ⟨_, _, rfl, rfl⟩

theorem answers_pow : LibraryBody.Answers Numbers.pow [.float, .float] (some .float) := by
  intro store arguments htypes
  obtain ⟨base, hbase⟩ := Arguments.float_of_types htypes 0 rfl
  obtain ⟨exponent, hexponent⟩ := Arguments.float_of_types htypes 1 rfl
  simp only [Numbers.pow]
  rw [hbase, hexponent]
  exact ⟨_, _, rfl, rfl⟩

theorem answers_length : LibraryBody.Answers Strings.length [.string] (some .integer) := by
  intro store arguments htypes
  obtain ⟨text, htext⟩ := Arguments.string_of_types htypes 0 rfl
  simp only [Strings.length]
  rw [htext]
  exact ⟨_, _, rfl, rfl⟩

theorem answers_toUpperCase : LibraryBody.Answers Strings.toUpperCase [.string] (some .string) := by
  intro store arguments htypes
  obtain ⟨text, htext⟩ := Arguments.string_of_types htypes 0 rfl
  simp only [Strings.toUpperCase]
  rw [htext]
  exact ⟨_, _, rfl, rfl⟩

theorem answers_contains :
    LibraryBody.Answers Strings.contains [.string, .string] (some .boolean) := by
  intro store arguments htypes
  obtain ⟨text, htext⟩ := Arguments.string_of_types htypes 0 rfl
  obtain ⟨needle, hneedle⟩ := Arguments.string_of_types htypes 1 rfl
  simp only [Strings.contains]
  rw [htext, hneedle]
  exact ⟨_, _, rfl, rfl⟩

end Library

/-! ## What is registered -/

/-- The name of a type is resolved to it. -/
theorem ValueType.ofName?_name (type : ValueType) : ofName? type.name = some type := by
  cases type <;> decide +kernel

/-- A function that, given arguments of the declared types, answers with what is declared and leaves
its context alone. -/
def NativeFunction.KeepsWord (native : NativeFunction) (descriptor : Descriptor) : Prop :=
  ∀ store context arguments, arguments.map Value.type = descriptor.params.map Param.type →
    ∃ value left, native.run store context arguments = ⟨.ok value, context, left⟩ ∧
      value.map Value.type = descriptor.returns

namespace Contribution

/-- However a contribution is described, it is a function that keeps its word. -/
def KeepsWord (contribution : Contribution) : Prop :=
  ∀ descriptor, contribution.describe = .ok descriptor →
    descriptor.kind = .function ∧
      ∃ native, contribution = .function native ∧ native.KeepsWord descriptor

theorem resolveParams_names (display : String) (params : List Param) :
    resolveParams display (params.map fun param => (param.name, param.type.name)) =
      .ok params := by
  induction params with
  | nil => rfl
  | cons param params ih =>
      simp only [List.map_cons, resolveParams, resolveType, ValueType.ofName?_name, ih]
      rfl

theorem resolveReturns_name (display : String) (returns : Option ValueType) :
    resolveReturns display (returns.map ValueType.name) = .ok returns := by
  cases returns with
  | none => rfl
  | some type =>
      simp only [Option.map_some, resolveReturns, resolveType, ValueType.ofName?_name]
      rfl

/-- A body that answers keeps the word that it is registered with. -/
theorem keepsWord_of_answers {body : LibraryBody} (params : List Param)
    {returns : Option ValueType} (hanswers : body.Answers (params.map Param.type) returns)
    (package name : String) :
    (body.contribution package name (params.map fun param => (param.name, param.type.name))
      (returns.map ValueType.name)).KeepsWord := by
  intro descriptor hdescribe
  simp only [describe, spec, LibraryBody.contribution, LibraryBody.toFunction,
    resolveParams_names, resolveReturns_name, resolveKind] at hdescribe
  split at hdescribe
  · cases hdescribe
  · cases hdescribe
    refine ⟨rfl, _, rfl, ?_⟩
    intro store context arguments htypes
    obtain ⟨value, left, hbody, hvalue⟩ := hanswers store arguments htypes
    refine ⟨value, left, ?_, hvalue⟩
    simp only [LibraryBody.toFunction]
    rw [hbody]

end Contribution

namespace Library

/-- Every function of the library keeps its word. -/
theorem keepsWord_of_mem {contribution : Contribution} (hmem : contribution ∈ functions) :
    contribution.KeepsWord := by
  simp only [functions, Messages.contributions, Numbers.contributions, Strings.contributions,
    List.mem_append, List.mem_cons, List.not_mem_nil, or_false] at hmem
  rcases hmem with ((rfl | rfl | rfl | rfl | rfl | rfl | rfl | rfl) | rfl | rfl) | rfl | rfl | rfl
  · exact Contribution.keepsWord_of_answers [⟨"message", .message⟩, ⟨"key", .string⟩]
      answers_removeHeader _ _
  · exact Contribution.keepsWord_of_answers
      [⟨"message", .message⟩, ⟨"key", .string⟩, ⟨"value", .string⟩] answers_addHeader _ _
  · exact Contribution.keepsWord_of_answers
      [⟨"message", .message⟩, ⟨"key", .string⟩, ⟨"value", .string⟩] answers_setHeader _ _
  · exact Contribution.keepsWord_of_answers [⟨"message", .message⟩, ⟨"key", .string⟩]
      answers_getHeader _ _
  · exact Contribution.keepsWord_of_answers [⟨"message", .message⟩] answers_getStringPayload _ _
  · exact Contribution.keepsWord_of_answers [⟨"message", .message⟩, ⟨"payload", .string⟩]
      (answers_setPayload .string) _ _
  · exact Contribution.keepsWord_of_answers [⟨"message", .message⟩, ⟨"payload", .map⟩]
      (answers_setPayload .map) _ _
  · exact Contribution.keepsWord_of_answers [⟨"payload", .string⟩] answers_fromString _ _
  · exact Contribution.keepsWord_of_answers [⟨"x", .float⟩] answers_abs _ _
  · exact Contribution.keepsWord_of_answers [⟨"base", .float⟩, ⟨"exponent", .float⟩] answers_pow
      _ _
  · exact Contribution.keepsWord_of_answers [⟨"s", .string⟩] answers_length _ _
  · exact Contribution.keepsWord_of_answers [⟨"s", .string⟩] answers_toUpperCase _ _
  · exact Contribution.keepsWord_of_answers [⟨"s", .string⟩, ⟨"needle", .string⟩] answers_contains
      _ _

end Library

/-- An engine in which everything of a library is found, and all of it functions that keep their
word. -/
def Engine.Provides (engine : Engine) (library : Registry) : Prop :=
  ∀ name entry, library.find? name = some entry →
    engine.registry.find? name = some entry ∧ entry.descriptor.kind = .function ∧
      ∃ native, entry.contribution = .function native ∧ native.KeepsWord entry.descriptor

/-- Every engine that was built provides the functions of the library. -/
theorem Blueprint.provides_library {blueprint : Blueprint} {engine : Engine} {start : World}
    (hbuild : blueprint.build = .ok (engine, start)) {library : Registry}
    (hlibrary : Registry.build Library.functions = .ok library) : engine.Provides library := by
  intro name entry hfound
  rcases Registry.mem_of_registerAll hlibrary (List.mem_of_find?_eq_some hfound) with
    hmem | ⟨hmem, hdescribe⟩
  · cases hmem
  · have hengine := find?_of_build hbuild (List.mem_append_left _ hmem) hdescribe
    rw [Registry.name_of_find? hfound] at hengine
    exact ⟨hengine, Library.keepsWord_of_mem hmem entry.descriptor hdescribe⟩

end Switchboard
