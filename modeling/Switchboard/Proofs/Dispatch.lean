import Switchboard.Evaluation
import Switchboard.Proofs.Admission

/-!
What a call that waits comes to.

It is refused, or it is admitted and what it runs decides.  Only an answer of the declared type is
handed over as a value, and only a panic of what ran is a panic of the call.
-/

namespace Switchboard

namespace Outcome

variable {A B : Type}

/-- An outcome with a value had one at every step. -/
theorem andThen_eq_ok {outcome : Outcome A} {next : A → Context → World → Outcome B} {value : B}
    (h : (outcome.andThen next).result = .ok value) :
    ∃ first, outcome.result = .ok first ∧
      outcome.andThen next = next first outcome.context outcome.world := by
  simp only [andThen] at h ⊢
  rcases hresult : outcome.result with halt | first
  · rw [hresult] at h
    cases h
  · exact ⟨first, rfl, rfl⟩

theorem checkedAt_eq_ok {location : Option Location} {result : Checked A} {context : Context}
    {world : World} {value : A} (h : (checkedAt location result context world).result = .ok value) :
    result = .ok value ∧ checkedAt location result context world = ⟨.ok value, context, world⟩ := by
  cases result with
  | ok found =>
      cases h
      exact ⟨rfl, rfl⟩
  | error fault => cases h

@[simp] theorem leave_result (outcome : Outcome A) : outcome.leave.result = outcome.result := by
  simp only [leave]
  split <;> rfl

theorem leave_context {outcome : Outcome A} (h : outcome.result ≠ .error .panicked) :
    outcome.leave.context = outcome.context.popLocation := by
  unfold leave
  split
  · next hpanicked => exact absurd hpanicked h
  · rfl

end Outcome

namespace Descriptor

variable (descriptor : Descriptor) (name : String) (answer : Answer (Option Value))
  (context : Context) (world : World)

theorem handOver_context : (descriptor.handOver name answer context world).context = context := by
  simp only [handOver]
  split
  · split <;> rfl
  · rfl
  · rfl

theorem handOver_eq_ok_iff {value : Option Value} :
    (descriptor.handOver name answer context world).result = .ok value ↔
      answer = .ok value ∧ descriptor.checkReturn value = .ok value := by
  constructor
  · intro h
    simp only [handOver] at h
    split at h
    · next found =>
      split at h
      · next result hreturn =>
        obtain ⟨rfl, -⟩ := Descriptor.checkReturn_eq_ok_iff.1 hreturn
        obtain rfl := Except.ok.inj h
        exact ⟨rfl, hreturn⟩
      · cases h
    · cases h
    · cases h
  · rintro ⟨rfl, hreturn⟩
    simp only [handOver]
    rw [hreturn]

theorem handOver_eq_panicked_iff :
    (descriptor.handOver name answer context world).result = .error .panicked ↔
      answer = .error .panicked := by
  constructor
  · intro h
    simp only [handOver] at h
    split at h
    · split at h <;> cases h
    · cases h
    · rfl
  · rintro rfl
    rfl

end Descriptor

namespace Engine

variable (engine : Engine) (name : String) (arguments : List Value) (context : Context)
  (world : World)

/-- What an admitted call runs, and what that comes to. -/
def runAdmitted (target : Target) : Answer (Option Value) × Context × World :=
  ((world.note (.invoked .blocking name arguments)).emit
    (.ofDispatch name context.location?)).runTarget engine.config.transportTimeout name context
      arguments target

/-- A call that waits is refused, or what it runs is handed over. -/
theorem invoke_cases :
    (∃ fault world', engine.registry.check .blocking name arguments = .error fault ∧
      engine.invoke name arguments context world = .failIn name fault context world') ∨
    ∃ entry target, engine.registry.Admits .blocking name arguments entry target ∧
      engine.invoke name arguments context world =
        entry.descriptor.handOver name
          (engine.runAdmitted name arguments context world target).1
          (engine.runAdmitted name arguments context world target).2.1
          (engine.runAdmitted name arguments context world target).2.2 := by
  simp only [invoke]
  rcases hcheck : engine.registry.check .blocking name arguments with fault | ⟨descriptor, target⟩
  · exact .inl ⟨fault, _, rfl, rfl⟩
  · obtain ⟨entry, hadmits, rfl⟩ := Registry.check_eq_ok_iff.1 hcheck
    exact .inr ⟨entry, target, hadmits, rfl⟩

/-- A call that waits has a value only when it was admitted and ran to a result of the declared
type. -/
theorem invoke_eq_ok {value : Option Value}
    (h : (engine.invoke name arguments context world).result = .ok value) :
    ∃ entry target, engine.registry.Admits .blocking name arguments entry target ∧
      (engine.runAdmitted name arguments context world target).1 = .ok value ∧
      (∀ found, value = some found → entry.descriptor.returns = some found.type) ∧
      (engine.invoke name arguments context world).context =
        (engine.runAdmitted name arguments context world target).2.1 := by
  rcases engine.invoke_cases name arguments context world with
    ⟨fault, world', -, hinvoke⟩ | ⟨entry, target, hadmits, hinvoke⟩
  · rw [hinvoke] at h
    cases h
  · rw [hinvoke] at h ⊢
    obtain ⟨hanswer, hreturn⟩ := (Descriptor.handOver_eq_ok_iff ..).1 h
    refine ⟨entry, target, hadmits, hanswer, ?_, Descriptor.handOver_context ..⟩
    exact (Descriptor.checkReturn_eq_ok_iff.1 hreturn).2

end Engine

end Switchboard
