import Switchboard.Proofs.Dispatch

/-!
Contexts come back as they were lent.

While a call runs its location lies on top of the stack.  If functions leave their context alone, an
evaluation gives the context back exactly as it came, also when it fails; only a panic leaves
locations behind.
-/

namespace Switchboard

/-- A function that leaves its context alone. -/
def NativeFunction.LeavesContext (native : NativeFunction) : Prop :=
  ∀ store context arguments, (native.run store context arguments).context = context

/-- No function that is registered changes its context. -/
def Registry.LeavesContexts (registry : Registry) : Prop :=
  ∀ entry ∈ registry.entries, ∀ native, entry.contribution = .function native →
    native.LeavesContext

/-- An outcome that gives the context back, unless it is a panic. -/
def Outcome.Restores {A : Type} (outcome : Outcome A) (context : Context) : Prop :=
  outcome.result ≠ .error .panicked → outcome.context = context

namespace Outcome

variable {A B : Type}

theorem Restores.andThen {outcome : Outcome A} {next : A → Context → World → Outcome B}
    {context : Context} (houtcome : outcome.Restores context)
    (hnext : ∀ value world, (next value context world).Restores context) :
    (outcome.andThen next).Restores context := by
  simp only [Outcome.andThen]
  rcases hresult : outcome.result with halt | value
  · intro h
    apply houtcome
    rw [hresult]
    rintro ⟨⟩
    exact h rfl
  · have hcontext := houtcome (by rw [hresult]; rintro ⟨⟩)
    dsimp only
    rw [hcontext]
    exact hnext value outcome.world

theorem restores_checkedAt (location : Option Location) (result : Checked A) (context : Context)
    (world : World) : (checkedAt location result context world).Restores context := by
  intro _
  cases result <;> rfl

end Outcome

namespace Engine

variable {engine : Engine}

theorem invoke_context (hleaves : engine.registry.LeavesContexts) (name : String)
    (arguments : List Value) (context : Context) (world : World) :
    (engine.invoke name arguments context world).context = context := by
  rcases engine.invoke_cases name arguments context world with
    ⟨fault, world', -, hinvoke⟩ | ⟨entry, target, hadmits, hinvoke⟩
  · rw [hinvoke]
    rfl
  · rw [hinvoke, Descriptor.handOver_context]
    rcases Contribution.resolveTarget_eq_ok hadmits.target with
      ⟨native, hnative, rfl⟩ | ⟨native, connector, -, rfl, -⟩
    · exact hleaves entry hadmits.mem native hnative _ context arguments
    · rfl

theorem restores_invokeAt (hleaves : engine.registry.LeavesContexts) (name : String)
    (arguments : List Value) (location : Location) (context : Context) (world : World) :
    (engine.invokeAt name arguments (some location) context world).Restores context := by
  intro h
  simp only [invokeAt] at h ⊢
  rw [Outcome.leave_result] at h
  rw [Outcome.leave_context h, invoke_context hleaves]
  exact Context.popLocation_pushLocation context location

mutual

theorem restores_evaluate (hleaves : engine.registry.LeavesContexts) :
    ∀ (expr : Expr) (context : Context) (world : World),
      (engine.evaluate expr context world).Restores context
  | .literal _, _, _ => fun _ => rfl
  | .var _ location, context, world =>
      Outcome.restores_checkedAt (some location) _ context world
  | .binary _ left right location, context, world => by
      apply (restores_evaluate hleaves left context world).andThen
      intro value world
      apply (restores_evaluate hleaves right context world).andThen
      intro other world
      exact Outcome.restores_checkedAt (some location) _ context world
  | .call function arguments location, context, world => by
      apply (restores_evaluateAll hleaves arguments context world).andThen
      intro values world
      apply (restores_invokeAt hleaves function values location context world).andThen
      intro value world
      cases value <;> exact fun _ => rfl

theorem restores_evaluateAll (hleaves : engine.registry.LeavesContexts) :
    ∀ (exprs : List Expr) (context : Context) (world : World),
      (engine.evaluateAll exprs context world).Restores context
  | [], _, _ => fun _ => rfl
  | expr :: rest, context, world => by
      apply (restores_evaluate hleaves expr context world).andThen
      intro value world
      apply (restores_evaluateAll hleaves rest context world).andThen
      intro values world
      exact fun _ => rfl

end

end Engine

end Switchboard
