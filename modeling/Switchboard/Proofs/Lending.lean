import Switchboard.Proofs.Blame
import Switchboard.Proofs.Contexts
import Switchboard.Proofs.Startup

/-!
What is lent to an evaluation comes back.

The caller lends its context to an evaluation, and every node of the expression is lent it in turn.
A node may put its location on the stack, but it takes it off again, whether it comes to a value or
fails.  So each node finds the context as the caller has lent it, and so does the caller in the end,
however deep the node stands that has failed.

All this rests on functions that leave their context alone.  Those of the library do, and an action
is only shown the context.
-/

namespace Switchboard

/-! ## Who leaves contexts alone -/

/-- Every function of the library has a body that is not given the context. -/
theorem Library.exists_body {contribution : Contribution} (hmem : contribution ∈ functions) :
    ∃ (body : LibraryBody) (spec : NativeSpec),
      contribution = .function (body.toFunction spec) := by
  simp only [functions, Messages.contributions, Numbers.contributions, Strings.contributions,
    List.mem_append, List.mem_cons, List.not_mem_nil, or_false] at hmem
  rcases hmem with ((rfl | rfl | rfl | rfl | rfl | rfl | rfl | rfl) | rfl | rfl) | rfl | rfl | rfl
  all_goals exact ⟨_, _, rfl⟩

namespace Blueprint

variable {blueprint : Blueprint} {engine : Engine} {start : World}

/-- What is registered in a system that was built comes from the library or was added to it. -/
theorem contribution_cases (hbuild : blueprint.build = .ok (engine, start)) {entry : Entry}
    (hentry : entry ∈ engine.registry.entries) :
    (∃ (body : LibraryBody) (spec : NativeSpec),
      entry.contribution = .function (body.toFunction spec)) ∨
    entry.contribution = .action Jms.send ∨ entry.contribution ∈ blueprint.contributions := by
  rcases Registry.mem_of_registerAll (build_eq_ok hbuild).1 hentry with hmem | ⟨hmem, -⟩
  · cases hmem
  · rw [List.mem_append, Library.contributions, List.mem_append, List.mem_singleton] at hmem
    rcases hmem with (hfunction | hsend) | hown
    · exact .inl (Library.exists_body hfunction)
    · exact .inr (.inl hsend)
    · exact .inr (.inr hown)

/-- In a system that was built no function changes its context, unless it is one of those that were
added to the library. -/
theorem leavesContexts_of_build (hbuild : blueprint.build = .ok (engine, start))
    (hown : ∀ native, .function native ∈ blueprint.contributions → native.LeavesContext) :
    engine.registry.LeavesContexts := by
  intro entry hentry native hnative
  rcases contribution_cases hbuild hentry with ⟨body, spec, hbody⟩ | hsend | hmem
  · obtain rfl := Contribution.function.inj (hnative.symm.trans hbody)
    exact body.run_toFunction_context spec
  · cases hnative.symm.trans hsend
  · exact hown native (hnative ▸ hmem)

end Blueprint

namespace Engine

variable {engine : Engine} {context here : Context} {world now : World}

/-! ## One node after the other -/

/-- A node gives the context back that it was lent. -/
theorem Evaluates.restores (hleaves : engine.registry.LeavesContexts) {visit : Visit}
    {outcome : Outcome Value} (hvisit : engine.Evaluates visit context world outcome) :
    outcome.Restores context := by
  cases hvisit with
  | literal value => exact fun _ => rfl
  | var name location => exact Outcome.restores_checkedAt (some location) _ context world
  | binary op left right location =>
      exact Outcome.restores_checkedAt (some location) _ context world
  | call function arguments location values =>
      apply (restores_invokeAt hleaves function values location context world).andThen
      intro value world
      cases value with
      | some value => exact fun _ => rfl
      | none => exact fun _ => rfl

/-- However many nodes have been visited, the next one is lent the context of the caller. -/
theorem Visits.context_eq (hleaves : engine.registry.LeavesContexts) {visits : List Visit}
    {stack : List Value} (hvisits : engine.Visits context world visits stack here now) :
    here = context := by
  induction hvisits with
  | start => rfl
  | next _ _ hvalue ih =>
      subst ih
      exact hvalue.restores hleaves (by rintro ⟨⟩)

/-- Where functions leave their context alone, an evaluation gives its context back as it came: the
stack of locations, the scopes with their bindings, the trace and the handle of a send.  This is so
for a value and for every failure, and also whenever an evaluation is between two nodes.  Only
a panic is different, and there is none unless native code or a transport panics.  In systems that
were built it is enough to look at the functions that were added to the library. -/
theorem contexts_are_given_back (hleaves : engine.registry.LeavesContexts) (expr : Expr)
    (context : Context) (world : World) :
    ((engine.evaluate expr context world).result ≠ .error .panicked →
      (engine.evaluate expr context world).context = context) ∧
    (∀ visits stack here now, engine.Visits context world visits stack here now →
      here = context) ∧
    (engine.registry.Calm → world.Calm →
      (engine.evaluate expr context world).result ≠ .error .panicked) ∧
    ∀ (blueprint : Blueprint) (built : Engine) (start : World),
      blueprint.build = .ok (built, start) →
      (∀ native, .function native ∈ blueprint.contributions → native.LeavesContext) →
        built.registry.LeavesContexts := by
  refine ⟨restores_evaluate hleaves expr context world, ?_, ?_, ?_⟩
  · intro visits stack here now hvisits
    exact hvisits.context_eq hleaves
  · intro hregistry hworld
    exact (calm_evaluate hregistry expr context hworld).result
  · intro blueprint built start hbuild hown
    exact blueprint.leavesContexts_of_build hbuild hown

/-- The caller of a call with a gap in its argument finds its own location on the stack again, and
nothing above it. -/
theorem contexts_are_given_back_of_gap :
    Typing.liars.registry.LeavesContexts ∧
      (Typing.liars.evaluate deepGap ((Context.ofTrace "t").pushLocation ⟨"caller", 9, 9⟩)
        (.start (.ofSlots 1))).result =
          .error (.failed ⟨.unknownFunction "lab:gone", some ⟨"f", 1, 13⟩, some "lab:gone"⟩) ∧
      (Typing.liars.evaluate deepGap ((Context.ofTrace "t").pushLocation ⟨"caller", 9, 9⟩)
        (.start (.ofSlots 1))).context =
          (Context.ofTrace "t").pushLocation ⟨"caller", 9, 9⟩ := by
  have hleaves : Typing.liars.registry.LeavesContexts := by
    intro entry hentry native hnative
    obtain rfl := List.mem_singleton.1 hentry
    cases hnative
    intro store context arguments
    rfl
  have hworld : (World.start (.ofSlots 1)).Calm := by
    intro family transport hfind
    cases hfind
  obtain ⟨hrestores, -, hcalm, -⟩ := contexts_are_given_back hleaves deepGap
    ((Context.ofTrace "t").pushLocation ⟨"caller", 9, 9⟩) (.start (.ofSlots 1))
  exact ⟨hleaves, rfl, hrestores (hcalm Typing.calm_liars hworld)⟩

end Engine

end Switchboard
