import Switchboard.Proofs.Typing
import Switchboard.Proofs.Visits

/-!
Which node a failure is blamed on.

A failure takes its location either from the node that has failed or from the top of the stack of
locations, where calls put theirs while they run.  Since the calls around the node that fails have
not begun yet, and native code leaves the stack alone, both are the location of that node.  The name
of a function stands in a failure only if the dispatcher found it.
-/

namespace Switchboard

/-- A function that leaves the stack of locations as it is. -/
def NativeFunction.KeepsLocations (native : NativeFunction) : Prop :=
  ∀ store context arguments, (native.run store context arguments).context.locations =
    context.locations

/-- No function that is registered changes the stack of locations. -/
def Registry.KeepsLocations (registry : Registry) : Prop :=
  ∀ entry ∈ registry.entries, ∀ native, entry.contribution = .function native →
    native.KeepsLocations

namespace Engine

/-- What the dispatcher finds wrong with a call: a check refuses it, what it runs fails, or the
result is not of the declared type. -/
inductive Raises (engine : Engine) (name : String) (arguments : List Value) (context : Context)
    (world : World) : Fault → Prop
  | refused {fault : Fault}
      (hcheck : engine.registry.check .blocking name arguments = .error fault) :
      Raises engine name arguments context world fault
  | failed {entry : Entry} {target : Target} {fault : Fault}
      (hadmits : engine.registry.Admits .blocking name arguments entry target)
      (hanswer : (engine.runAdmitted name arguments context world target).1 =
        .error (.failed fault)) :
      Raises engine name arguments context world fault
  | mistyped {entry : Entry} {target : Target} {value : Option Value} {fault : Fault}
      (hadmits : engine.registry.Admits .blocking name arguments entry target)
      (hanswer : (engine.runAdmitted name arguments context world target).1 = .ok value)
      (hreturn : entry.descriptor.checkReturn value = .error fault) :
      Raises engine name arguments context world fault

/-- Why a node has no value although its operands have theirs, and the name that goes with it. -/
inductive Blames (engine : Engine) : Visit → Context → World → Fault → Option String → Prop
  | unbound {name : String} {location : Location} {context : Context} {world : World}
      {fault : Fault} (hget : context.get name = .error fault) :
      Blames engine ⟨.var name location, []⟩ context world fault none
  | rejected {op : Operator} {left right : Expr} {location : Location} {first second : Value}
      {context : Context} {world : World} {fault : Fault}
      (happly : engine.operators.apply op first second = .error fault) :
      Blames engine ⟨.binary op left right location, [first, second]⟩ context world fault none
  | raised {function : String} {arguments : List Expr} {location : Location}
      {values : List Value} {context : Context} {world : World} {fault : Fault}
      (hraises : engine.Raises function values (context.pushLocation location) world fault) :
      Blames engine ⟨.call function arguments location, values⟩ context world fault
        (some function)
  | nothing {function : String} {arguments : List Expr} {location : Location}
      {values : List Value} {context : Context} {world : World}
      (hnothing : (engine.invoke function values (context.pushLocation location) world).result =
        .ok none) :
      Blames engine ⟨.call function arguments location, values⟩ context world
        (.noValue function) none

variable {engine : Engine}

/-! ## Calls -/

theorem locations_runAdmitted (hkeeps : engine.registry.KeepsLocations) {name : String}
    {arguments : List Value} {context : Context} {world : World} {entry : Entry}
    {target : Target} (hadmits : engine.registry.Admits .blocking name arguments entry target) :
    (engine.runAdmitted name arguments context world target).2.1.locations =
      context.locations := by
  rcases Contribution.resolveTarget_eq_ok hadmits.target with
    ⟨native, hnative, rfl⟩ | ⟨native, connector, -, rfl, -⟩
  · exact hkeeps entry hadmits.mem native hnative _ context arguments
  · rfl

/-- A failure of the dispatcher shows the location on top of the stack and the name of the call. -/
theorem invoke_failed (hkeeps : engine.registry.KeepsLocations) {name : String}
    {arguments : List Value} {context : Context} {world : World} {failure : Failure}
    (h : (engine.invoke name arguments context world).result = .error (.failed failure)) :
    engine.Raises name arguments context world failure.fault ∧
      failure.location = context.location? ∧ failure.function = some name := by
  rcases engine.invoke_cases name arguments context world with
    ⟨fault, world', hcheck, hinvoke⟩ | ⟨entry, target, hadmits, hinvoke⟩
  · rw [hinvoke] at h
    cases h
    exact ⟨.refused hcheck, rfl, rfl⟩
  · have hlocation : (engine.runAdmitted name arguments context world target).2.1.location? =
        context.location? := congrArg List.head? (locations_runAdmitted hkeeps hadmits)
    rw [hinvoke] at h
    rcases hanswer : (engine.runAdmitted name arguments context world target).1 with
      ⟨fault | _⟩ | value
    · rw [hanswer] at h
      cases h
      exact ⟨.failed hadmits hanswer, hlocation, rfl⟩
    · rw [hanswer] at h
      cases h
    · rw [hanswer] at h
      simp only [Descriptor.handOver] at h
      rcases hreturn : entry.descriptor.checkReturn value with fault | result
      · rw [hreturn] at h
        cases h
        exact ⟨.mistyped hadmits hanswer hreturn, hlocation, rfl⟩
      · rw [hreturn] at h
        cases h

/-! ## Nodes -/

theorem checkedAt_failed {A : Type} {location : Location} {result : Checked A}
    {context : Context} {world : World} {failure : Failure}
    (h : (Outcome.checkedAt (some location) result context world).result =
      .error (.failed failure)) :
    result = .error failure.fault ∧ failure.location = some location ∧
      failure.function = none := by
  cases result with
  | ok value => cases h
  | error fault =>
      cases h
      exact ⟨rfl, rfl, rfl⟩

theorem needed_failed {function : String} {location : Location}
    {outcome : Outcome (Option Value)} {failure : Failure}
    (h : (outcome.needed function location).result = .error (.failed failure)) :
    outcome.result = .error (.failed failure) ∨
      outcome.result = .ok none ∧ failure = ⟨.noValue function, some location, none⟩ := by
  rcases outcome with ⟨halt | _ | value, context, world⟩
  · cases h
    exact .inl rfl
  · cases h
    exact .inr ⟨rfl, rfl⟩
  · cases h

/-- A node that fails is blamed for it. -/
theorem Evaluates.blames (hkeeps : engine.registry.KeepsLocations) {visit : Visit}
    {context : Context} {world : World} {outcome : Outcome Value} {failure : Failure}
    (hvisit : engine.Evaluates visit context world outcome)
    (h : outcome.result = .error (.failed failure)) :
    engine.Blames visit context world failure.fault failure.function ∧
      failure.location = visit.node.location? := by
  cases hvisit with
  | literal => cases h
  | var name location =>
      obtain ⟨hget, hlocation, hfunction⟩ := checkedAt_failed h
      rw [hfunction]
      exact ⟨.unbound hget, hlocation⟩
  | binary op left right location =>
      obtain ⟨happly, hlocation, hfunction⟩ := checkedAt_failed h
      rw [hfunction]
      exact ⟨.rejected happly, hlocation⟩
  | call function arguments location values =>
      rcases needed_failed h with hfailed | ⟨hnothing, rfl⟩
      · rw [invokeAt, Outcome.leave_result] at hfailed
        obtain ⟨hraises, hlocation, hfunction⟩ := invoke_failed hkeeps hfailed
        rw [hfunction]
        exact ⟨.raised hraises, hlocation⟩
      · rw [invokeAt, Outcome.leave_result] at hnothing
        exact ⟨.nothing hnothing, rfl⟩

/-- A failure is blamed on the first node that cannot be evaluated.  The nodes before it have been
visited and have their values.  The fault is the one that this node has raised, the location is its
own, however deep it stands in calls and whatever the stack held before, and the name is that of its
function if the dispatcher raised the fault, and is absent otherwise. -/
theorem failures_blame_the_first_node (hkeeps : engine.registry.KeepsLocations) (expr : Expr)
    (context : Context) (world : World) (failure : Failure)
    (hfails : (engine.evaluate expr context world).result = .error (.failed failure)) :
    ∃ (before : List Visit) (last : Visit) (after : List Expr) (below : List Value)
      (here : Context) (now : World),
      expr.postorder = before.map Visit.node ++ last.node :: after ∧
      engine.Visits context world before (last.operands.reverse ++ below) here now ∧
      last.operands.length = last.node.operands.length ∧
      engine.Blames last here now failure.fault failure.function ∧
      failure.location = last.node.location? := by
  obtain ⟨visits, htraverses⟩ := engine.traverses_evaluate expr context world
  generalize engine.evaluate expr context world = outcome at htraverses hfails
  cases htraverses with
  | whole => cases hfails
  | @stopped before last after below _ here _ now _ hnodes hvisits hoperands hhalt =>
      obtain ⟨hblames, hlocation⟩ := hhalt.blames hkeeps hfails
      exact ⟨before, last, after, below, here, now, hnodes, hvisits, hoperands, hblames,
        hlocation⟩

/-- A call that nobody has registered, within a sum, within the argument of a call. -/
def deepGap : Expr :=
  .call "lab:lie" [.binary .add (.literal (.integer 1))
    (.call "lab:gone" [.literal (.boolean true)] ⟨"f", 1, 13⟩) ⟨"f", 1, 11⟩] ⟨"f", 1, 1⟩

/-- The unknown function is blamed, not the sum, the call around it or the caller. -/
theorem failures_blame_the_first_node_of_gap :
    Typing.liars.registry.KeepsLocations ∧
      (Typing.liars.evaluate deepGap ((Context.ofTrace "t").pushLocation ⟨"caller", 9, 9⟩)
        (.start (.ofSlots 1))).result =
          .error (.failed ⟨.unknownFunction "lab:gone", some ⟨"f", 1, 13⟩, some "lab:gone"⟩) ∧
      ∃ (before : List Visit) (last : Visit) (after : List Expr) (here : Context) (now : World),
        deepGap.postorder = before.map Visit.node ++ last.node :: after ∧
        Typing.liars.Blames last here now (.unknownFunction "lab:gone") (some "lab:gone") ∧
        last.node.location? = some ⟨"f", 1, 13⟩ := by
  have hkeeps : Typing.liars.registry.KeepsLocations := by
    intro entry hentry native hnative
    obtain rfl := List.mem_singleton.1 hentry
    cases hnative
    intro store context arguments
    rfl
  have hfails : (Typing.liars.evaluate deepGap
      ((Context.ofTrace "t").pushLocation ⟨"caller", 9, 9⟩) (.start (.ofSlots 1))).result =
        .error (.failed ⟨.unknownFunction "lab:gone", some ⟨"f", 1, 13⟩, some "lab:gone"⟩) := rfl
  obtain ⟨before, last, after, -, here, now, hnodes, -, -, hblames, hlocation⟩ :=
    failures_blame_the_first_node hkeeps deepGap _ _ _ hfails
  exact ⟨hkeeps, hfails, before, last, after, here, now, hnodes, hblames, hlocation.symm⟩

end Engine

end Switchboard
