import Switchboard.Proofs.Courses
import Switchboard.Proofs.Visits

/-!
Which calls are made, and in which order.

Every call that reaches the dispatcher stands in the journal before anything is looked up.  Nothing
else that happens during a call, and nothing that others do while it waits, reaches the dispatcher.
So the calls that evaluating an expression enters in the journal are those of the visits that it
consists of: each of them once, in the order of the visits, with the values found on the stack.
-/

namespace Switchboard

/-- A call that reaches the dispatcher. -/
def Event.isInvocation : Event → Bool
  | .invoked _ _ _ => true
  | _ => false

/-- The calls that have reached the dispatcher so far, oldest first. -/
def World.invocations (world : World) : List Event :=
  world.journal.filter Event.isInvocation

/-- The call that a visit makes, if its node is one. -/
def Visit.invocation? (visit : Visit) : Option Event :=
  match visit.node with
  | .call function _ _ => some (.invoked .blocking function visit.operands)
  | _ => none

/-! ## Native code makes no calls -/

/-- Entering native code is no call. -/
theorem Event.filter_isInvocation_of_entered {events : List Event}
    (hentered : ∀ event ∈ events, event.entered?.isSome) :
    events.filter Event.isInvocation = [] := by
  refine List.filter_eq_nil_iff.2 fun event hmem => ?_
  have hnative := hentered event hmem
  cases event <;> first | exact Bool.false_ne_true | cases hnative

namespace World

theorem Works.invocations {world next : World} {events : List Event}
    (hworks : Works world next events) :
    next.invocations = world.invocations ++ events.filter Event.isInvocation := by
  simp only [World.invocations]
  rw [hworks.journal, List.filter_append]

/-- Nobody reaches the dispatcher while somebody waits. -/
theorem Lapses.invocations {world next : World} (hlapses : Lapses world next) :
    next.invocations = world.invocations := by
  obtain ⟨events, hjournal, hentered⟩ := hlapses.journal
  simp only [World.invocations]
  rw [hjournal, List.filter_append, Event.filter_isInvocation_of_entered hentered,
    List.append_nil]

theorem invocations_runTarget (world : World) (limit : Millis) (name : String)
    (context : Context) (arguments : List Value) (target : Target) :
    (world.runTarget limit name context arguments target).2.2.invocations = world.invocations := by
  obtain ⟨opened, launched, ended, last, head, rest, tail, run, hperforms, hanswers⟩ :=
    world.performs_runTarget limit name context arguments target
  have hclosing := hperforms.closing
  have hhead := Event.filter_isInvocation_of_entered hperforms.opening.entered
  have htail := Event.filter_isInvocation_of_entered hclosing.course.entered
  rw [hanswers]
  dsimp only
  rw [hclosing.concludes.invocations, hclosing.waits.invocations, hclosing.launches.invocations,
    hperforms.opens.invocations, hhead, htail]
  simp only [List.filter_nil, List.append_nil]

end World

/-! ## Calls and nodes -/

theorem Descriptor.invocations_handOver (descriptor : Descriptor) (name : String)
    (answer : Answer (Option Value)) (context : Context) (world : World) :
    (descriptor.handOver name answer context world).world.invocations = world.invocations := by
  rcases answer with ⟨fault | _⟩ | value
  · rfl
  · rfl
  · simp only [handOver]
    rcases descriptor.checkReturn value with fault | value <;> rfl

theorem Outcome.invocations_checkedAt {A : Type} (location : Option Location) (result : Checked A)
    (context : Context) (world : World) :
    (checkedAt location result context world).world.invocations = world.invocations := by
  cases result <;> rfl

theorem Outcome.invocations_leave {A : Type} (outcome : Outcome A) :
    outcome.leave.world.invocations = outcome.world.invocations := by
  simp only [leave]
  split <;> rfl

theorem Outcome.invocations_needed (function : String) (location : Location)
    (outcome : Outcome (Option Value)) :
    (outcome.needed function location).world.invocations = outcome.world.invocations := by
  rcases outcome with ⟨halt | _ | value, context, world⟩ <;> rfl

namespace Engine

variable {engine : Engine}

/-- A call that waits reaches the dispatcher once, refused or not. -/
theorem invocations_invoke (engine : Engine) (name : String) (arguments : List Value)
    (context : Context) (world : World) :
    (engine.invoke name arguments context world).world.invocations =
      world.invocations ++ [.invoked .blocking name arguments] := by
  have hnoted : (world.note (.invoked .blocking name arguments)).invocations =
      world.invocations ++ [.invoked .blocking name arguments] :=
    List.filter_append world.journal [.invoked .blocking name arguments]
  simp only [invoke]
  rcases engine.registry.check .blocking name arguments with fault | ⟨descriptor, target⟩
  · exact hnoted
  · dsimp only
    rw [Descriptor.invocations_handOver, World.invocations_runTarget]
    exact hnoted

theorem Evaluates.invocations {visit : Visit} {context : Context} {world : World}
    {outcome : Outcome Value} (hvisit : engine.Evaluates visit context world outcome) :
    outcome.world.invocations = world.invocations ++ visit.invocation?.toList := by
  cases hvisit with
  | literal => exact (List.append_nil _).symm
  | var | binary =>
      rw [Outcome.invocations_checkedAt]
      exact (List.append_nil _).symm
  | call function arguments location values =>
      rw [Outcome.invocations_needed, invokeAt, Outcome.invocations_leave]
      exact invocations_invoke engine function values _ world

/-- The calls made on the way are those of the visited nodes. -/
theorem Visits.invocations {start here : Context} {origin now : World} {visits : List Visit}
    {stack : List Value} (hvisits : engine.Visits start origin visits stack here now) :
    now.invocations = origin.invocations ++ visits.filterMap Visit.invocation? := by
  induction hvisits with
  | start => exact (List.append_nil _).symm
  | @next visits visit _ _ _ _ _ _ _ _ hvalue ih =>
      have hlast := hvalue.invocations
      dsimp only at hlast
      rw [hlast, ih, List.filterMap_append, List.append_assoc]
      cases hcall : visit.invocation? <;> simp [hcall]

theorem Traverses.invocations {expr : Expr} {context : Context} {world : World}
    {visits : List Visit} {outcome : Outcome Value}
    (htraverses : engine.Traverses context world expr visits outcome) :
    outcome.world.invocations = world.invocations ++ visits.filterMap Visit.invocation? := by
  cases htraverses with
  | whole _ hvisits => exact hvisits.invocations
  | @stopped before last _ _ _ _ _ _ _ _ hvisits _ hhalt =>
      have hlast := hhalt.invocations
      rw [hvisits.invocations, List.append_assoc] at hlast
      rw [List.filterMap_append]
      cases hcall : last.invocation? <;> simpa [hcall] using hlast

/-- Evaluation is strict, goes from left to right and stops at the first failure.  It visits the
nodes of the expression in post-order, and nothing happens after the visit of a node that has no
value.  The calls that reach the dispatcher are those of the visited nodes, each once and with the
values of its arguments; they begin the calls in the expression and, if there is a value, are all of
them; otherwise they are those before the node that has none, and that node if it is a call. -/
theorem evaluation_follows_post_order (engine : Engine) (expr : Expr) (context : Context)
    (world : World) :
    ∃ visits, engine.Traverses context world expr visits (engine.evaluate expr context world) ∧
      (engine.evaluate expr context world).world.invocations =
        world.invocations ++ visits.filterMap Visit.invocation? ∧
      (visits.map Visit.node).filter Expr.isCall <+: expr.calls ∧
      (∀ value, (engine.evaluate expr context world).result = .ok value →
        (visits.map Visit.node).filter Expr.isCall = expr.calls) ∧
      (∀ halt, (engine.evaluate expr context world).result = .error halt →
        ∃ before node after, expr.postorder = before ++ node :: after ∧
          (visits.map Visit.node).filter Expr.isCall =
            before.filter Expr.isCall ++ [node].filter Expr.isCall) := by
  obtain ⟨visits, htraverses⟩ := engine.traverses_evaluate expr context world
  refine ⟨visits, htraverses, htraverses.invocations, htraverses.nodes_prefix.filter _, ?_, ?_⟩
  · intro value hvalue
    generalize engine.evaluate expr context world = outcome at htraverses hvalue
    cases htraverses with
    | whole hnodes _ => rw [hnodes, Expr.calls]
    | stopped => cases hvalue
  · intro halt hhalt
    generalize engine.evaluate expr context world = outcome at htraverses hhalt
    cases htraverses with
    | whole => cases hhalt
    | @stopped before last after _ _ _ _ _ _ hnodes _ _ _ =>
        refine ⟨before.map Visit.node, last.node, after, hnodes, ?_⟩
        rw [List.map_append, List.filter_append]
        rfl

end Engine

end Switchboard
