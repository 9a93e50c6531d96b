import Switchboard.Proofs.Assembly
import Switchboard.Proofs.Lending

/-!
What an evaluation sees of its context.

Two contexts that have the same values for the variables of an expression cannot be told apart by
evaluating it.  How the scopes are laid out, what else is bound in them, where the caller stands,
the trace and the handle of a send leave no mark: neither in the value or the failure, nor in the
messages, the transports or the diagnostics.

A node reports at its own location, and a call puts its location on top of the stack before
anything looks there.  What is left is native code, which is given the context as it is.  The
functions of the library have no use for it, and neither has the action that sends a message.
-/

namespace Switchboard

namespace Expr

mutual

/-- The names of the variables in an expression, from left to right. -/
def vars : Expr → List String
  | .literal _ => []
  | .var name _ => [name]
  | .binary _ left right _ => left.vars ++ right.vars
  | .call _ arguments _ => varsAll arguments

/-- The names of the variables in expressions, one expression after the other. -/
def varsAll : List Expr → List String
  | [] => []
  | expr :: rest => expr.vars ++ varsAll rest

end

end Expr

/-! ## Who has no use for the context -/

/-- A function that does the same in every context, and leaves the context alone. -/
def NativeFunction.IgnoresContext (native : NativeFunction) : Prop :=
  ∀ store arguments, ∃ answer left, ∀ context,
    native.run store context arguments = ⟨answer, context, left⟩

/-- An action that prepares the same request in every context. -/
def Action.IgnoresContext (native : Action) : Prop :=
  ∀ store arguments, ∃ step, ∀ context, native.prepare store context arguments = step

def Contribution.IgnoresContext : Contribution → Prop
  | .function native => native.IgnoresContext
  | .action native => native.IgnoresContext

/-- No native code that is registered has any use for its context. -/
def Registry.IgnoresContexts (registry : Registry) : Prop :=
  ∀ entry ∈ registry.entries, entry.contribution.IgnoresContext

theorem NativeFunction.IgnoresContext.leavesContext {native : NativeFunction}
    (hignores : native.IgnoresContext) : native.LeavesContext := by
  intro store context arguments
  obtain ⟨answer, left, hrun⟩ := hignores store arguments
  rw [hrun]

theorem Registry.IgnoresContexts.leavesContexts {registry : Registry}
    (hignores : registry.IgnoresContexts) : registry.LeavesContexts := by
  intro entry hentry native hnative
  have hentry := hignores entry hentry
  rw [hnative] at hentry
  exact hentry.leavesContext

theorem LibraryBody.ignoresContext (body : LibraryBody) (spec : NativeSpec) :
    (body.toFunction spec).IgnoresContext := by
  intro store arguments
  simp only [toFunction]
  rcases body store arguments with halt | ⟨value, left⟩
  · exact ⟨.error halt, store, fun _ => rfl⟩
  · exact ⟨.ok value, left, fun _ => rfl⟩

theorem Jms.ignoresContext_send : Jms.send.IgnoresContext := by
  intro store arguments
  exact ⟨_, fun _ => rfl⟩

/-- In a system that was built native code has no use for its context, unless it is among what was
added to the library. -/
theorem Blueprint.ignoresContexts_of_build {blueprint : Blueprint} {engine : Engine}
    {start : World} (hbuild : blueprint.build = .ok (engine, start))
    (hown : ∀ contribution ∈ blueprint.contributions, contribution.IgnoresContext) :
    engine.registry.IgnoresContexts := by
  intro entry hentry
  rcases contribution_cases hbuild hentry with ⟨body, spec, hbody⟩ | hsend | hmem
  · rw [hbody]
    exact body.ignoresContext spec
  · rw [hsend]
    exact Jms.ignoresContext_send
  · exact hown entry.contribution hmem

/-! ## Outcomes that differ in the context alone -/

namespace Outcome

variable {A B : Type}

/-- The same result, in the same world. -/
structure Alike (outcome other : Outcome A) : Prop where
  result : outcome.result = other.result
  world : outcome.world = other.world

theorem Alike.andThen {outcome other : Outcome A} {next : A → Context → World → Outcome B}
    {left right : Context} (halike : outcome.Alike other) (hleft : outcome.Restores left)
    (hright : other.Restores right)
    (hnext : ∀ value world, (next value left world).Alike (next value right world)) :
    (outcome.andThen next).Alike (other.andThen next) := by
  simp only [Outcome.andThen]
  rw [← halike.result, ← halike.world]
  rcases hresult : outcome.result with halt | value
  · exact ⟨rfl, rfl⟩
  · -- With a value there was no panic, so what follows finds both contexts as they were lent.
    have hother : other.result = .ok value := halike.result ▸ hresult
    have hone := hleft (by rw [hresult]; rintro ⟨⟩)
    have htwo := hright (by rw [hother]; rintro ⟨⟩)
    rw [hone, htwo]
    exact hnext value outcome.world

theorem alike_checkedAt (location : Location) (result : Checked A) (left right : Context)
    (world : World) : (checkedAt (some location) result left world).Alike
      (checkedAt (some location) result right world) := by
  cases result with
  | ok value => exact ⟨rfl, rfl⟩
  | error fault => exact ⟨rfl, rfl⟩

@[simp] theorem leave_world (outcome : Outcome A) : outcome.leave.world = outcome.world := by
  simp only [leave]
  split <;> rfl

theorem Alike.leave {outcome other : Outcome A} (halike : outcome.Alike other) :
    outcome.leave.Alike other.leave := by
  refine ⟨?_, ?_⟩
  · rw [leave_result, leave_result, halike.result]
  · rw [leave_world, leave_world, halike.world]

end Outcome

/-! ## Calls -/

section Calls

variable {left right : Context}

/-- A failure of a call shows the location on top of the stack, and no more of the context. -/
theorem Outcome.alike_failIn {A : Type} (hlocation : left.location? = right.location?)
    (name : String) (fault : Fault) (world : World) :
    (failIn name fault left world : Outcome A).Alike (failIn name fault right world) := by
  simp only [failIn, World.reportIn, Context.fail]
  rw [hlocation]
  exact ⟨rfl, rfl⟩

theorem Descriptor.alike_handOver (descriptor : Descriptor)
    (hlocation : left.location? = right.location?) (name : String)
    (answer : Answer (Option Value)) (world : World) :
    (descriptor.handOver name answer left world).Alike
      (descriptor.handOver name answer right world) := by
  simp only [handOver]
  rcases answer with ⟨fault | _⟩ | value
  · exact Outcome.alike_failIn hlocation name fault world
  · exact ⟨rfl, rfl⟩
  · dsimp only
    rcases descriptor.checkReturn value with fault | result
    · exact Outcome.alike_failIn hlocation name fault world
    · exact ⟨rfl, rfl⟩

/-- What is run comes to the same in every context. -/
theorem World.exists_runTarget {contribution : Contribution}
    (hignores : contribution.IgnoresContext) {name : String} {arguments : List Value}
    {target : Target} (htarget : contribution.resolveTarget name arguments = .ok target)
    (world : World) (limit : Millis) :
    ∃ answer next, ∀ context,
      world.runTarget limit name context arguments target = (answer, context, next) := by
  rcases Contribution.resolveTarget_eq_ok htarget with
    ⟨native, rfl, rfl⟩ | ⟨native, connector, rfl, rfl, -⟩
  · obtain ⟨answer, left, hrun⟩ := hignores world.store arguments
    refine ⟨answer, (world.note (.executed name arguments)).withStore left, ?_⟩
    intro context
    have hhere : native.run (world.note (.executed name arguments)).store context arguments =
        ⟨answer, context, left⟩ := hrun context
    simp only [runTarget, execute]
    rw [hhere]
  · obtain ⟨step, hstep⟩ := hignores world.store arguments
    have hprepare (context : Context) :
        native.prepare (world.note (.prepared name arguments)).store context arguments = step :=
      hstep context
    simp only [runTarget, perform, prepare, hprepare]
    exact ⟨_, _, fun context => rfl⟩

namespace Engine

variable {engine : Engine}

theorem alike_invoke (hignores : engine.registry.IgnoresContexts)
    (hlocation : left.location? = right.location?) (name : String) (arguments : List Value)
    (world : World) :
    (engine.invoke name arguments left world).Alike (engine.invoke name arguments right world) := by
  simp only [invoke]
  rcases hcheck : engine.registry.check .blocking name arguments with fault | ⟨descriptor, target⟩
  · exact Outcome.alike_failIn hlocation name fault _
  · obtain ⟨entry, hadmits, -⟩ := Registry.check_eq_ok_iff.1 hcheck
    dsimp only
    rw [hlocation]
    generalize (world.note (.invoked .blocking name arguments)).emit
      (.ofDispatch name right.location?) = begun
    obtain ⟨answer, next, hrun⟩ := begun.exists_runTarget (hignores entry hadmits.mem)
      hadmits.target engine.config.transportTimeout
    rw [hrun, hrun]
    exact descriptor.alike_handOver hlocation name answer next

/-- While a call runs its own location is on top of the stack, whatever is below. -/
theorem alike_invokeAt (hignores : engine.registry.IgnoresContexts) (name : String)
    (arguments : List Value) (location : Location) (left right : Context) (world : World) :
    (engine.invokeAt name arguments (some location) left world).Alike
      (engine.invokeAt name arguments (some location) right world) := by
  have hlocation : (left.pushLocation location).location? =
      (right.pushLocation location).location? := rfl
  exact (alike_invoke hignores hlocation name arguments world).leave

end Engine

end Calls

/-! ## Expressions -/

namespace Engine

variable {engine : Engine} {left right : Context}

mutual

theorem alike_evaluate (hignores : engine.registry.IgnoresContexts) :
    ∀ (expr : Expr) (world : World),
      (∀ name ∈ expr.vars, left.get? name = right.get? name) →
        (engine.evaluate expr left world).Alike (engine.evaluate expr right world)
  | .literal _, _, _ => ⟨rfl, rfl⟩
  | .var name location, world, hsame => by
      have hget : left.get name = right.get name := by
        simp only [Context.get]
        rw [hsame name (List.mem_singleton.2 rfl)]
      simp only [evaluate]
      rw [hget]
      exact Outcome.alike_checkedAt location _ left right world
  | .binary op first second location, world, hsame => by
      obtain ⟨hfirst, hsecond⟩ := List.forall_mem_append.1 hsame
      have hleaves := hignores.leavesContexts
      apply (alike_evaluate hignores first world hfirst).andThen
        (restores_evaluate hleaves first left world) (restores_evaluate hleaves first right world)
      intro value world
      apply (alike_evaluate hignores second world hsecond).andThen
        (restores_evaluate hleaves second left world)
        (restores_evaluate hleaves second right world)
      intro other world
      exact Outcome.alike_checkedAt location _ left right world
  | .call function arguments location, world, hsame => by
      have hleaves := hignores.leavesContexts
      apply (alike_evaluateAll hignores arguments world hsame).andThen
        (restores_evaluateAll hleaves arguments left world)
        (restores_evaluateAll hleaves arguments right world)
      intro values world
      apply (alike_invokeAt hignores function values location left right world).andThen
        (restores_invokeAt hleaves function values location left world)
        (restores_invokeAt hleaves function values location right world)
      intro value world
      cases value with
      | some value => exact ⟨rfl, rfl⟩
      | none => exact ⟨rfl, rfl⟩

theorem alike_evaluateAll (hignores : engine.registry.IgnoresContexts) :
    ∀ (exprs : List Expr) (world : World),
      (∀ name ∈ Expr.varsAll exprs, left.get? name = right.get? name) →
        (engine.evaluateAll exprs left world).Alike (engine.evaluateAll exprs right world)
  | [], _, _ => ⟨rfl, rfl⟩
  | expr :: rest, world, hsame => by
      obtain ⟨hexpr, hrest⟩ := List.forall_mem_append.1 hsame
      have hleaves := hignores.leavesContexts
      apply (alike_evaluate hignores expr world hexpr).andThen
        (restores_evaluate hleaves expr left world) (restores_evaluate hleaves expr right world)
      intro value world
      apply (alike_evaluateAll hignores rest world hrest).andThen
        (restores_evaluateAll hleaves rest left world)
        (restores_evaluateAll hleaves rest right world)
      intro values world
      exact ⟨rfl, rfl⟩

end

/-- In a system with the library, the contexts that have the same values for the variables of an
expression, or none, are all the same to it: evaluating it comes to the same value, failure or panic
in the same world, with the same messages, transports and diagnostics.  Contributions besides the
library do not matter as long as they have no use for the context either. -/
theorem evaluation_sees_only_its_variables {blueprint : Blueprint} {engine : Engine}
    {start : World} (hbuild : blueprint.build = .ok (engine, start))
    (hown : ∀ contribution ∈ blueprint.contributions, contribution.IgnoresContext) (expr : Expr)
    (left right : Context) (hsame : ∀ name ∈ expr.vars, left.get? name = right.get? name)
    (world : World) :
    (engine.evaluate expr left world).result = (engine.evaluate expr right world).result ∧
      (engine.evaluate expr left world).world = (engine.evaluate expr right world).world := by
  have halike := alike_evaluate (blueprint.ignoresContexts_of_build hbuild hown) expr world hsame
  exact ⟨halike.result, halike.world⟩

/-- The length of what one variable holds, added to another variable. -/
def lengthAndMore : Expr :=
  .binary .add (.call "lang.string:length" [.var "text" ⟨"f", 1, 20⟩] ⟨"f", 1, 1⟩)
    (.var "more" ⟨"f", 1, 28⟩) ⟨"f", 1, 26⟩

/-- A context in which only a text is bound. -/
def plainContext : Context :=
  (Context.ofTrace "plain").set "text" (.string "ab")

/-- A context in which the text was bound before something else was, in the middle of a call and
after a send. -/
def busyContext : Context :=
  ((((plainContext.set "other" (.integer 1)).pushScope.set "flag" (.boolean true)).pushLocation
    ⟨"g", 9, 9⟩).setCompletion ⟨⟨Identity.completions, 3⟩, "net.jms:send"⟩)

/-- A plain context and a busy one are the same to an expression with a variable that both have and
one that neither has. -/
theorem evaluation_sees_only_its_variables_of_text :
    ∃ engine start, Blueprint.build ⟨.default, [], [.loopback (.ofProtocol "jms")]⟩ =
        .ok (engine, start) ∧
      (∀ name ∈ lengthAndMore.vars, plainContext.get? name = busyContext.get? name) ∧
      (engine.evaluate lengthAndMore plainContext start).result =
        (engine.evaluate lengthAndMore busyContext start).result ∧
      (engine.evaluate lengthAndMore plainContext start).world =
        (engine.evaluate lengthAndMore busyContext start).world := by
  have hdistinct : (([.loopback (.ofProtocol "jms")] : List Transport).map
      Transport.protocol).Nodup := by decide +kernel
  obtain ⟨engine, start, hcheck, -, -⟩ := @Blueprint.exists_check .default _ rfl hdistinct
  have hbuild := Blueprint.build_of_check hcheck
  rw [if_pos (by decide +kernel)] at hbuild
  have hsame : ∀ name ∈ lengthAndMore.vars,
      plainContext.get? name = busyContext.get? name := by
    intro name hname
    rcases List.mem_pair.1 hname with rfl | rfl
    · rfl
    · rfl
  exact ⟨engine, start, hbuild, hsame,
    evaluation_sees_only_its_variables hbuild (List.forall_mem_nil _) lengthAndMore plainContext
      busyContext hsame start⟩

end Engine

end Switchboard
