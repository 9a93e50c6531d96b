import Switchboard.Proofs.Contexts
import Switchboard.Proofs.Panics
import Switchboard.Proofs.Progress

/-!
A callback fires once.

Starting a call either makes the callback fire at once or leaves exactly one task behind that will.
Only a panic of native code that runs in the caller can lose it: of the arguments, or of the two
parts of an action that run before its request is on the way.
-/

namespace Switchboard

/-- No action that is registered panics before its request is on the way. -/
def Registry.CalmAtStart (registry : Registry) : Prop :=
  ∀ entry ∈ registry.entries, ∀ native, entry.contribution = .action native →
    native.CalmAtStart

namespace Engine

/-- The task that a call with a callback leaves behind. -/
structure Spawns (engine : Engine) (ticket : Nat) (context : Context) (task : Task) : Prop where
  ticket : task.ticket = ticket
  context : task.context = context ∨
    ∃ completion, task.context = context.setCompletion completion
  body : ∀ native arguments, task.work = .body native arguments →
    ∃ entry ∈ engine.registry.entries, entry.contribution = .function native

/-- What starting a call with a callback comes to, with this context in the hands of the call. -/
inductive Begins (engine : Engine) (ticket : Nat) (context : Context) (world : World) :
    Started × World → Prop
  | delivered {after : World} (hfires : World.Fires ticket context world after) :
      Begins engine ticket context world (.delivered, after)
  | spawned {before : World} {task : Task} (hchanges : World.Changes world before)
      (hspawns : engine.Spawns ticket context task) :
      Begins engine ticket context world (.spawned, before.spawn task)
  | panicked {after : World} (hchanges : World.Changes world after) :
      Begins engine ticket context world (.panicked, after)

variable {engine : Engine} {ticket : Nat} {context : Context} {world : World}

theorem Begins.after {between : World} {began : Started × World}
    (hchanges : World.Changes world between)
    (hbegins : engine.Begins ticket context between began) :
    engine.Begins ticket context world began := by
  cases hbegins with
  | delivered hfires => exact .delivered (hfires.after hchanges)
  | spawned hbetween hspawns => exact .spawned (hchanges.trans hbetween) hspawns
  | panicked hbetween => exact .panicked (hchanges.trans hbetween)

theorem begins_startAction (world : World) (limit : Millis) (ticket : Nat) (name : String)
    (descriptor : Descriptor) (native : Action) (connector : Connector) (arguments : List Value)
    (context : Context) :
    engine.Begins ticket context world (world.startAction limit ticket name descriptor native
      connector arguments context) := by
  have hvalidate := World.changes_validate world native name arguments
  simp only [World.startAction]
  split
  · next heq =>
    rw [heq] at hvalidate
    exact .after hvalidate (.delivered (World.fires_deliverFault _ ticket name context _))
  · next heq =>
    rw [heq] at hvalidate
    exact .panicked hvalidate
  · next world' heq =>
    rw [heq] at hvalidate
    have hprepare := hvalidate.trans
      (World.changes_prepare world' native name connector context arguments)
    split
    · next heq =>
      rw [heq] at hprepare
      exact .after hprepare (.delivered (World.fires_deliverFault _ ticket name context _))
    · next heq =>
      rw [heq] at hprepare
      exact .panicked hprepare
    · next request prepared heq =>
      rw [heq] at hprepare
      refine .spawned (hprepare.tail (.complete prepared name)) ⟨rfl, .inr ⟨_, rfl⟩, ?_⟩
      rintro _ _ ⟨⟩

theorem begins_start (engine : Engine) (ticket : Nat) (name : String) (arguments : List Value)
    (context : Context) (world : World) :
    engine.Begins ticket context world (engine.start ticket name arguments context world) := by
  have hnote : World.Changes world (world.note (.invoked .callback name arguments)) :=
    .single (.note world _)
  simp only [start]
  split
  · exact .after hnote (.delivered (World.fires_deliverFault _ ticket name context _))
  · next descriptor target hcheck =>
    obtain ⟨entry, hadmits, rfl⟩ := Registry.check_eq_ok_iff.1 hcheck
    have hemit := hnote.tail (.emit _ (.ofDispatch name context.location?))
    rcases Contribution.resolveTarget_eq_ok hadmits.target with
      ⟨native, hnative, rfl⟩ | ⟨native, connector, -, rfl, -⟩
    · refine .spawned hemit ⟨rfl, .inl rfl, ?_⟩
      rintro _ _ ⟨⟩
      exact ⟨entry, hadmits.mem, hnative⟩
    · exact .after hemit (begins_startAction _ _ ticket name _ native connector arguments context)

theorem startAction_ne_panicked {native : Action} (hcalm : native.CalmAtStart) (world : World)
    (limit : Millis) (ticket : Nat) (name : String) (descriptor : Descriptor)
    (connector : Connector) (arguments : List Value) (context : Context) :
    (world.startAction limit ticket name descriptor native connector arguments context).1 ≠
      .panicked := by
  have hvalidate := hcalm.validate (world.note (.validated name arguments)).store arguments
  simp only [World.startAction]
  split
  · exact Started.noConfusion
  · next heq => exact absurd (congrArg Prod.fst heq) hvalidate
  · next world' _ =>
    have hprepare : (world'.prepare native name connector context arguments).1 ≠
        .error .panicked := World.prepare_ne_panicked hcalm name connector context arguments
    split
    · exact Started.noConfusion
    · next heq => exact absurd (congrArg Prod.fst heq) hprepare
    · exact Started.noConfusion

theorem start_ne_panicked (hcalm : engine.registry.CalmAtStart) (ticket : Nat) (name : String)
    (arguments : List Value) (context : Context) (world : World) :
    (engine.start ticket name arguments context world).1 ≠ .panicked := by
  simp only [start]
  split
  · exact Started.noConfusion
  · next descriptor target hcheck =>
    obtain ⟨entry, hadmits, rfl⟩ := Registry.check_eq_ok_iff.1 hcheck
    rcases Contribution.resolveTarget_eq_ok hadmits.target with
      ⟨native, -, rfl⟩ | ⟨native, connector, hnative, rfl, -⟩
    · exact Started.noConfusion
    · exact startAction_ne_panicked (hcalm entry hadmits.mem native hnative) _ _ ticket name _
        connector arguments context

/-! ## Expressions -/

/-- The context with which the outcome of an expression is handed back: that of the call once its
arguments have values, with the location of the call on top, and otherwise the one at hand. -/
def handed (engine : Engine) (expr : Expr) (context : Context) (world : World) : Context :=
  match expr with
  | .call _ arguments location =>
      let outcome := engine.evaluateAll arguments context world
      match outcome.result with
      | .ok _ => outcome.context.pushLocation location
      | .error _ => outcome.context
  | _ => context

/-- The arguments of a call do not panic. -/
def ArgumentsCalm (engine : Engine) (expr : Expr) (context : Context) (world : World) : Prop :=
  ∀ function arguments location, expr = .call function arguments location →
    (engine.evaluateAll arguments context world).result ≠ .error .panicked

theorem begins_startExpr (engine : Engine) (ticket : Nat) (expr : Expr) (context : Context)
    (world : World) :
    ∃ between, World.Moves world between ∧
      engine.Begins ticket (engine.handed expr context world) between
        (engine.startExpr ticket expr context world) := by
  cases expr with
  | call function arguments location =>
      refine ⟨_, engine.moves_evaluateAll arguments context world, ?_⟩
      simp only [startExpr, handed]
      rcases (engine.evaluateAll arguments context world).result with ⟨failure | _⟩ | values
      · exact .delivered (World.fires_deliver _ ticket _ _)
      · exact .panicked .refl
      · exact begins_start engine ticket function values _ _
  | literal | var | binary =>
      exact ⟨world, .refl, .delivered ⟨_, _, .single (.emit world _), rfl⟩⟩

theorem startExpr_ne_panicked (hcalm : engine.registry.CalmAtStart) (ticket : Nat) {expr : Expr}
    {context : Context} {world : World} (harguments : engine.ArgumentsCalm expr context world) :
    (engine.startExpr ticket expr context world).1 ≠ .panicked := by
  cases expr with
  | call function arguments location =>
      have hresult := harguments function arguments location rfl
      simp only [startExpr]
      split
      · exact start_ne_panicked hcalm ticket function _ _ _
      · exact Started.noConfusion
      · next heq => exact absurd heq hresult
  | literal | var | binary => exact Started.noConfusion

/-- What begins for one callback is nothing to another. -/
theorem Begins.runs {owner : Nat} (howner : owner ≠ ticket) {began : Started × World}
    (hbegins : engine.Begins owner context world began) : World.Runs ticket world began.2 := by
  cases hbegins with
  | delivered hfires =>
      obtain ⟨htasks, outcome, hdeliveries⟩ := hfires.tickets ticket
      rw [if_neg howner, List.append_nil] at hdeliveries
      exact .single (.elsewhere htasks hdeliveries)
  | @spawned before task hchanges hspawns =>
      obtain ⟨htasks, hdeliveries⟩ := hchanges.tickets ticket
      refine .single (.elsewhere ?_ hdeliveries)
      have hother : task.ticket ≠ ticket := by
        rw [hspawns.ticket]
        exact howner
      rw [World.tasksOf_spawn, if_neg hother, List.append_nil]
      exact htasks
  | panicked hchanges => exact hchanges.moves.runs ticket

theorem runs_startExpr {owner : Nat} (howner : owner ≠ ticket) (expr : Expr) (context : Context)
    (world : World) : World.Runs ticket world (engine.startExpr owner expr context world).2 := by
  obtain ⟨between, hmoves, hbegins⟩ := begins_startExpr engine owner expr context world
  exact (hmoves.runs ticket).trans (hbegins.runs howner)

/-! ## Once -/

/-- Nothing stands for the ticket yet. -/
theorem tickets_of_entrusted_eq_zero (hfresh : world.entrusted ticket = 0) :
    world.tasksOf ticket = [] ∧ world.deliveriesOf ticket = [] := by
  simp only [World.entrusted] at hfresh
  exact ⟨List.eq_nil_of_length_eq_zero (by omega), List.eq_nil_of_length_eq_zero (by omega)⟩

/-- What has begun is owed: by a delivery if the callback has fired, by a task otherwise. -/
theorem Begins.owes {began : Started × World} {P : Context → Prop}
    (hbegins : engine.Begins ticket context world began) (hcalm : began.1 ≠ .panicked)
    (hfresh : world.entrusted ticket = 0) (hcontext : P context)
    (hspawns : ∀ task, engine.Spawns ticket context task → ∀ later, P (task.handsBack later)) :
    began.2.Owes ticket P ∧
      (began.1 = .delivered ∧ began.2.tasksOf ticket = [] ∨
        began.1 = .spawned ∧ began.2.deliveriesOf ticket = []) := by
  obtain ⟨hnoTasks, hnoDeliveries⟩ := tickets_of_entrusted_eq_zero hfresh
  cases hbegins with
  | panicked hchanges => exact absurd rfl hcalm
  | delivered hfires =>
      obtain ⟨htasks, outcome, hdeliveries⟩ := hfires.tickets ticket
      rw [if_pos rfl, hnoDeliveries, List.nil_append] at hdeliveries
      rw [hnoTasks] at htasks
      refine ⟨⟨?_, ?_, ?_⟩, .inl ⟨rfl, htasks⟩⟩
      · simp only [World.entrusted]
        rw [htasks, hdeliveries]
        rfl
      · rw [htasks]
        intro task htask
        cases htask
      · rw [hdeliveries]
        intro delivery hdelivery
        rw [List.mem_singleton.1 hdelivery]
        exact hcontext
  | @spawned before task hchanges htask =>
      obtain ⟨htasks, hdeliveries⟩ := hchanges.tickets ticket
      have howner := htask.ticket
      have hspawned : (before.spawn task).tasksOf ticket = [task] := by
        rw [World.tasksOf_spawn, if_pos howner, htasks, hnoTasks]
        rfl
      have hnone : (before.spawn task).deliveriesOf ticket = [] := hdeliveries.trans hnoDeliveries
      refine ⟨⟨?_, ?_, ?_⟩, .inr ⟨rfl, hnone⟩⟩
      · simp only [World.entrusted]
        rw [hspawned, hnone]
        rfl
      · rw [hspawned]
        intro other hother
        rw [List.mem_singleton.1 hother]
        exact hspawns task htask
      · rw [hnone]
        intro delivery hdelivery
        cases hdelivery

/-! ## What comes back -/

/-- The context that came with an expression, with the location of the call on top exactly when the
arguments of the call have values. -/
structure GivesBack (engine : Engine) (expr : Expr) (context : Context) (world : World)
    (back : Context) : Prop where
  traceId : back.traceId = context.traceId
  scope : back.scope = context.scope
  outer : back.outer = context.outer
  pushed : ∀ function arguments location values, expr = .call function arguments location →
    (engine.evaluateAll arguments context world).result = .ok values →
      back.locations = location :: context.locations
  kept : (∀ function arguments location values, expr = .call function arguments location →
    (engine.evaluateAll arguments context world).result ≠ .ok values) →
      back.locations = context.locations

theorem GivesBack.setCompletion {expr : Expr} {back : Context}
    (hback : engine.GivesBack expr context world back) (completion : Completion) :
    engine.GivesBack expr context world (back.setCompletion completion) :=
  ⟨hback.traceId, hback.scope, hback.outer, hback.pushed, hback.kept⟩

theorem givesBack_handed (hleaves : engine.registry.LeavesContexts) {expr : Expr}
    (harguments : engine.ArgumentsCalm expr context world) :
    engine.GivesBack expr context world (engine.handed expr context world) := by
  cases expr with
  | call function arguments location =>
      have hcontext := restores_evaluateAll hleaves arguments context world
        (harguments function arguments location rfl)
      simp only [handed]
      rw [hcontext]
      rcases hresult : (engine.evaluateAll arguments context world).result with halt | values
      · refine ⟨rfl, rfl, rfl, ?_, fun _ => rfl⟩
        rintro _ _ _ values ⟨⟩ hvalues
        rw [hresult] at hvalues
        cases hvalues
      · refine ⟨rfl, rfl, rfl, ?_, ?_⟩
        · rintro _ _ _ _ ⟨⟩ _
          rfl
        · intro hnone
          exact absurd hresult (hnone function arguments location values rfl)
  | literal | var | binary =>
      refine ⟨rfl, rfl, rfl, ?_, fun _ => rfl⟩
      rintro _ _ _ _ ⟨⟩

theorem Spawns.handsBack (hleaves : engine.registry.LeavesContexts) {task : Task}
    (hspawns : engine.Spawns ticket context task) (later : World) :
    task.handsBack later = task.context := by
  simp only [Task.handsBack]
  split
  · next native arguments hwork =>
    obtain ⟨entry, hentry, hnative⟩ := hspawns.body native arguments hwork
    exact hleaves entry hentry native hnative _ _ _
  · rfl

theorem Spawns.givesBack (hleaves : engine.registry.LeavesContexts) {expr : Expr} {task : Task}
    {handed : Context} (hspawns : engine.Spawns ticket handed task)
    (hback : engine.GivesBack expr context world handed) (later : World) :
    engine.GivesBack expr context world (task.handsBack later) := by
  rw [hspawns.handsBack hleaves]
  rcases hspawns.context with hcontext | ⟨completion, hcontext⟩
  · rw [hcontext]
    exact hback
  · rw [hcontext]
    exact hback.setCompletion completion

/-- What starting an expression comes to: its callback is owed, in every later world, and with it a
context that satisfies whatever holds of the context in the hands of the call. -/
theorem startExpr_owes (hcalm : engine.registry.CalmAtStart) {expr : Expr}
    (hfresh : world.entrusted ticket = 0) (harguments : engine.ArgumentsCalm expr context world)
    {P : Context → Prop} (hhanded : P (engine.handed expr context world))
    (hspawns : ∀ task, engine.Spawns ticket (engine.handed expr context world) task →
      ∀ later, P (task.handsBack later)) :
    (engine.startExpr ticket expr context world).2.Owes ticket P ∧
      ((engine.startExpr ticket expr context world).1 = .delivered ∧
          (engine.startExpr ticket expr context world).2.tasksOf ticket = [] ∨
        (engine.startExpr ticket expr context world).1 = .spawned ∧
          (engine.startExpr ticket expr context world).2.deliveriesOf ticket = []) := by
  obtain ⟨between, hmoves, hbegins⟩ := begins_startExpr engine ticket expr context world
  have hbetween : between.entrusted ticket = 0 := by
    rw [(hmoves.runs ticket).entrusted]
    exact hfresh
  exact hbegins.owes (startExpr_ne_panicked hcalm ticket harguments) hbetween hhanded hspawns

/-- A text that cannot be read never makes the callback fire.  Otherwise it has fired when nothing
is left behind, and in every later world, whatever else has happened, it has fired exactly once or
has exactly one task that will make it fire; whoever waits for it gets it.  Functions that leave
their context alone hand back the context that came, with the location of the call on top when the
arguments have values. -/
theorem callback_fires_once (engine : Engine) (hcalm : engine.registry.CalmAtStart)
    (ticket : Nat) (source file : String) (context : Context) (world : World)
    (hfresh : world.entrusted ticket = 0)
    (harguments : ∀ expr, Expr.read source file = .ok expr →
      engine.ArgumentsCalm expr context world) :
    (∃ error, Expr.read source file = .error error ∧
      engine.startText ticket source file context world = .error error) ∨
    ∃ expr started after, Expr.read source file = .ok expr ∧
      engine.startText ticket source file context world = .ok (started, after) ∧
      (started = .delivered ∧ after.tasksOf ticket = [] ∨
        started = .spawned ∧ after.deliveriesOf ticket = []) ∧
      (∀ later, World.Runs ticket after later →
        (later.tasksOf ticket).length + (later.deliveriesOf ticket).length = 1) ∧
      ((after.await ticket).deliveriesOf ticket).length = 1 ∧
      (engine.registry.LeavesContexts → ∀ later, World.Runs ticket after later →
        ∀ delivery ∈ later.deliveriesOf ticket,
          engine.GivesBack expr context world delivery.context) := by
  simp only [startText]
  rcases hread : Expr.read source file with error | expr
  · exact .inl ⟨error, rfl, rfl⟩
  · right
    have hexpr := harguments expr hread
    obtain ⟨howes, hstarted⟩ := @startExpr_owes engine ticket context world hcalm expr hfresh hexpr
      (fun _ => True) trivial fun _ _ _ => trivial
    refine ⟨expr, _, _, rfl, rfl, hstarted, ?_, howes.await, ?_⟩
    · intro later hruns
      exact (hruns.owes howes).once
    · intro hleaves later hruns
      have hback := givesBack_handed hleaves hexpr
      obtain ⟨howes, -⟩ := startExpr_owes hcalm hfresh hexpr hback
        fun task hspawns => hspawns.givesBack hleaves hback
      exact (hruns.owes howes).deliveries

/-- A function that panics. -/
def failing : NativeFunction where
  spec := ⟨"lab", "fail", [], none, true⟩
  run store context _ := ⟨.error .panicked, context, store⟩

/-- An engine that can only call the function that panics. -/
def failures : Engine where
  config := .default
  registry := ⟨[⟨⟨⟨"lab", "fail"⟩, [], none, true, .function⟩, .function failing⟩]⟩
  operators := .standard

/-- Whether a text was read as a call without arguments. -/
def callsWithNothing : Except ReadError Expr → Bool
  | .ok (.call _ arguments _) => arguments.isEmpty
  | _ => false

/-- The callback of a function that panics in its task fires once. -/
theorem callback_fires_once_after_panic :
    failures.registry.CalmAtStart ∧ (World.start (.ofSlots 1)).entrusted 0 = 0 ∧
      ∃ expr started after, Expr.read "lab:fail()" "f" = .ok expr ∧
        failures.ArgumentsCalm expr (.ofTrace "t") (.start (.ofSlots 1)) ∧
        failures.startText 0 "lab:fail()" "f" (.ofTrace "t") (.start (.ofSlots 1)) =
          .ok (started, after) ∧
        ((after.await 0).deliveriesOf 0).length = 1 := by
  have hread : callsWithNothing (Expr.read "lab:fail()" "f") = true := by decide +kernel
  have hcalm : failures.registry.CalmAtStart := by
    intro entry hentry native hnative
    obtain rfl := List.mem_singleton.1 hentry
    cases hnative
  have harguments : ∀ expr, Expr.read "lab:fail()" "f" = .ok expr →
      failures.ArgumentsCalm expr (.ofTrace "t") (.start (.ofSlots 1)) := by
    rintro _ hexpr function arguments location rfl
    rw [hexpr] at hread
    obtain rfl := List.isEmpty_iff.1 hread
    rintro ⟨⟩
  refine ⟨hcalm, rfl, ?_⟩
  rcases callback_fires_once failures hcalm 0 "lab:fail()" "f" (.ofTrace "t")
    (.start (.ofSlots 1)) rfl harguments with
    ⟨error, herror, -⟩ | ⟨expr, started, after, hexpr, hstart, -, -, hawait, -⟩
  · rw [herror] at hread
    cases hread
  · exact ⟨expr, started, after, hexpr, harguments expr hexpr, hstart, hawait⟩

end Engine

end Switchboard
