import Switchboard.Proofs.Callback
import Switchboard.Proofs.Courses
import Switchboard.Proofs.Trail

/-!
Failures are reported once.

Failures are found in many places: at the nodes of an expression, by the checks of a call, in native
code, on the way to a transport, in the check of a result.  Each place reports what it finds, and no
place that a failure passes on its way out reports it again.  While a call waits the callbacks of
others may fire, and the records of their failures then stand among its own; what has to be shown is
that these are the only ones.
-/

namespace Switchboard

/-- What was recorded of a callback before it fired. -/
def Delivery.records (delivery : Delivery) : List Diagnostic :=
  Diagnostic.ofOutcome delivery.outcome

namespace World

/-! ## What is recorded of others -/

/-- These records were emitted and the callbacks of these others fired, and the failures among the
records are theirs. -/
structure Reports (world next : World) (records : List Diagnostic) (others : List Delivery) :
    Prop where
  deliveries : next.deliveries = world.deliveries ++ others
  diagnostics : next.diagnostics = world.diagnostics ++ records
  failures : records.filter Diagnostic.isFailure = others.flatMap Delivery.records
  idle : world.tasks = [] → next.tasks = [] ∧ others = []

namespace Reports

theorem refl (world : World) : Reports world world [] [] :=
  ⟨(List.append_nil _).symm, (List.append_nil _).symm, rfl, fun hidle => ⟨hidle, rfl⟩⟩

theorem trans {first second third : World} {records recorded : List Diagnostic}
    {others rest : List Delivery} (hfirst : Reports first second records others)
    (hsecond : Reports second third recorded rest) :
    Reports first third (records ++ recorded) (others ++ rest) := by
  refine ⟨?_, ?_, ?_, ?_⟩
  · rw [hsecond.deliveries, hfirst.deliveries, List.append_assoc]
  · rw [hsecond.diagnostics, hfirst.diagnostics, List.append_assoc]
  · rw [List.filter_append, List.flatMap_append, hfirst.failures, hsecond.failures]
  · intro hidle
    obtain ⟨hbetween, rfl⟩ := hfirst.idle hidle
    exact hsecond.idle hbetween

theorem of_works {world next : World} {events : List Event} (hworks : Works world next events) :
    Reports world next [] [] := by
  refine ⟨?_, ?_, rfl, ?_⟩
  · exact hworks.deliveries.trans (List.append_nil _).symm
  · exact hworks.diagnostics.trans (List.append_nil _).symm
  · intro hidle
    exact ⟨hworks.changes.quiet.tasks.trans hidle, rfl⟩

/-- A dispatch is no failure. -/
theorem admitted (world : World) (mode : CallMode) (name : String) (arguments : List Value)
    (context : Context) :
    Reports world (world.admitted mode name arguments context)
      [.ofDispatch name context.location?] [] :=
  ⟨(List.append_nil _).symm, rfl, rfl, fun hidle => ⟨hidle, rfl⟩⟩

/-- A callback has fired, and its failure was recorded. -/
theorem of_told {world last : World} {events : List Event} (hworks : Works world last events)
    (hbusy : world.tasks ≠ []) (tasks : List Task) (ticket : Nat) (context : Context)
    (outcome : Except Failure (Option Value)) :
    Reports world { (last.told outcome).deliver ticket context outcome with tasks }
      (Diagnostic.ofOutcome outcome) [⟨ticket, context, outcome⟩] := by
  have hdeliveries := told_deliveries last outcome
  have hdiagnostics := told_diagnostics last outcome
  rw [hworks.deliveries] at hdeliveries
  rw [hworks.diagnostics] at hdiagnostics
  refine ⟨congrArg (· ++ _) hdeliveries, hdiagnostics, ?_, fun hidle => absurd hidle hbusy⟩
  rw [List.flatMap_singleton]
  cases outcome <;> rfl

end Reports

theorem Lapse.reports {world next : World} (hlapse : Lapse world next) :
    ∃ others, Reports world next (others.flatMap Delivery.records) others := by
  rcases hlapse with ⟨before, task, after, htasks⟩ | time
  · have hbusy : world.tasks ≠ [] := by
      rw [htasks]
      exact List.append_ne_nil_of_right_ne_nil before (List.cons_ne_nil task after)
    rcases task.step_ends world with
      ⟨native, flight, -, hflies⟩ | ⟨last, entered, run, -, hworks, -, hstep⟩
    · have hreports := Reports.of_works hflies.works
      exact ⟨[], hreports.deliveries, hreports.diagnostics, rfl, fun hidle => absurd hidle hbusy⟩
    · rw [hstep]
      refine ⟨[⟨task.ticket, run.context, task.outcome run⟩], ?_⟩
      rw [List.flatMap_singleton]
      exact .of_told hworks hbusy _ task.ticket _ (task.outcome run)
  · exact ⟨[], (List.append_nil _).symm, (List.append_nil _).symm, rfl, fun hidle => ⟨hidle, rfl⟩⟩

/-- Whoever waits lets callbacks fire, and nothing is recorded meanwhile but their failures. -/
theorem Lapses.reports {world next : World} (hlapses : Lapses world next) :
    ∃ others, Reports world next (others.flatMap Delivery.records) others := by
  induction hlapses with
  | refl => exact ⟨[], .refl world⟩
  | tail _ hlapse ih =>
      obtain ⟨others, hothers⟩ := ih
      obtain ⟨rest, hrest⟩ := hlapse.reports
      refine ⟨others ++ rest, ?_⟩
      rw [List.flatMap_append]
      exact hothers.trans hrest

end World

/-! ## Calls that wait -/

/-- While a call that waits runs its target, nothing is recorded but the failures of others. -/
theorem Target.Performs.reports {target : Target} {limit : Millis} {name : String}
    {arguments : List Value} {context : Context} {world opened launched ended last : World}
    {head tail : List Event} {rest : Except (Halt Fault) Work} {run : NativeRun}
    (hperforms : target.Performs limit name arguments context world opened launched ended last head
      rest tail run) :
    ∃ others, World.Reports world last (others.flatMap Delivery.records) others := by
  have hclosing := hperforms.closing
  obtain ⟨others, hwaited⟩ := hclosing.waits.reports
  have hlaunched := World.Reports.of_works (hperforms.opens.trans hclosing.launches)
  have hrun := (hlaunched.trans hwaited).trans (.of_works hclosing.concludes)
  rw [List.append_nil, List.append_nil] at hrun
  exact ⟨others, hrun⟩

namespace Outcome

variable {A B : Type}

/-- A failure has been reported in the world that comes with it, last; nothing else has happened
since `last`. -/
inductive Told (last : World) : Outcome A → Prop
  | answered (value : A) (context : Context) : Told last ⟨.ok value, context, last⟩
  | failed (failure : Failure) (context : Context) :
      Told last ⟨.error (.failed failure), context, last.report failure⟩
  | panicked (context : Context) : Told last ⟨.error .panicked, context, last⟩

/-- An outcome whose failure has been reported once. -/
def Reported (world : World) (outcome : Outcome A) : Prop :=
  ∃ records others last, World.Reports world last records others ∧ Told last outcome

theorem Told.reported {world : World} {outcome : Outcome A} (htold : Told world outcome) :
    Reported world outcome :=
  ⟨[], [], world, .refl world, htold⟩

theorem Reported.after {world between : World} {records : List Diagnostic}
    {others : List Delivery} {outcome : Outcome A}
    (hreports : World.Reports world between records others)
    (houtcome : Reported between outcome) : Reported world outcome := by
  obtain ⟨recorded, rest, last, hrest, htold⟩ := houtcome
  exact ⟨_, _, last, hreports.trans hrest, htold⟩

theorem Reported.andThen {world : World} {outcome : Outcome A}
    {next : A → Context → World → Outcome B} (houtcome : Reported world outcome)
    (hnext : ∀ value context last, Reported last (next value context last)) :
    Reported world (outcome.andThen next) := by
  obtain ⟨records, others, last, hreports, htold⟩ := houtcome
  cases htold with
  | answered value context => exact .after hreports (hnext value context last)
  | failed failure context => exact ⟨_, _, last, hreports, .failed failure context⟩
  | panicked context => exact ⟨_, _, last, hreports, .panicked context⟩

theorem told_checkedAt (location : Option Location) (result : Checked A) (context : Context)
    (world : World) : Told world (checkedAt location result context world) := by
  cases result with
  | ok value => exact .answered value context
  | error fault => exact .failed _ context

theorem Reported.leave {world : World} {outcome : Outcome A} (houtcome : Reported world outcome) :
    Reported world outcome.leave := by
  obtain ⟨records, others, last, hreports, htold⟩ := houtcome
  refine ⟨records, others, last, hreports, ?_⟩
  cases htold with
  | answered value context => exact .answered value _
  | failed failure context => exact .failed failure _
  | panicked context => exact .panicked context

end Outcome

theorem Descriptor.told_handOver (descriptor : Descriptor) (name : String)
    (answer : Answer (Option Value)) (context : Context) (world : World) :
    Outcome.Told world (descriptor.handOver name answer context world) := by
  rcases answer with ⟨fault | _⟩ | value
  · exact .failed _ context
  · exact .panicked context
  · simp only [handOver]
    rcases descriptor.checkReturn value with fault | value
    · exact .failed _ context
    · exact .answered value context

namespace Engine

variable {engine : Engine}

theorem reported_invoke (engine : Engine) (name : String) (arguments : List Value)
    (context : Context) (world : World) :
    Outcome.Reported world (engine.invoke name arguments context world) := by
  rcases engine.invoke_course_cases name arguments context world with
    ⟨fault, -, hrefused⟩ |
    ⟨entry, target, opened, launched, ended, last, head, rest, tail, run, -, hperforms, hanswers⟩
  · have hnote : World.Works world (world.note (.invoked .blocking name arguments)) _ :=
      ⟨.single (.note world _), rfl, rfl⟩
    rw [hrefused]
    exact ⟨_, _, _, .of_works hnote, .failed _ context⟩
  · have hadmitted := World.Reports.admitted world .blocking name arguments context
    obtain ⟨others, hreports⟩ := hperforms.reports
    rw [hanswers]
    exact .after (hadmitted.trans hreports) (entry.descriptor.told_handOver name _ _ _).reported

theorem reported_invokeAt (engine : Engine) (name : String) (arguments : List Value)
    (location : Option Location) (context : Context) (world : World) :
    Outcome.Reported world (engine.invokeAt name arguments location context world) := by
  cases location with
  | none => exact reported_invoke engine name arguments context world
  | some location => exact (reported_invoke engine name arguments _ world).leave

mutual

theorem reported_evaluate (engine : Engine) : ∀ (expr : Expr) (context : Context) (world : World),
    Outcome.Reported world (engine.evaluate expr context world)
  | .literal value, context, world =>
      (Outcome.Told.answered (Value.ofLiteral value) context).reported
  | .var name location, context, world =>
      (Outcome.told_checkedAt (some location) (context.get name) context world).reported
  | .binary op left right location, context, world => by
      apply (reported_evaluate engine left context world).andThen
      intro leftValue context world
      apply (reported_evaluate engine right context world).andThen
      intro rightValue context world
      exact (Outcome.told_checkedAt (some location) _ context world).reported
  | .call function arguments location, context, world => by
      apply (reported_evaluateAll engine arguments context world).andThen
      intro values context world
      apply (reported_invokeAt engine function values (some location) context world).andThen
      intro answer context world
      cases answer with
      | some value => exact (Outcome.Told.answered value context).reported
      | none => exact (Outcome.Told.failed _ context).reported

theorem reported_evaluateAll (engine : Engine) :
    ∀ (exprs : List Expr) (context : Context) (world : World),
      Outcome.Reported world (engine.evaluateAll exprs context world)
  | [], context, world => (Outcome.Told.answered [] context).reported
  | expr :: rest, context, world => by
      apply (reported_evaluate engine expr context world).andThen
      intro value context world
      apply (reported_evaluateAll engine rest context world).andThen
      intro values context world
      exact (Outcome.Told.answered (value :: values) context).reported

end

end Engine

/-! ## Calls with a callback -/

namespace World

variable {ticket : Nat} {before : World} {first : List Diagnostic} {left : Option Task}
  {began : Started × World}

/-- What becomes of a call that has begun.  All that is ever recorded of it is the record of the
outcome that its callback is given, and nothing more is entered as long as its task is there. When
that is gone, the call is over. -/
theorem Begun.trail (hbegun : before.Begun ticket first left began)
    (hfresh : before.entrusted ticket = 0) {events : List Event} {own : List Diagnostic}
    {later : World} (htrail : Trail ticket began.2 events own later) :
    ((later.deliveriesOf ticket = [] ∧ first ++ own = []) ∨
      ∃ delivery, later.deliveriesOf ticket = [delivery] ∧
        first ++ own = Diagnostic.ofOutcome delivery.outcome) ∧
    (later.tasksOf ticket = [] ∧ Over ticket began.2 later left events ∨
      later.tasksOf ticket ≠ [] ∧ later.deliveriesOf ticket = [] ∧ events = []) := by
  obtain ⟨htasks, hdeliveries⟩ := Engine.tickets_of_entrusted_eq_zero hfresh
  rcases hbegun with ⟨back, failure⟩ | ⟨task, howner⟩ | _
  · obtain ⟨rfl, rfl, hgone, hlater⟩ := htrail.eq_nil htasks
    have hfired := deliveriesOf_deliver (before.report failure) ticket ticket back (.error failure)
    have hbefore : (before.report failure).deliveriesOf ticket = [] := hdeliveries
    rw [hbefore, if_pos rfl] at hfired
    exact ⟨.inr ⟨_, hlater.trans hfired, rfl⟩, .inl ⟨hgone, .atOnce hlater⟩⟩
  · have hspawned := tasksOf_spawn_only htasks howner
    rcases htrail.stage hspawned hdeliveries with ⟨left, -, hleft, hnone⟩ | ⟨hended, hgone⟩
    · refine ⟨.inl ⟨hnone, rfl⟩, .inr ⟨?_, hnone, rfl⟩⟩
      rw [hleft]
      exact List.cons_ne_nil _ []
    · exact ⟨.inr ⟨_, hended.deliveries, rfl⟩, .inl ⟨hgone, .task hended⟩⟩
  · obtain ⟨rfl, rfl, hgone, hlater⟩ := htrail.eq_nil htasks
    exact ⟨.inl ⟨hlater.trans hdeliveries, rfl⟩, .inl ⟨hgone, .atOnce hlater⟩⟩

end World

namespace Engine

/-- Starting a call waits for nobody. -/
theorem begun_start (engine : Engine) (ticket : Nat) (name : String) (arguments : List Value)
    (context : Context) (world : World) :
    ∃ records before first left, World.Reports world before records [] ∧
      World.Changes world before ∧
      before.Begun ticket first left (engine.start ticket name arguments context world) := by
  have hnote : World.Works world (world.note (.invoked .callback name arguments)) _ :=
    ⟨.single (.note world _), rfl, rfl⟩
  rcases engine.start_cases ticket name arguments context world with
    ⟨fault, -, hstart⟩ | ⟨entry, target, opened, head, rest, first, left, -, hopens⟩
  · rw [hstart]
    exact ⟨_, _, _, none, .of_works hnote, hnote.changes, .delivered context _⟩
  · have hadmitted := World.Reports.admitted world .callback name arguments context
    have hchanges := hnote.changes.tail (.emit _ (.ofDispatch name context.location?))
    exact ⟨_, opened, first, left, hadmitted.trans (.of_works hopens.works),
      hchanges.trans hopens.works.changes, hopens.begun⟩

theorem begun_startExpr (engine : Engine) {ticket : Nat} (expr : Expr) (context : Context)
    {world : World} (hfresh : world.entrusted ticket = 0) :
    ∃ records others before first left, World.Reports world before records others ∧
      before.entrusted ticket = 0 ∧
      before.Begun ticket first left (engine.startExpr ticket expr context world) := by
  cases expr with
  | call function arguments location =>
      have hmoves := engine.moves_evaluateAll arguments context world
      obtain ⟨records, others, last, hreports, htold⟩ :=
        engine.reported_evaluateAll arguments context world
      have hkept := (hmoves.runs ticket).entrusted.trans hfresh
      simp only [startExpr]
      generalize engine.evaluateAll arguments context world = outcome at htold hkept ⊢
      rcases htold with ⟨values, back⟩ | ⟨failure, back⟩ | back
      · obtain ⟨recorded, before, first, left, hstart, hchanges, hbegun⟩ :=
          engine.begun_start ticket function values (back.pushLocation location) last
        have hfreshBefore := (hchanges.moves.runs ticket).entrusted.trans hkept
        exact ⟨_, _, before, first, left, hreports.trans hstart, hfreshBefore, hbegun⟩
      · exact ⟨_, _, last, _, none, hreports, hkept, .delivered back failure⟩
      · exact ⟨_, _, last, _, none, hreports, hkept, .panicked⟩
  | literal | var | binary =>
      exact ⟨_, _, world, _, none, .refl world, hfresh, .delivered context _⟩

/-- Every failure is reported exactly once.  An evaluation that fails has its failure recorded last
and only there, and one that succeeds has none recorded.  When a call is started and in every run
that follows, nothing is recorded of the call as long as its callback has not fired; when it fires
with a failure this has been recorded once, just before, and when it fires without one nothing has
been.  Every other failure that is recorded on the way is that of another callback, which fired
meanwhile. -/
theorem failures_are_reported_once (engine : Engine) (context : Context) (world : World) :
    (∀ expr : Expr, ∃ records others last, World.Reports world last records others ∧
      (∀ failure, (engine.evaluate expr context world).result = .error (.failed failure) →
        (engine.evaluate expr context world).world = last.emit (.ofFailure failure)) ∧
      ∀ value, (engine.evaluate expr context world).result = .ok value →
        (engine.evaluate expr context world).world = last) ∧
    ∀ (ticket : Nat) (source file : String) (started : Started) (after : World),
      world.entrusted ticket = 0 →
      engine.startText ticket source file context world = .ok (started, after) →
      ∃ records others before first left, World.Reports world before records others ∧
        before.Begun ticket first left (started, after) ∧
        (∀ later, World.Runs ticket after later →
          ∃ events own, World.Trail ticket after events own later) ∧
        ∀ events own later, World.Trail ticket after events own later →
          (later.deliveriesOf ticket = [] ∧ first ++ own = []) ∨
            ∃ delivery, later.deliveriesOf ticket = [delivery] ∧
              first ++ own = Diagnostic.ofOutcome delivery.outcome := by
  constructor
  · intro expr
    obtain ⟨records, others, last, hreports, htold⟩ := engine.reported_evaluate expr context world
    refine ⟨records, others, last, hreports, ?_⟩
    generalize engine.evaluate expr context world = outcome at htold
    rcases htold with ⟨value, back⟩ | ⟨failure, back⟩ | back
    · refine ⟨?_, fun _ _ => rfl⟩
      rintro _ ⟨⟩
    · refine ⟨?_, ?_⟩
      · rintro _ ⟨⟩
        rfl
      · rintro _ ⟨⟩
    · refine ⟨?_, ?_⟩ <;> rintro _ ⟨⟩
  · intro ticket source file started after hfresh hstart
    simp only [startText] at hstart
    generalize Expr.read source file = read at hstart
    rcases read with error | expr
    · cases hstart
    · obtain ⟨records, others, before, first, left, hreports, hbefore, hbegun⟩ :=
        engine.begun_startExpr expr context hfresh
      have hbegan : engine.startExpr ticket expr context world = (started, after) :=
        Except.ok.inj hstart
      rw [hbegan] at hbegun
      exact ⟨records, others, before, first, left, hreports, hbegun,
        fun later hruns => hruns.exists_trail,
        fun _ _ _ htrail => (hbegun.trail hbefore htrail).1⟩

/-- The panic of a function that runs in its task is recorded once. -/
theorem failures_are_reported_once_after_panic :
    (World.start (.ofSlots 1)).entrusted 0 = 0 ∧
      ∃ started after, failures.startText 0 "lab:fail()" "f" (.ofTrace "t") (.start (.ofSlots 1)) =
          .ok (started, after) ∧
        ∃ first events own delivery, World.Trail 0 after events own (after.await 0) ∧
          (after.await 0).deliveriesOf 0 = [delivery] ∧
          first ++ own = Diagnostic.ofOutcome delivery.outcome := by
  have hfires : (match
        failures.startText 0 "lab:fail()" "f" (.ofTrace "t") (.start (.ofSlots 1)) with
      | .ok (_, after) => ((after.await 0).deliveriesOf 0).isEmpty
      | .error _ => true) = false := by decide +kernel
  refine ⟨rfl, ?_⟩
  rcases hstart : failures.startText 0 "lab:fail()" "f" (.ofTrace "t") (.start (.ofSlots 1)) with
    error | ⟨started, after⟩
  · rw [hstart] at hfires
    cases hfires
  · have hfired : ((after.await 0).deliveriesOf 0).isEmpty = false := by
      rw [hstart] at hfires
      exact hfires
    refine ⟨started, after, rfl, ?_⟩
    obtain ⟨records, others, before, first, left, -, -, htrails, hreported⟩ :=
      (failures_are_reported_once failures (.ofTrace "t") (.start (.ofSlots 1))).2 0 "lab:fail()"
        "f" started after rfl hstart
    obtain ⟨events, own, htrail⟩ :=
      htrails (after.await 0) ((World.lapses_await after 0).moves.runs 0)
    rcases hreported events own _ htrail with ⟨hnone, -⟩ | ⟨delivery, hdelivered, hrecorded⟩
    · rw [hnone] at hfired
      cases hfired
    · exact ⟨first, events, own, delivery, htrail, hdelivered, hrecorded⟩

end Engine

end Switchboard
