import Switchboard.Callback
import Switchboard.Dispatch
import Switchboard.Proofs.Admission
import Switchboard.Proofs.Trail

/-!
The course of an admitted call.

A function runs its body.  An action prepares its request and, when it was sent and a reply came
back, makes a result of it.  With a callback an action validates the arguments first and goes on
only if they are accepted, and everything from the sending on is left to a task.

In either mode the course has two parts.  What the caller does at once opens it and says what is
left to do, or why nothing is.  The rest is taken up there and then, or by the task.
-/

namespace Switchboard

/-- What is left to do of a call whose action has prepared this request: it is sent, with the
properties of the connector and its own. -/
def Action.sending (native : Action) (connector : Connector) (limit : Millis) (request : Request) :
    Work :=
  .sending native connector.family limit
    { request with properties := mergeProperties connector.properties request.properties }

/-- What an admitted call does at once when it finds this store: what it enters in the journal, what
is left to do then, or why nothing is, and the store that it leaves behind. -/
inductive Target.Opening (limit : Millis) (name : String) (arguments : List Value)
    (context : Context) (store : Store) :
    CallMode → Target → List Event → Except (Halt Fault) Work → Store → Prop
  | body (mode : CallMode) (native : NativeFunction) :
      Opening limit name arguments context store mode (.function native) []
        (.ok (.body native arguments)) store
  | waits {native : Action} (connector : Connector) {step : ActionStep Request}
      (hprepare : native.prepare store context arguments = step) :
      Opening limit name arguments context store .blocking (.action native connector)
        [.prepared name arguments] (step.answer.map (native.sending connector limit)) step.store
  | rejects {native : Action} (connector : Connector) {halt : Halt Fault} {checked : Store}
      (hvalidate : native.validate store arguments = ⟨.error halt, checked⟩) :
      Opening limit name arguments context store .callback (.action native connector)
        [.validated name arguments] (.error halt) checked
  | accepts {native : Action} (connector : Connector) {checked : Store} {step : ActionStep Request}
      (hvalidate : native.validate store arguments = ⟨.ok (), checked⟩)
      (hprepare : native.prepare checked context arguments = step) :
      Opening limit name arguments context store .callback (.action native connector)
        [.validated name arguments, .prepared name arguments]
        (step.answer.map (native.sending connector limit)) step.store

theorem Target.Opening.entered {limit : Millis} {name : String} {arguments : List Value}
    {context : Context} {store opened : Store} {mode : CallMode} {target : Target}
    {head : List Event} {rest : Except (Halt Fault) Work}
    (hopening : target.Opening limit name arguments context store mode head rest opened) :
    ∀ event ∈ head, event.entered?.isSome := by
  cases hopening with
  | body => exact List.forall_mem_nil _
  | waits | rejects => exact List.forall_mem_singleton.2 rfl
  | accepts => exact List.forall_mem_cons.2 ⟨rfl, List.forall_mem_singleton.2 rfl⟩

namespace World

/-- The world in which a call has been admitted and nothing of it has run yet. -/
def admitted (world : World) (mode : CallMode) (name : String) (arguments : List Value)
    (context : Context) : World :=
  (world.note (.invoked mode name arguments)).emit (.ofDispatch name context.location?)

/-- An action prepares what it answers in this store, and the properties of the connector are
added. -/
theorem prepare_eq {world : World} {store : Store} (hstore : world.store = store) (native : Action)
    (name : String) (connector : Connector) (context : Context) (arguments : List Value) :
    ∃ prepared, world.prepare native name connector context arguments =
        ((native.prepare store context arguments).answer.map fun request =>
          { request with
            properties := mergeProperties connector.properties request.properties }, prepared) ∧
      Works world prepared [.prepared name arguments] ∧
      prepared.store = (native.prepare store context arguments).store := by
  subst hstore
  exact ⟨_, rfl, .prepare world native name connector context arguments, rfl⟩

end World

/-! ## Calls that wait -/

/-- The course of the rest of a call that waits, from the world in which its opening left it: it
ends there, or a flight takes off that lands after others have gone on. -/
inductive Work.Course (name : String) (context : Context) (opened : World) :
    World → World → Except (Halt Fault) Work → List Event → NativeRun → Prop
  | halts (halt : Halt Fault) :
      Course name context opened opened opened (.error halt) [] ⟨.error halt, context, opened.store⟩
  | atOnce {work : Work} {events : List Event} {run : NativeRun}
      (hends : work.Ends name context opened events run) :
      Course name context opened opened opened (.ok work) events run
  | flight {launched ended : World} {work : Work} {native : Action} {flight : Flight}
      {events : List Event} {run : NativeRun} (htakesOff : work.Flies opened launched native flight)
      (hends : (Work.flying native flight).Ends name context ended events run) :
      Course name context opened launched ended (.ok work) events run

theorem Work.Course.entered {name : String} {context : Context} {opened launched ended : World}
    {rest : Except (Halt Fault) Work} {events : List Event} {run : NativeRun}
    (hcourse : Work.Course name context opened launched ended rest events run) :
    ∀ event ∈ events, event.entered?.isSome := by
  cases hcourse with
  | halts => exact List.forall_mem_nil _
  | atOnce hends => exact hends.entered
  | flight _ hends => exact hends.entered

/-- How the rest of a call that waits is run from the world in which its opening left it to the last
one, in two stretches between which others go on. -/
structure Work.Closing (name : String) (context : Context) (opened launched ended last : World)
    (rest : Except (Halt Fault) Work) (tail : List Event) (run : NativeRun) : Prop where
  launches : World.Works opened launched []
  waits : World.Lapses launched ended
  concludes : World.Works ended last tail
  course : Work.Course name context opened launched ended rest tail run
  store : last.store = run.store

/-- How a call that waits runs its target from a world to the last one. -/
structure Target.Performs (target : Target) (limit : Millis) (name : String)
    (arguments : List Value) (context : Context) (world opened launched ended last : World)
    (head : List Event) (rest : Except (Halt Fault) Work) (tail : List Event) (run : NativeRun) :
    Prop where
  opens : World.Works world opened head
  opening : target.Opening limit name arguments context world.store .blocking head rest opened.store
  closing : Work.Closing name context opened launched ended last rest tail run

namespace World

/-- Whoever waits for a send has its action conclude it. -/
theorem closing_sendAndWait (opened : World) (limit : Millis) (native : Action) (name : String)
    (family : String) (request : Request) (context : Context) :
    ∃ launched ended last tail run,
      Work.Closing name context opened launched ended last
        (.ok (.sending native family limit request)) tail run ∧
      run.context = context ∧
      (opened.sendAndWait limit family request).2.conclude native name
        (opened.sendAndWait limit family request).1 = (run.answer, last) := by
  have hcontext (store : Store) (ending : SendEnd) :
      (native.conclusion name context store ending).context = context := by
    cases ending <;> rfl
  have hlaunched := Works.launch opened limit family request
  simp only [sendAndWait]
  rcases hlaunch : opened.launch limit family request with ⟨ending | flight, launched⟩
  · rw [hlaunch] at hlaunched
    obtain ⟨last, hconclude, hworks, hstore⟩ := launched.conclude_eq native name context ending
    exact ⟨opened, opened, last, _, _, ⟨.refl opened, .refl, hlaunched.trans hworks,
      .atOnce (.settles native hlaunch), hstore⟩, hcontext _ _, hconclude⟩
  · rw [hlaunch] at hlaunched
    let ended := launched.waitUntil flight.due
    obtain ⟨last, hconclude, hworks, hstore⟩ :=
      (ended.land flight).2.conclude_eq native name context (ended.land flight).1
    have hdue : flight.due ≤ ended.now := le_now_waitUntil launched flight.due
    exact ⟨launched, ended, last, _, _, ⟨hlaunched, lapses_waitUntil launched flight.due,
      (Works.land ended flight).trans hworks,
      .flight (.takesOff native hlaunch) (.lands native hdue rfl), hstore⟩, hcontext _ _, hconclude⟩

/-- A call that waits answers with what its course leaves behind. -/
theorem performs_runTarget (world : World) (limit : Millis) (name : String) (context : Context)
    (arguments : List Value) (target : Target) :
    ∃ opened launched ended last head rest tail run,
      target.Performs limit name arguments context world opened launched ended last head rest tail
        run ∧
      world.runTarget limit name context arguments target = (run.answer, run.context, last) := by
  cases target with
  | function native =>
      exact ⟨world, world, world, _, _, _, _, _, ⟨.refl world, .body .blocking native, .refl world,
        .refl, .execute world native name context arguments, .atOnce (.body native arguments), rfl⟩,
        rfl⟩
  | action native connector =>
      obtain ⟨opened, hprepare, hworks, hstore⟩ :=
        @prepare_eq world _ rfl native name connector context arguments
      have hopening := @Target.Opening.waits limit name arguments context world.store native
        connector _ rfl
      rw [← hstore] at hopening
      simp only [runTarget, perform]
      rw [hprepare]
      generalize (native.prepare world.store context arguments).answer = answer at hopening ⊢
      rcases answer with halt | request
      · exact ⟨opened, opened, opened, opened, _, _, _, _, ⟨hworks, hopening, .refl opened, .refl,
          .refl opened, .halts halt, rfl⟩, rfl⟩
      · obtain ⟨launched, ended, last, tail, run, hclosing, hcontext, hconclude⟩ :=
          opened.closing_sendAndWait limit native name connector.family
            { request with properties := mergeProperties connector.properties request.properties }
            context
        refine ⟨opened, launched, ended, last, _, _, tail, run, ⟨hworks, hopening, hclosing⟩, ?_⟩
        rw [hcontext]
        exact congrArg (fun step => (step.1, context, step.2)) hconclude

end World

/-- A call that waits is refused, or its target is run and the outcome is what that left behind. -/
theorem Engine.invoke_course_cases (engine : Engine) (name : String) (arguments : List Value)
    (context : Context) (world : World) :
    (∃ fault, engine.registry.check .blocking name arguments = .error fault ∧
      engine.invoke name arguments context world =
        .failIn name fault context (world.note (.invoked .blocking name arguments))) ∨
    ∃ entry target opened launched ended last head rest tail run,
      engine.registry.Admits .blocking name arguments entry target ∧
      target.Performs engine.config.transportTimeout name arguments context
        (world.admitted .blocking name arguments context) opened launched ended last head rest tail
        run ∧
      engine.invoke name arguments context world =
        entry.descriptor.handOver name run.answer run.context last := by
  simp only [invoke]
  rcases hcheck : engine.registry.check .blocking name arguments with fault | ⟨descriptor, target⟩
  · exact .inl ⟨fault, rfl, rfl⟩
  · obtain ⟨entry, hadmits, rfl⟩ := Registry.check_eq_ok_iff.1 hcheck
    obtain ⟨opened, launched, ended, last, head, rest, tail, run, hperforms, hanswers⟩ :=
      (world.admitted .blocking name arguments context).performs_runTarget
        engine.config.transportTimeout name context arguments target
    refine .inr ⟨entry, target, opened, launched, ended, last, head, rest, tail, run, hadmits,
      hperforms, ?_⟩
    exact congrArg (fun answer : Answer (Option Value) × Context × World =>
      entry.descriptor.handOver name answer.1 answer.2.1 answer.2.2) hanswers

/-! ## Calls with a callback -/

/-- How starting a call has left the world, what was recorded of it since `before`, and the task
that was left behind, if there is one.  Otherwise the callback has fired with a failure, which was
reported just before, or native code panicked. -/
inductive World.Begun (ticket : Nat) (before : World) :
    List Diagnostic → Option Task → Started × World → Prop
  | delivered (back : Context) (failure : Failure) :
      Begun ticket before [.ofFailure failure] none
        (.delivered, (before.report failure).deliver ticket back (.error failure))
  | spawned (task : Task) (howner : task.ticket = ticket) :
      Begun ticket before [] (some task) (.spawned, before.spawn task)
  | panicked : Begun ticket before [] none (.panicked, before)

/-- How the call has come to its end for which this task was left behind.  Without one it was over
when it had been started, and nothing has been entered or delivered since. -/
inductive World.Over (ticket : Nat) (start later : World) : Option Task → List Event → Prop
  | atOnce (hdeliveries : later.deliveriesOf ticket = start.deliveriesOf ticket) :
      Over ticket start later none []
  | task {task : Task} {left : Work} {ended last : World} {events : List Event} {run : NativeRun}
      (hended : Ended ticket start later task left ended last events run) :
      Over ticket start later (some task) events

/-- What becomes of the opening of a call with a callback.  If there is nothing left to do, the
callback fires with the fault, or native code panicked.  Otherwise a task is left behind to do it;
only the context of a send is marked with a handle before. -/
inductive World.Entrusts (opened : World) (ticket : Nat) (name : String) (descriptor : Descriptor)
    (context : Context) : Except (Halt Fault) Work → Option Task → Started × World → Prop
  | fails (fault : Fault) :
      Entrusts opened ticket name descriptor context (.error (.failed fault)) none
        (.delivered, opened.deliverFault ticket name context fault)
  | panics :
      Entrusts opened ticket name descriptor context (.error .panicked) none (.panicked, opened)
  | body {task : Task} (native : NativeFunction) (arguments : List Value)
      (htask : task = ⟨ticket, name, descriptor, context, .body native arguments⟩) :
      Entrusts opened ticket name descriptor context (.ok (.body native arguments)) (some task)
        (.spawned, opened.spawn task)
  | sending {task : Task} (native : Action) (family : String) (limit : Millis) (request : Request)
      (completion : Completion)
      (htask : task = ⟨ticket, name, descriptor, context.setCompletion completion,
        .sending native family limit request⟩) :
      Entrusts opened ticket name descriptor context (.ok (.sending native family limit request))
        (some task) (.spawned, opened.spawn task)

/-- How an admitted call with a callback is started: its opening is run from a world to the one in
which the rest is left to a task. -/
structure Target.Opens (target : Target) (limit : Millis) (ticket : Nat) (name : String)
    (descriptor : Descriptor) (arguments : List Value) (context : Context) (world opened : World)
    (head : List Event) (rest : Except (Halt Fault) Work) (first : List Diagnostic)
    (left : Option Task) (began : Started × World) : Prop where
  works : World.Works world opened head
  opening : target.Opening limit name arguments context world.store .callback head rest opened.store
  entrusts : opened.Entrusts ticket name descriptor context rest left began
  begun : opened.Begun ticket first left began

namespace World

theorem opens_startAction (world : World) (limit : Millis) (ticket : Nat) (name : String)
    (descriptor : Descriptor) (native : Action) (connector : Connector) (arguments : List Value)
    (context : Context) :
    ∃ opened head rest first left,
      (Target.action native connector).Opens limit ticket name descriptor arguments context world
        opened head rest first left
        (world.startAction limit ticket name descriptor native connector arguments context) := by
  have hvalidate : world.validate native name arguments =
      ((native.validate world.store arguments).answer,
        (world.note (.validated name arguments)).withStore
          (native.validate world.store arguments).store) := rfl
  have hvalidated := Works.validate world native name arguments
  rw [hvalidate] at hvalidated
  simp only [startAction]
  rw [hvalidate]
  generalize hchecked : native.validate world.store arguments = step at hvalidated ⊢
  rcases step with ⟨⟨fault | _⟩ | ⟨⟩, checked⟩
  · exact ⟨_, _, _, _, _, hvalidated, .rejects connector hchecked, .fails fault,
      .delivered context _⟩
  · exact ⟨_, _, _, _, _, hvalidated, .rejects connector hchecked, .panics, .panicked⟩
  · let validated := (world.note (.validated name arguments)).withStore checked
    obtain ⟨opened, hprepare, hprepared, hstore⟩ :=
      @prepare_eq validated checked rfl native name connector context arguments
    have hworks := hvalidated.trans hprepared
    have hopening := @Target.Opening.accepts limit name arguments context world.store native
      connector checked _ hchecked rfl
    rw [← hstore] at hopening
    dsimp only
    rw [hprepare]
    generalize (native.prepare checked context arguments).answer = answer at hopening ⊢
    rcases answer with ⟨fault | _⟩ | request
    · exact ⟨_, _, _, _, _, hworks, hopening, .fails fault, .delivered context _⟩
    · exact ⟨_, _, _, _, _, hworks, hopening, .panics, .panicked⟩
    · have hcompletion : Works opened (opened.newCompletion name).2 [] :=
        .of_carries (.complete opened name) ⟨rfl, rfl⟩
      exact ⟨_, _, _, _, _, hworks.trans hcompletion, hopening, .sending native connector.family
        limit _ (opened.newCompletion name).1 rfl, .spawned _ rfl⟩

end World

/-- A call with a callback is refused, or its course begins. -/
theorem Engine.start_cases (engine : Engine) (ticket : Nat) (name : String)
    (arguments : List Value) (context : Context) (world : World) :
    (∃ fault, engine.registry.check .callback name arguments = .error fault ∧
      engine.start ticket name arguments context world =
        (.delivered, (world.note (.invoked .callback name arguments)).deliverFault ticket name
          context fault)) ∨
    ∃ entry target opened head rest first left,
      engine.registry.Admits .callback name arguments entry target ∧
      target.Opens engine.config.transportTimeout ticket name entry.descriptor arguments context
        (world.admitted .callback name arguments context) opened head rest first left
        (engine.start ticket name arguments context world) := by
  simp only [start]
  rcases hcheck : engine.registry.check .callback name arguments with fault | ⟨descriptor, target⟩
  · exact .inl ⟨fault, rfl, rfl⟩
  · obtain ⟨entry, hadmits, rfl⟩ := Registry.check_eq_ok_iff.1 hcheck
    right
    cases target with
    | function native =>
        exact ⟨entry, _, _, _, _, _, _, hadmits, .refl _, .body .callback native,
          .body native arguments rfl, .spawned _ rfl⟩
    | action native connector =>
        obtain ⟨opened, head, rest, first, left, hopens⟩ := World.opens_startAction
          (world.admitted .callback name arguments context) engine.config.transportTimeout ticket
          name entry.descriptor native connector arguments context
        exact ⟨entry, _, opened, head, rest, first, left, hadmits, hopens⟩

end Switchboard
