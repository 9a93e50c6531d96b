import Switchboard.Dispatch
import Switchboard.Proofs.Waiting

/-!
What a call does, and what is recorded of it.

Between the record of its dispatch and its outcome a call enters native code in the journal and is
otherwise not recorded.  Where it waits others go on, so its own part is cut into stretches.  What
it comes to is decided by the same rule in both modes: a fault becomes a failure with the current
location and the name of the call, and a result must be of the declared type.  A failure is reported
just before it is handed over.
-/

namespace Switchboard

/-- What is recorded of an outcome. -/
def Diagnostic.ofOutcome {A : Type} : Except Failure A → List Diagnostic
  | .ok _ => []
  | .error failure => [.ofFailure failure]

namespace World

/-- The world in which an outcome has been reported, if it is a failure. -/
def told {A : Type} (world : World) : Except Failure A → World
  | .ok _ => world
  | .error failure => world.report failure

section Told

variable {A : Type} (world : World) (outcome : Except Failure A)

@[simp] theorem told_diagnostics :
    (world.told outcome).diagnostics = world.diagnostics ++ Diagnostic.ofOutcome outcome := by
  cases outcome with
  | ok value => exact (List.append_nil _).symm
  | error failure => rfl

@[simp] theorem told_journal : (world.told outcome).journal = world.journal := by
  cases outcome <;> rfl

@[simp] theorem told_deliveries : (world.told outcome).deliveries = world.deliveries := by
  cases outcome <;> rfl

end Told

/-! ## Work -/

/-- A send enters nothing in the journal, and nothing is recorded of it. -/
structure Carries (world next : World) : Prop where
  journal : next.journal = world.journal
  diagnostics : next.diagnostics = world.diagnostics

namespace Carries

theorem refl (world : World) : Carries world world :=
  ⟨rfl, rfl⟩

theorem trans {first second third : World} (hfirst : Carries first second)
    (hsecond : Carries second third) : Carries first third :=
  ⟨hsecond.journal.trans hfirst.journal, hsecond.diagnostics.trans hfirst.diagnostics⟩

theorem setTransport (world : World) (family : String) (transport : Transport) :
    Carries world (world.setTransport family transport) :=
  ⟨rfl, rfl⟩

theorem comeThrough (world : World) (family : String) (transport : Loopback)
    (request : Request) : Carries world (world.comeThrough family transport request).2 := by
  simp only [World.comeThrough]
  split <;> exact ⟨rfl, rfl⟩

theorem land (world : World) (flight : Flight) : Carries world (world.land flight).2 := by
  simp only [World.land]
  split
  · split
    · exact refl world
    · exact comeThrough world _ _ _
    · exact refl world
    · exact refl world
  · exact refl world

theorem takeOff (world : World) (flight : Flight) : Carries world (world.takeOff flight).2 := by
  simp only [World.takeOff]
  split
  · exact land world flight
  · exact refl world

theorem launch (world : World) (limit : Millis) (family : String) (request : Request) :
    Carries world (world.launch limit family request).2 := by
  simp only [World.launch]
  split
  · exact refl world
  · split
    · exact setTransport world family _
    · exact (setTransport world family _).trans (takeOff _ _)
    · exact comeThrough world _ _ _
  · split
    · exact setTransport world family _
    · exact (setTransport world family _).trans (takeOff _ _)

end Carries

/-- A stretch of quiet changes in which these events were entered in the journal and nothing was
recorded. -/
structure Works (world next : World) (events : List Event) : Prop where
  changes : Changes world next
  journal : next.journal = world.journal ++ events
  diagnostics : next.diagnostics = world.diagnostics

namespace Works

theorem refl (world : World) : Works world world [] :=
  ⟨.refl, (List.append_nil _).symm, rfl⟩

theorem trans {first second third : World} {events entered : List Event}
    (hfirst : Works first second events) (hsecond : Works second third entered) :
    Works first third (events ++ entered) := by
  refine ⟨hfirst.changes.trans hsecond.changes, ?_,
    hsecond.diagnostics.trans hfirst.diagnostics⟩
  rw [hsecond.journal, hfirst.journal, List.append_assoc]

theorem deliveries {world next : World} {events : List Event} (hworks : Works world next events) :
    next.deliveries = world.deliveries :=
  hworks.changes.quiet.deliveries

theorem of_carries {world next : World} (hchange : Change world next)
    (hcarries : Carries world next) : Works world next [] :=
  ⟨.single hchange, hcarries.journal.trans (List.append_nil _).symm, hcarries.diagnostics⟩

theorem launch (world : World) (limit : Millis) (family : String) (request : Request) :
    Works world (world.launch limit family request).2 [] :=
  of_carries (.launch world limit family request) (.launch world limit family request)

theorem land (world : World) (flight : Flight) : Works world (world.land flight).2 [] :=
  of_carries (.land world flight) (.land world flight)

theorem execute (world : World) (native : NativeFunction) (name : String) (context : Context)
    (arguments : List Value) :
    Works world (world.execute native name context arguments).2.2 [.executed name arguments] :=
  ⟨changes_execute world native name context arguments, rfl, rfl⟩

theorem validate (world : World) (native : Action) (name : String) (arguments : List Value) :
    Works world (world.validate native name arguments).2 [.validated name arguments] :=
  ⟨changes_validate world native name arguments, rfl, rfl⟩

theorem prepare (world : World) (native : Action) (name : String) (connector : Connector)
    (context : Context) (arguments : List Value) :
    Works world (world.prepare native name connector context arguments).2
      [.prepared name arguments] :=
  ⟨changes_prepare world native name connector context arguments, rfl, rfl⟩

end Works

end World

/-! ## Verdicts -/

/-- What a call comes to, once its result has been checked. -/
def Descriptor.verdict (descriptor : Descriptor) (name : String) (context : Context)
    (result : Checked (Option Value)) : Except Failure (Option Value) :=
  match result >>= descriptor.checkReturn with
  | .ok value => .ok value
  | .error fault => .error ((context.fail fault).inFunction name)

theorem World.settle_eq (world : World) (task : Task) (context : Context)
    (result : Checked (Option Value)) :
    world.settle task context result =
      (world.told (task.descriptor.verdict task.name context result)).deliver task.ticket context
        (task.descriptor.verdict task.name context result) := by
  rcases result with fault | value
  · rfl
  · have hbind : ((.ok value : Checked (Option Value)) >>= task.descriptor.checkReturn) =
        task.descriptor.checkReturn value := rfl
    simp only [World.settle, Descriptor.verdict]
    rw [hbind]
    rcases task.descriptor.checkReturn value with fault | value <;> rfl

/-- What the end of a send enters in the journal: a reply is completed, and otherwise nothing is. -/
def SendEnd.completion (name : String) : SendEnd → List Event
  | .reply back => [.completed name back]
  | .fault _ => []
  | .panicked => []

/-- What an action leaves behind when its send has ended in this store: what it makes of the reply,
or what came instead of one. -/
def Action.conclusion (native : Action) (name : String) (context : Context) (store : Store) :
    SendEnd → NativeRun
  | .reply reply =>
      let step := native.complete store reply
      ⟨step.answer, context, step.store⟩
  | .fault fault => ⟨.error (.failed (.connectorExecutionFailure name fault)), context, store⟩
  | .panicked => ⟨.error .panicked, context, store⟩

namespace Work

/-- How what is left of a call ends in this world: what it enters in the journal and what it leaves
behind.  A body is run.  A send ends as it is launched, or when its flight is due and lands, and
then the action concludes it. -/
inductive Ends (name : String) (context : Context) (world : World) :
    Work → List Event → NativeRun → Prop
  | body (native : NativeFunction) (arguments : List Value) :
      Ends name context world (.body native arguments) [.executed name arguments]
        (native.run world.store context arguments)
  | settles (native : Action) {family : String} {limit : Millis} {request : Request}
      {ending : SendEnd} {carried : World}
      (hlaunch : world.launch limit family request = (.settled ending, carried)) :
      Ends name context world (.sending native family limit request) (ending.completion name)
        (native.conclusion name context carried.store ending)
  | lands (native : Action) {flight : Flight} {ending : SendEnd} {carried : World}
      (hdue : flight.due ≤ world.now) (hland : world.land flight = (ending, carried)) :
      Ends name context world (.flying native flight) (ending.completion name)
        (native.conclusion name context carried.store ending)

/-- What is left of a call is a flight after this step: a send took off, or its flight is not due
yet. -/
inductive Flies (world : World) : World → Work → Action → Flight → Prop
  | takesOff (native : Action) {family : String} {limit : Millis} {request : Request}
      {flight : Flight} {launched : World}
      (hlaunch : world.launch limit family request = (.flying flight, launched)) :
      Flies world launched (.sending native family limit request) native flight
  | staysUp (native : Action) {flight : Flight} (hdue : ¬ flight.due ≤ world.now) :
      Flies world world (.flying native flight) native flight

/-- The fault that a panic counts as when it comes from what was left to do. -/
def onPanic (name : String) : Work → Fault
  | .body _ _ => .native name "panicked"
  | .sending _ _ _ _ => .connectorExecutionFailure name .panicked
  | .flying _ _ => .connectorExecutionFailure name .panicked

theorem Flies.works {work : Work} {world next : World} {native : Action} {flight : Flight}
    (hflies : work.Flies world next native flight) : World.Works world next [] := by
  cases hflies with
  | @takesOff _ family limit request _ _ hlaunch =>
      have hworks := World.Works.launch world limit family request
      rw [hlaunch] at hworks
      exact hworks
  | staysUp => exact .refl world

end Work

/-- What a task delivers when its work has left this behind. -/
def Task.outcome (task : Task) (run : NativeRun) : Except Failure (Option Value) :=
  task.descriptor.verdict task.name run.context (run.answer.guard (task.work.onPanic task.name))

namespace World

/-- The world in which a task has delivered what it came to, and reported it, if it is a failure. -/
def delivered (world : World) (task : Task) (run : NativeRun) : World :=
  (world.told (task.outcome run)).deliver task.ticket run.context (task.outcome run)

@[simp] theorem delivered_journal (world : World) (task : Task) (run : NativeRun) :
    (world.delivered task run).journal = world.journal :=
  told_journal world (task.outcome run)

@[simp] theorem delivered_diagnostics (world : World) (task : Task) (run : NativeRun) :
    (world.delivered task run).diagnostics =
      world.diagnostics ++ Diagnostic.ofOutcome (task.outcome run) :=
  told_diagnostics world (task.outcome run)

/-- An action concludes its send with what it answers. -/
theorem conclude_eq (world : World) (native : Action) (name : String) (context : Context)
    (ending : SendEnd) :
    ∃ last, world.conclude native name ending =
        ((native.conclusion name context world.store ending).answer, last) ∧
      Works world last (ending.completion name) ∧
      last.store = (native.conclusion name context world.store ending).store := by
  have hchanges := changes_conclude world native name ending
  rcases ending with reply | fault | -
  · exact ⟨_, rfl, ⟨hchanges, rfl, rfl⟩, rfl⟩
  · exact ⟨world, rfl, .refl world, rfl⟩
  · exact ⟨world, rfl, .refl world, rfl⟩

/-- A task whose send has ended concludes it and delivers what that comes to. -/
theorem settleSend_eq {world carried : World} (hcarried : Works world carried []) (task : Task)
    (native : Action) (ending : SendEnd)
    (hpanic : task.work.onPanic task.name = .connectorExecutionFailure task.name .panicked) :
    ∃ last, Works world last (ending.completion task.name) ∧
      last.store = (native.conclusion task.name task.context carried.store ending).store ∧
      carried.settleSend task native ending =
        last.delivered task (native.conclusion task.name task.context carried.store ending) := by
  obtain ⟨last, hconclude, hworks, hstore⟩ :=
    carried.conclude_eq native task.name task.context ending
  have hcontext : (native.conclusion task.name task.context carried.store ending).context =
      task.context := by
    cases ending <;> rfl
  refine ⟨last, hcarried.trans hworks, hstore, ?_⟩
  simp only [settleSend, delivered, Task.outcome]
  rw [hconclude, hpanic, hcontext]
  exact settle_eq last task task.context _

end World

/-- A task that takes a step is in flight afterwards, or it was its last step: what was left of its
call has ended, and it delivers what that came to. -/
theorem Task.step_ends (task : Task) (world : World) :
    (∃ native flight,
      (task.step world).1 = some { task with work := .flying native flight } ∧
      task.work.Flies world (task.step world).2 native flight) ∨
    ∃ last events run, task.work.Ends task.name task.context world events run ∧
      World.Works world last events ∧ last.store = run.store ∧
      task.step world = (none, last.delivered task run) := by
  rcases task with ⟨ticket, name, descriptor, context, work⟩
  simp only [step]
  rcases work with ⟨native, arguments⟩ | ⟨native, family, limit, request⟩ | ⟨native, flight⟩
  · have hsettle := World.settle_eq (world.execute native name context arguments).2.2
      ⟨ticket, name, descriptor, context, .body native arguments⟩
      (world.execute native name context arguments).2.1
      ((world.execute native name context arguments).1.guard (.native name "panicked"))
    exact .inr ⟨_, _, _, .body native arguments, .execute world native name context arguments, rfl,
      congrArg (Prod.mk none) hsettle⟩
  · have hworks := World.Works.launch world limit family request
    dsimp only
    rcases hlaunch : world.launch limit family request with ⟨ending | flight, carried⟩
    · rw [hlaunch] at hworks
      obtain ⟨last, hlast, hstore, hsettle⟩ := World.settleSend_eq hworks
        ⟨ticket, name, descriptor, context, .sending native family limit request⟩ native ending rfl
      exact .inr ⟨last, _, _, .settles native hlaunch, hlast, hstore,
        congrArg (Prod.mk none) hsettle⟩
    · exact .inl ⟨native, flight, rfl, .takesOff native hlaunch⟩
  · dsimp only
    by_cases hdue : flight.due ≤ world.now
    · obtain ⟨last, hlast, hstore, hsettle⟩ := World.settleSend_eq (.land world flight)
        ⟨ticket, name, descriptor, context, .flying native flight⟩ native (world.land flight).1 rfl
      rw [if_pos hdue]
      exact .inr ⟨last, _, _, .lands native hdue rfl, hlast, hstore,
        congrArg (Prod.mk none) hsettle⟩
    · rw [if_neg hdue]
      exact .inl ⟨native, flight, rfl, .staysUp native hdue⟩

theorem Task.step_eq_some {task left : Task} {world next : World}
    (hstep : task.step world = (some left, next)) :
    ∃ native flight, left = { task with work := .flying native flight } ∧
      task.work.Flies world next native flight := by
  rcases task.step_ends world with
    ⟨native, flight, hleft, hflies⟩ | ⟨_, _, _, -, -, -, hends⟩
  · rw [hstep] at hleft hflies
    exact ⟨native, flight, Option.some.inj hleft, hflies⟩
  · rw [hends] at hstep
    cases hstep

theorem Task.step_eq_none {task : Task} {world next : World}
    (hstep : task.step world = (none, next)) :
    ∃ last events run, task.work.Ends task.name task.context world events run ∧
      World.Works world last events ∧ last.store = run.store ∧ next = last.delivered task run := by
  rcases task.step_ends world with
    ⟨native, flight, hleft, -⟩ | ⟨last, events, run, hends, hworks, hstore, hlast⟩
  · rw [hstep] at hleft
    cases hleft
  · rw [hstep] at hlast
    exact ⟨last, events, run, hends, hworks, hstore, (Prod.mk.inj hlast).2⟩

/-! ## The journal while somebody waits -/

/-- What is left of a call enters native code and nothing else. -/
theorem Work.Ends.entered {work : Work} {name : String} {context : Context} {world : World}
    {events : List Event} {run : NativeRun} (hends : work.Ends name context world events run) :
    ∀ event ∈ events, event.entered?.isSome := by
  have hcompletion (ending : SendEnd) :
      ∀ event ∈ ending.completion name, event.entered?.isSome := by
    rcases ending with reply | fault | -
    · exact List.forall_mem_singleton.2 rfl
    · exact List.forall_mem_nil _
    · exact List.forall_mem_nil _
  cases hends with
  | body => exact List.forall_mem_singleton.2 rfl
  | settles => exact hcompletion _
  | lands => exact hcompletion _

namespace World

variable {world next : World}

theorem Lapse.journal (hlapse : Lapse world next) :
    ∃ events, next.journal = world.journal ++ events ∧ ∀ event ∈ events, event.entered?.isSome := by
  rcases hlapse with ⟨before, task, after, -⟩ | time
  · rcases task.step_ends world with
      ⟨native, flight, -, hflies⟩ | ⟨last, events, run, hends, hworks, -, hstep⟩
    · exact ⟨[], hflies.works.journal, List.forall_mem_nil _⟩
    · rw [hstep]
      exact ⟨events, (last.delivered_journal task run).trans hworks.journal, hends.entered⟩
  · exact ⟨[], (List.append_nil _).symm, List.forall_mem_nil _⟩

/-- While somebody waits, others enter native code, and nothing else stands in the journal. -/
theorem Lapses.journal (hlapses : Lapses world next) :
    ∃ events, next.journal = world.journal ++ events ∧ ∀ event ∈ events, event.entered?.isSome := by
  induction hlapses with
  | refl => exact ⟨[], (List.append_nil _).symm, List.forall_mem_nil _⟩
  | tail _ hlapse ih =>
      obtain ⟨events, hbefore, hentered⟩ := ih
      obtain ⟨more, hnext, hmore⟩ := hlapse.journal
      refine ⟨events ++ more, ?_, List.forall_mem_append.2 ⟨hentered, hmore⟩⟩
      rw [hnext, hbefore, List.append_assoc]

end World

end Switchboard
