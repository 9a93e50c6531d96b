import Mathlib.Logic.Relation
import Switchboard.Schedule

/-!
What happens between two moments of a world.

A piece of native code, a record and an arriving request change a world without touching the tasks
left behind, the callbacks that fired, or the clock.  These are the quiet changes.  A step of a task
is a row of quiet changes, and then the task either goes on in flight under its ticket, or it is
gone and its callback has fired once.
-/

namespace Switchboard.World

/-- A change that leaves the tasks, the deliveries and the clock alone. -/
inductive Change : World → World → Prop
  | note (world : World) (event : Event) : Change world (world.note event)
  | emit (world : World) (record : Diagnostic) : Change world (world.emit record)
  | store (world : World) (store : Store) : Change world (world.withStore store)
  | complete (world : World) (action : String) : Change world (world.newCompletion action).2
  | launch (world : World) (limit : Millis) (family : String) (request : Request) :
      Change world (world.launch limit family request).2
  | land (world : World) (flight : Flight) : Change world (world.land flight).2

/-- Quiet changes one after the other. -/
abbrev Changes : World → World → Prop :=
  Relation.ReflTransGen Change

/-! ## Tasks, deliveries and the clock are left alone -/

/-- The same tasks, deliveries and time. -/
structure Quiet (world next : World) : Prop where
  tasks : next.tasks = world.tasks
  deliveries : next.deliveries = world.deliveries
  now : next.now = world.now

namespace Quiet

theorem refl (world : World) : Quiet world world :=
  ⟨rfl, rfl, rfl⟩

theorem trans {first second third : World} (hfirst : Quiet first second)
    (hsecond : Quiet second third) : Quiet first third :=
  ⟨hsecond.tasks.trans hfirst.tasks, hsecond.deliveries.trans hfirst.deliveries,
    hsecond.now.trans hfirst.now⟩

theorem setTransport (world : World) (family : String) (transport : Transport) :
    Quiet world (world.setTransport family transport) :=
  ⟨rfl, rfl, rfl⟩

theorem updateTransport (world : World) (family : String) (change : Transport → Transport) :
    Quiet world (world.updateTransport family change) := by
  simp only [World.updateTransport]
  split
  · exact setTransport world family _
  · exact refl world

theorem comeThrough (world : World) (family : String) (transport : Loopback)
    (request : Request) : Quiet world (world.comeThrough family transport request).2 := by
  simp only [World.comeThrough]
  split <;> exact ⟨rfl, rfl, rfl⟩

theorem land (world : World) (flight : Flight) : Quiet world (world.land flight).2 := by
  simp only [World.land]
  split
  · split
    · exact refl world
    · exact comeThrough world _ _ _
    · exact refl world
    · exact refl world
  · exact refl world

theorem takeOff (world : World) (flight : Flight) : Quiet world (world.takeOff flight).2 := by
  simp only [World.takeOff]
  split
  · exact land world flight
  · exact refl world

theorem launch (world : World) (limit : Millis) (family : String) (request : Request) :
    Quiet world (world.launch limit family request).2 := by
  simp only [World.launch]
  split
  · exact refl world
  · split
    · exact setTransport world family _
    · exact (setTransport world family _).trans (takeOff _ _)
    · exact comeThrough world _ _ _
  · split
    · exact setTransport world family _
    · exact (setTransport world family _).trans (takeOff _ _)

end Quiet

theorem Change.quiet {world next : World} (hchange : Change world next) : Quiet world next := by
  cases hchange with
  | note | emit | store | complete => exact ⟨rfl, rfl, rfl⟩
  | launch limit family request => exact .launch world limit family request
  | land flight => exact .land world flight

theorem Changes.quiet {world next : World} (hchanges : Changes world next) :
    Quiet world next := by
  induction hchanges with
  | refl => exact .refl _
  | tail _ hchange ih => exact ih.trans hchange.quiet

/-- A send that is not settled at once is not due yet. -/
theorem takeOff_flying {world after : World} {flight found : Flight}
    (h : world.takeOff flight = (.flying found, after)) : world.now < found.due := by
  simp only [takeOff] at h
  split at h
  · cases h
  · next hdue =>
    cases h
    exact Nat.lt_of_not_le hdue

theorem launch_flying {world after : World} {limit : Millis} {family : String}
    {request : Request} {flight : Flight}
    (h : world.launch limit family request = (.flying flight, after)) :
    world.now < flight.due := by
  simp only [launch] at h
  split at h
  · cases h
  · split at h
    · cases h
    · have hdue := takeOff_flying h
      exact hdue
    · cases h
  · split at h
    · cases h
    · have hdue := takeOff_flying h
      exact hdue

/-! ## Native code and reports -/

theorem changes_execute (world : World) (native : NativeFunction) (name : String)
    (context : Context) (arguments : List Value) :
    Changes world (world.execute native name context arguments).2.2 := by
  have hnote : Changes world (world.note (.executed name arguments)) :=
    .single (.note world _)
  exact hnote.tail (.store _ _)

theorem changes_validate (world : World) (native : Action) (name : String)
    (arguments : List Value) : Changes world (world.validate native name arguments).2 := by
  have hnote : Changes world (world.note (.validated name arguments)) :=
    .single (.note world _)
  exact hnote.tail (.store _ _)

theorem changes_prepare (world : World) (native : Action) (name : String)
    (connector : Connector) (context : Context) (arguments : List Value) :
    Changes world (world.prepare native name connector context arguments).2 := by
  have hnote : Changes world (world.note (.prepared name arguments)) :=
    .single (.note world _)
  exact hnote.tail (.store _ _)

theorem changes_conclude (world : World) (native : Action) (name : String) (ending : SendEnd) :
    Changes world (world.conclude native name ending).2 := by
  cases ending with
  | reply reply =>
      have hnote : Changes world (world.note (.completed name reply)) :=
        .single (.note world _)
      exact hnote.tail (.store _ _)
  | fault => exact .refl
  | panicked => exact .refl

theorem changes_reportIn (world : World) (context : Context) (name : String) (fault : Fault) :
    Changes world (world.reportIn context name fault).2 :=
  .single (.emit world _)

/-! ## The end of a task -/

/-- `next` is what quiet changes make of `world`, and then a callback fired. -/
def Fires (ticket : Nat) (context : Context) (world next : World) : Prop :=
  ∃ before outcome, Changes world before ∧ next = before.deliver ticket context outcome

theorem Fires.after {ticket : Nat} {context : Context} {world between next : World}
    (hchanges : Changes world between) (hfires : Fires ticket context between next) :
    Fires ticket context world next := by
  obtain ⟨before, outcome, hbefore, hnext⟩ := hfires
  exact ⟨before, outcome, hchanges.trans hbefore, hnext⟩

theorem fires_deliver (world : World) (ticket : Nat) (context : Context)
    (outcome : Except Failure (Option Value)) :
    Fires ticket context world (world.deliver ticket context outcome) :=
  ⟨world, outcome, .refl, rfl⟩

theorem fires_deliverFault (world : World) (ticket : Nat) (name : String) (context : Context)
    (fault : Fault) :
    Fires ticket context world (world.deliverFault ticket name context fault) :=
  ⟨_, _, changes_reportIn world context name fault, rfl⟩

theorem fires_settle (world : World) (task : Task) (context : Context)
    (result : Checked (Option Value)) :
    Fires task.ticket context world (world.settle task context result) := by
  cases result with
  | error fault => exact fires_deliverFault world _ _ _ fault
  | ok value =>
      simp only [settle]
      split
      · exact fires_deliver world _ _ _
      · exact fires_deliverFault world _ _ _ _

theorem fires_settleSend (world : World) (task : Task) (native : Action) (ending : SendEnd) :
    Fires task.ticket task.context world (world.settleSend task native ending) :=
  .after (changes_conclude world native task.name ending) (fires_settle _ task _ _)

end World

/-- The context that a task will hand back when its last step begins in this world: what the body of
a function leaves behind, or the one that a send keeps. -/
def Task.handsBack (task : Task) (world : World) : Context :=
  match task.work with
  | .body native arguments => (native.run world.store task.context arguments).context
  | _ => task.context

/-- A task that takes a step is in flight afterwards and keeps its context, or its callback has
fired. -/
theorem Task.step_cases (task : Task) (world : World) :
    (∃ native flight, (task.step world).1 = some { task with work := .flying native flight } ∧
      World.Changes world (task.step world).2 ∧ world.now < flight.due ∧
      ∀ later, task.handsBack later = task.context) ∨
    ((task.step world).1 = none ∧
      World.Fires task.ticket (task.handsBack world) world (task.step world).2) := by
  simp only [step, handsBack]
  cases hwork : task.work with
  | body native arguments =>
      have hexecute := World.changes_execute world native task.name task.context arguments
      exact .inr ⟨rfl, .after hexecute (World.fires_settle _ task _ _)⟩
  | sending native family limit request =>
      have hlaunch : World.Changes world (world.launch limit family request).2 :=
        .single (.launch world limit family request)
      dsimp only
      split
      · next ending after heq =>
        rw [heq] at hlaunch
        exact .inr ⟨rfl, .after hlaunch (World.fires_settleSend after task native ending)⟩
      · next flight after heq =>
        rw [heq] at hlaunch
        exact .inl ⟨native, flight, rfl, hlaunch, World.launch_flying heq, fun _ => rfl⟩
  | flying native flight =>
      dsimp only
      split
      · have hland : World.Changes world (world.land flight).2 := .single (.land world flight)
        exact .inr ⟨rfl, .after hland (World.fires_settleSend _ task native _)⟩
      · next hdue =>
        refine .inl ⟨native, flight, ?_, .refl, Nat.lt_of_not_le hdue, fun _ => rfl⟩
        rw [← hwork]

end Switchboard
