import Switchboard.Proofs.Tickets
import Switchboard.Proofs.Works

/-!
What a call with a callback has done so far.

The journal and the diagnostics of a world do not tell whose entries they hold, and while a task
waits for its turn others go on.  A trail keeps beside a run what the tasks of one ticket have
entered and recorded in it, up to the moment at which the callback fires.  Whatever the others do,
the trail of a task is short: nothing as long as it is under way, and then what its last step enters
and the record of its outcome, if that is a failure.  Both are told by what the task was left to do
and by the world in which that ended.
-/

namespace Switchboard

namespace World

/-! ## Trails -/

/-- A run, with what the tasks of a ticket have entered in the journal and recorded in it.  What
counts of the step in which the callback fires is what came before. -/
inductive Trail (ticket : Nat) (start : World) :
    List Event → List Diagnostic → World → Prop
  | start : Trail ticket start [] [] start
  | goesOn {events entered : List Event} {records emitted : List Diagnostic} {world next : World}
      (htrail : Trail ticket start events records world)
      (before : List Task) (task left : Task) (after : List Task)
      (htasks : world.tasks = before ++ task :: after) (howner : task.ticket = ticket)
      (hstep : task.step world = (some left, next))
      (hjournal : next.journal = world.journal ++ entered)
      (hdiagnostics : next.diagnostics = world.diagnostics ++ emitted) :
      Trail ticket start (events ++ entered) (records ++ emitted)
        { next with tasks := before ++ left :: after }
  | fires {events entered : List Event} {records emitted : List Diagnostic} {world last : World}
      (htrail : Trail ticket start events records world)
      (before : List Task) (task : Task) (after : List Task)
      (htasks : world.tasks = before ++ task :: after) (howner : task.ticket = ticket)
      {context : Context} {outcome : Except Failure (Option Value)}
      (hstep : task.step world = (none, last.deliver ticket context outcome))
      (hjournal : last.journal = world.journal ++ entered)
      (hdiagnostics : last.diagnostics = world.diagnostics ++ emitted) :
      Trail ticket start (events ++ entered) (records ++ emitted)
        { last.deliver ticket context outcome with tasks := before ++ after }
  | elsewhere {events : List Event} {records : List Diagnostic} {world next : World}
      (htrail : Trail ticket start events records world)
      (htasks : next.tasksOf ticket = world.tasksOf ticket)
      (hdeliveries : next.deliveriesOf ticket = world.deliveriesOf ticket) :
      Trail ticket start events records next

variable {ticket : Nat} {start world next : World} {events : List Event}
  {records : List Diagnostic}

theorem Trail.proceeds (htrail : Trail ticket start events records world)
    (hproceeds : Proceeds ticket world next) :
    ∃ events records, Trail ticket start events records next := by
  rcases hproceeds with ⟨before, task, after, htasks⟩ | ⟨htasks, hdeliveries⟩
  · by_cases howner : task.ticket = ticket
    · rcases task.step_ends world with
        ⟨native, flight, hleft, hflies⟩ | ⟨last, entered, run, -, hworks, -, hstep⟩
      · have hgoesOn := htrail.goesOn before task _ after htasks howner (Prod.ext hleft rfl)
          hflies.works.journal (hflies.works.diagnostics.trans (List.append_nil _).symm)
        refine ⟨events ++ [], records ++ [], ?_⟩
        rw [hleft, Option.toList_some, List.append_assoc]
        exact hgoesOn
      · subst howner
        have hfires := htrail.fires before task after htasks rfl hstep
          ((last.delivered_journal task run).trans hworks.journal)
          ((last.delivered_diagnostics task run).trans
            (congrArg (· ++ Diagnostic.ofOutcome (task.outcome run)) hworks.diagnostics))
        refine ⟨events ++ entered, records ++ Diagnostic.ofOutcome (task.outcome run), ?_⟩
        rw [hstep, Option.toList_none, List.append_nil]
        exact hfires
    · obtain ⟨hsame, hdeliveries⟩ := step_others htasks rfl howner
      exact ⟨_, _, htrail.elsewhere hsame hdeliveries⟩
  · exact ⟨_, _, htrail.elsewhere htasks hdeliveries⟩

/-- Every run leaves a trail. -/
theorem Runs.exists_trail (hruns : Runs ticket start world) :
    ∃ events records, Trail ticket start events records world := by
  induction hruns with
  | refl => exact ⟨_, _, .start⟩
  | tail _ hproceeds ih =>
      obtain ⟨events, records, htrail⟩ := ih
      exact htrail.proceeds hproceeds

/-! ## How a call comes to its end -/

/-- What is left of a call when a run has come to this world: all of it, or the flight for which its
send took off on the way. -/
inductive Leaves (ticket : Nat) (start world : World) (work : Work) : Work → Prop
  | whole (hruns : Runs ticket start world) : Leaves ticket start world work work
  | flight {taken launched : World} {native : Action} {flight : Flight}
      (hbefore : Runs ticket start taken)
      (htakesOff : work.Flies taken launched native flight)
      (hafter : Runs ticket taken world) :
      Leaves ticket start world work (.flying native flight)

/-- How the call of a task has come to its end.  Somewhere on the way what was left of it ended,
these events were entered and this was left behind; it was delivered at once, and the run went on
from there. -/
structure Ended (ticket : Nat) (start later : World) (task : Task) (left : Work)
    (ended last : World) (events : List Event) (run : NativeRun) : Prop where
  before : Leaves ticket start ended task.work left
  ends : left.Ends task.name task.context ended events run
  works : Works ended last events
  store : last.store = run.store
  after : ∃ tasks, Runs ticket ((last.delivered task run).withTasks tasks) later
  deliveries : later.deliveriesOf ticket = [⟨ticket, run.context, task.outcome run⟩]

/-- How far the call of a task has come, by its trail. -/
inductive Stage (ticket : Nat) (start : World) (task : Task) (world : World) :
    List Event → List Diagnostic → Prop
  | underWay (left : Work) (hleft : Leaves ticket start world task.work left)
      (htasks : world.tasksOf ticket = [{ task with work := left }])
      (hdeliveries : world.deliveriesOf ticket = []) :
      Stage ticket start task world [] []
  | over {left : Work} {ended last : World} {entered : List Event} {run : NativeRun}
      (hended : Ended ticket start world task left ended last entered run)
      (htasks : world.tasksOf ticket = []) :
      Stage ticket start task world entered (Diagnostic.ofOutcome (task.outcome run))

namespace Leaves

variable {work left : Work}

theorem later (hleaves : Leaves ticket start world work left) (hruns : Runs ticket world next) :
    Leaves ticket start next work left := by
  cases hleaves with
  | whole hbefore => exact .whole (hbefore.trans hruns)
  | flight hbefore htakesOff hafter => exact .flight hbefore htakesOff (hafter.trans hruns)

/-- A send takes off once: what is in flight already stays the same flight. -/
theorem flies {aloft : World} {native : Action} {flight : Flight}
    (hleaves : Leaves ticket start world work left) (hflies : left.Flies world aloft native flight)
    (hruns : Runs ticket world next) :
    Leaves ticket start next work (.flying native flight) := by
  cases hleaves with
  | whole hbefore => exact .flight hbefore hflies hruns
  | flight hbefore htakesOff hafter =>
      cases hflies with
      | staysUp => exact .flight hbefore htakesOff (hafter.trans hruns)

theorem onPanic (hleaves : Leaves ticket start world work left) (name : String) :
    left.onPanic name = work.onPanic name := by
  cases hleaves with
  | whole => rfl
  | flight _ htakesOff => cases htakesOff <;> rfl

/-- What a task comes to does not depend on how much of it is left. -/
theorem outcome {task : Task} (hleaves : Leaves ticket start world task.work left)
    (run : NativeRun) : ({ task with work := left } : Task).outcome run = task.outcome run := by
  simp only [Task.outcome]
  rw [hleaves.onPanic]

theorem delivered {task : Task} (hleaves : Leaves ticket start world task.work left) (last : World)
    (run : NativeRun) :
    last.delivered { task with work := left } run = last.delivered task run := by
  simp only [World.delivered]
  rw [hleaves.outcome]

end Leaves

/-- A task that is the only one of its ticket delivers once. -/
theorem deliveriesOf_delivered {last : World} {task : Task} (hworks : Works world last events)
    (hnone : world.deliveriesOf task.ticket = []) (run : NativeRun) :
    (last.delivered task run).deliveriesOf task.ticket =
      [⟨task.ticket, run.context, task.outcome run⟩] := by
  have htold : (last.told (task.outcome run)).deliveriesOf task.ticket = [] := by
    simp only [deliveriesOf] at hnone ⊢
    rw [told_deliveries, hworks.deliveries]
    exact hnone
  refine (deliveriesOf_deliver _ task.ticket task.ticket run.context _).trans ?_
  rw [htold, if_pos rfl]
  rfl

/-- The only task of a ticket takes a step where it stands. -/
theorem step_only {before after : List Task} {task left : Task}
    (htasks : world.tasks = before ++ task :: after) (howner : task.ticket = ticket)
    (honly : world.tasksOf ticket = [left]) :
    task = left ∧ ∀ middle : World, ∀ rest : List Task,
      ({ middle with tasks := before ++ rest ++ after } : World).tasksOf ticket =
        rest.filter fun task => task.ticket == ticket := by
  simp only [tasksOf] at honly ⊢
  rw [htasks, List.filter_append, List.filter_cons_of_pos (by simpa using howner),
    List.append_eq_singleton_iff] at honly
  rcases honly with ⟨hbefore, hrest⟩ | ⟨-, hrest⟩
  · obtain ⟨hleft, hafter⟩ := List.cons.inj hrest
    refine ⟨hleft, ?_⟩
    intro middle rest
    rw [List.filter_append, List.filter_append, hbefore, hafter]
    simp
  · cases hrest

theorem tasksOf_ne_nil {before after : List Task} {task : Task}
    (htasks : world.tasks = before ++ task :: after) (howner : task.ticket = ticket) :
    world.tasksOf ticket ≠ [] := by
  have hmem : task ∈ world.tasksOf ticket := by
    simp only [tasksOf]
    rw [htasks]
    simp [howner]
  exact List.ne_nil_of_mem hmem

/-- A ticket without tasks has the one that is spawned for it. -/
theorem tasksOf_spawn_only {before : World} {task : Task}
    (htasks : before.tasksOf ticket = []) (howner : task.ticket = ticket) :
    (before.spawn task).tasksOf ticket = [task] := by
  rw [tasksOf_spawn, htasks, if_pos howner]
  rfl

/-! ### One step -/

namespace Stage

variable {task : Task} (hstage : Stage ticket start task world events records)

include hstage

/-- A task that goes on is in flight and has left no trail. -/
theorem goesOn {entered : List Event} {emitted : List Diagnostic} {before after : List Task}
    {current remaining : Task} (hsplit : world.tasks = before ++ current :: after)
    (howner : current.ticket = ticket) (hstep : current.step world = (some remaining, next))
    (hjournal : next.journal = world.journal ++ entered)
    (hdiagnostics : next.diagnostics = world.diagnostics ++ emitted) :
    Stage ticket start task { next with tasks := before ++ remaining :: after }
      (events ++ entered) (records ++ emitted) := by
  rcases hstage with ⟨left, hleft, honly, hnone⟩ | ⟨-, hgone⟩
  · have hproceeds := @Proceeds.step ticket world before current after hsplit
    obtain ⟨rfl, hnext⟩ := step_only hsplit howner honly
    obtain ⟨native, flight, rfl, hflies⟩ := Task.step_eq_some hstep
    have howns : task.ticket = ticket := howner
    obtain rfl := List.append_cancel_left (hflies.works.journal.symm.trans hjournal)
    obtain rfl : emitted = [] := by
      rw [hflies.works.diagnostics] at hdiagnostics
      exact List.self_eq_append_right.1 hdiagnostics
    rw [hstep, Option.toList_some, List.append_assoc] at hproceeds
    refine .underWay (.flying native flight) (hleft.flies hflies (.single hproceeds)) ?_ ?_
    · have hsingle := hnext next [{ task with work := .flying native flight }]
      rw [List.append_assoc] at hsingle
      refine hsingle.trans ?_
      simp [howns]
    · have hsame : next.deliveriesOf ticket = world.deliveriesOf ticket := by
        simp only [deliveriesOf]
        rw [hflies.works.deliveries]
      exact hsame.trans hnone
  · exact absurd hgone (tasksOf_ne_nil hsplit howner)

/-- When the callback fires, the trail is what the last step has entered and the record of the
outcome. -/
theorem fires {last : World} {entered : List Event} {emitted : List Diagnostic}
    {before after : List Task} {current : Task} {context : Context}
    {outcome : Except Failure (Option Value)}
    (hsplit : world.tasks = before ++ current :: after) (howner : current.ticket = ticket)
    (hstep : current.step world = (none, last.deliver ticket context outcome))
    (hjournal : last.journal = world.journal ++ entered)
    (hdiagnostics : last.diagnostics = world.diagnostics ++ emitted) :
    Stage ticket start task { last.deliver ticket context outcome with tasks := before ++ after }
      (events ++ entered) (records ++ emitted) := by
  rcases hstage with ⟨left, hleft, honly, hnone⟩ | ⟨-, hgone⟩
  · obtain ⟨rfl, hnext⟩ := step_only hsplit howner honly
    obtain ⟨final, entered', run, hends, hworks, hstore, hfinal⟩ := Task.step_eq_none hstep
    obtain rfl : task.ticket = ticket := howner
    rw [hleft.delivered] at hfinal
    have hjournals := congrArg World.journal hfinal
    have hrecords := congrArg World.diagnostics hfinal
    rw [delivered_journal, hworks.journal] at hjournals
    rw [delivered_diagnostics, hworks.diagnostics] at hrecords
    obtain rfl := List.append_cancel_left (hjournal.symm.trans hjournals)
    obtain rfl := List.append_cancel_left (hdiagnostics.symm.trans hrecords)
    have hgone := hnext (last.deliver task.ticket context outcome) []
    rw [List.append_nil, hfinal] at hgone
    rw [hfinal]
    exact .over ⟨hleft, hends, hworks, hstore, ⟨before ++ after, .refl⟩,
      deliveriesOf_delivered hworks hnone run⟩ hgone
  · exact absurd hgone (tasksOf_ne_nil hsplit howner)

theorem elsewhere (htasks : next.tasksOf ticket = world.tasksOf ticket)
    (hdeliveries : next.deliveriesOf ticket = world.deliveriesOf ticket) :
    Stage ticket start task next events records := by
  have hproceeds : Runs ticket world next := .single (.elsewhere htasks hdeliveries)
  rcases hstage with ⟨left, hleft, honly, hnone⟩ | ⟨hended, hgone⟩
  · exact .underWay left (hleft.later hproceeds) (htasks.trans honly) (hdeliveries.trans hnone)
  · obtain ⟨tasks, hafter⟩ := hended.after
    refine .over ⟨hended.before, hended.ends, hended.works, hended.store, ⟨tasks, ?_⟩, ?_⟩
      (htasks.trans hgone)
    · exact hafter.trans hproceeds
    · exact hdeliveries.trans hended.deliveries

end Stage

/-! ### The whole trail -/

/-- The trail of a task is that of a call under way or of one that is over. -/
theorem Trail.stage {task : Task} (htrail : Trail ticket start events records world)
    (htasks : start.tasksOf ticket = [task]) (hdeliveries : start.deliveriesOf ticket = []) :
    Stage ticket start task world events records := by
  induction htrail with
  | start => exact .underWay task.work (.whole .refl) htasks hdeliveries
  | goesOn _ _ _ _ _ hsplit howner hstep hjournal hdiagnostics ih =>
      exact ih.goesOn hsplit howner hstep hjournal hdiagnostics
  | fires _ _ _ _ hsplit howner hstep hjournal hdiagnostics ih =>
      exact ih.fires hsplit howner hstep hjournal hdiagnostics
  | elsewhere _ hsame hkept ih => exact ih.elsewhere hsame hkept

/-- Without a task a ticket leaves no trail. -/
theorem Trail.eq_nil (htrail : Trail ticket start events records world)
    (htasks : start.tasksOf ticket = []) :
    events = [] ∧ records = [] ∧ world.tasksOf ticket = [] ∧
      world.deliveriesOf ticket = start.deliveriesOf ticket := by
  induction htrail with
  | start => exact ⟨rfl, rfl, htasks, rfl⟩
  | goesOn _ before task left after hsplit howner | fires _ before task after hsplit howner =>
      next ih => exact absurd ih.2.2.1 (tasksOf_ne_nil hsplit howner)
  | elsewhere _ hsame hdeliveries ih =>
      exact ⟨ih.1, ih.2.1, hsame.trans ih.2.2.1, hdeliveries.trans ih.2.2.2⟩

end World

end Switchboard
