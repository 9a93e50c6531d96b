import Switchboard.Proofs.Waiting

/-!
What a ticket stands for.

A callback is known by its ticket.  Before it fires there is one task that will make it fire, and
afterwards there is one delivery; a step of the task turns the one into the other and nothing else
touches either.  So tasks and deliveries of a ticket together stay one in number through every run,
whoever runs what and in which order, and what is true of the context that the task will hand back
is true of the one that is delivered.
-/

namespace Switchboard.World

/-- The tasks of one callback. -/
def tasksOf (world : World) (ticket : Nat) : List Task :=
  world.tasks.filter fun task => task.ticket == ticket

/-- The number of times a callback has fired or has still to fire. -/
def entrusted (world : World) (ticket : Nat) : Nat :=
  (world.tasksOf ticket).length + (world.deliveriesOf ticket).length

variable {world next : World} {ticket : Nat}

theorem Changes.tickets (hchanges : Changes world next) (ticket : Nat) :
    next.tasksOf ticket = world.tasksOf ticket ∧
      next.deliveriesOf ticket = world.deliveriesOf ticket := by
  simp only [tasksOf, deliveriesOf]
  rw [hchanges.quiet.tasks, hchanges.quiet.deliveries]
  exact ⟨rfl, rfl⟩

theorem deliveriesOf_deliver (world : World) (owner ticket : Nat) (context : Context)
    (outcome : Except Failure (Option Value)) :
    (world.deliver owner context outcome).deliveriesOf ticket =
      world.deliveriesOf ticket ++
        if owner = ticket then [⟨owner, context, outcome⟩] else [] := by
  simp only [deliveriesOf, deliver]
  rw [List.filter_append]
  by_cases howner : owner = ticket
  · simp [howner]
  · simp [howner]

theorem tasksOf_spawn (world : World) (task : Task) (ticket : Nat) :
    (world.spawn task).tasksOf ticket =
      world.tasksOf ticket ++ if task.ticket = ticket then [task] else [] := by
  simp only [tasksOf, spawn]
  rw [List.filter_append]
  by_cases howner : task.ticket = ticket
  · simp [howner]
  · simp [howner]

/-- What a callback that fires adds to the deliveries. -/
theorem Fires.tickets {owner : Nat} {context : Context} (hfires : Fires owner context world next)
    (ticket : Nat) :
    next.tasksOf ticket = world.tasksOf ticket ∧
      ∃ outcome, next.deliveriesOf ticket = world.deliveriesOf ticket ++
        if owner = ticket then [⟨owner, context, outcome⟩] else [] := by
  obtain ⟨before, outcome, hchanges, rfl⟩ := hfires
  obtain ⟨htasks, hdeliveries⟩ := hchanges.tickets ticket
  refine ⟨htasks, outcome, ?_⟩
  rw [deliveriesOf_deliver, hdeliveries]

/-! ## One task or one delivery -/

/-- The callback of this ticket fires once: it has one task, or it has been delivered, and `P` holds
of the context that comes with it. -/
structure Owes (world : World) (ticket : Nat) (P : Context → Prop) : Prop where
  once : world.entrusted ticket = 1
  tasks : ∀ task ∈ world.tasksOf ticket, ∀ later, P (task.handsBack later)
  deliveries : ∀ delivery ∈ world.deliveriesOf ticket, P delivery.context

/-- What happens to a world of which this ticket is a part: a task takes a step, or something else
happens that leaves the tasks and deliveries of the ticket alone. -/
inductive Proceeds (ticket : Nat) : World → World → Prop
  | step {world : World} (before : List Task) (task : Task) (after : List Task)
      (htasks : world.tasks = before ++ task :: after) :
      Proceeds ticket world { (task.step world).2 with
        tasks := before ++ (task.step world).1.toList ++ after }
  | elsewhere {world next : World} (htasks : next.tasksOf ticket = world.tasksOf ticket)
      (hdeliveries : next.deliveriesOf ticket = world.deliveriesOf ticket) :
      Proceeds ticket world next

/-- A run of such happenings, in any order. -/
abbrev Runs (ticket : Nat) : World → World → Prop :=
  Relation.ReflTransGen (Proceeds ticket)

theorem Lapse.proceeds (hlapse : Lapse world next) (ticket : Nat) :
    Proceeds ticket world next := by
  cases hlapse with
  | pass => exact .elsewhere rfl rfl
  | step before task after htasks => exact .step before task after htasks

theorem Move.proceeds (hmove : Move world next) (ticket : Nat) : Proceeds ticket world next := by
  cases hmove with
  | quiet hchange =>
      obtain ⟨htasks, hdeliveries⟩ := Changes.tickets (.single hchange) ticket
      exact .elsewhere htasks hdeliveries
  | lapse hlapse => exact hlapse.proceeds ticket

theorem Moves.runs (hmoves : Moves world next) (ticket : Nat) : Runs ticket world next := by
  induction hmoves with
  | refl => exact .refl
  | tail _ hmove ih => exact ih.tail (hmove.proceeds ticket)

section Step

variable {before after : List Task} {task : Task}
  (htasks : world.tasks = before ++ task :: after)
  (hnext : next = { (task.step world).2 with
    tasks := before ++ (task.step world).1.toList ++ after })

include htasks hnext

/-- A step of a task is of no concern to another ticket. -/
theorem step_others (howner : task.ticket ≠ ticket) :
    next.tasksOf ticket = world.tasksOf ticket ∧
      next.deliveriesOf ticket = world.deliveriesOf ticket := by
  have hdeliveries : next.deliveriesOf ticket = (task.step world).2.deliveriesOf ticket := by
    rw [hnext]
    rfl
  rw [hdeliveries, hnext]
  simp only [tasksOf]
  rw [htasks]
  rcases task.step_cases world with ⟨native, flight, hsome, hchanges, -, -⟩ | ⟨hnone, hfires⟩
  · rw [hsome, (hchanges.tickets ticket).2]
    simp [howner]
  · obtain ⟨-, outcome, hdelivered⟩ := hfires.tickets ticket
    rw [hnone, hdelivered, if_neg howner, List.append_nil]
    simp [howner]

/-- A step of a task of the ticket leaves the other tasks of the ticket where they are. -/
theorem step_own (howner : task.ticket = ticket) :
    (∃ others rest, world.tasksOf ticket = others ++ task :: rest ∧
      next.tasksOf ticket = others ++ (task.step world).1.toList ++ rest) ∧
      next.deliveriesOf ticket = (task.step world).2.deliveriesOf ticket := by
  have hleft : (task.step world).1.toList.filter (fun task => task.ticket == ticket) =
      (task.step world).1.toList := by
    rcases task.step_cases world with ⟨native, flight, hsome, -⟩ | ⟨hnone, -⟩
    · rw [hsome]
      simp [howner]
    · rw [hnone]
      rfl
  constructor
  · refine ⟨before.filter fun task => task.ticket == ticket,
      after.filter fun task => task.ticket == ticket, ?_, ?_⟩
    · simp only [tasksOf]
      rw [htasks, List.filter_append, List.filter_cons_of_pos (by simpa using howner)]
    · rw [hnext]
      simp only [tasksOf]
      rw [List.filter_append, List.filter_append, hleft]
  · rw [hnext]
    rfl

end Step

theorem Proceeds.entrusted (hproceeds : Proceeds ticket world next) :
    next.entrusted ticket = world.entrusted ticket := by
  simp only [World.entrusted]
  cases hproceeds with
  | elsewhere htasks hdeliveries => rw [htasks, hdeliveries]
  | step before task after htasks =>
      by_cases howner : task.ticket = ticket
      · obtain ⟨⟨others, rest, hsplit, hleft⟩, hdeliveries⟩ := step_own htasks rfl howner
        rw [hsplit, hleft, hdeliveries]
        rcases task.step_cases world with ⟨native, flight, hsome, hchanges, -, -⟩ | ⟨hnone, hfires⟩
        · rw [hsome, (hchanges.tickets ticket).2]
          simp
        · obtain ⟨-, outcome, hdelivered⟩ := hfires.tickets ticket
          rw [hnone, hdelivered, if_pos howner]
          simp only [List.length_append, List.length_cons, List.length_nil, Option.toList_none]
          omega
      · obtain ⟨hsame, hdeliveries⟩ := step_others htasks rfl howner
        rw [hsame, hdeliveries]

/-- Tasks and deliveries of a ticket stay as many as they are. -/
theorem Runs.entrusted (hruns : Runs ticket world next) :
    next.entrusted ticket = world.entrusted ticket := by
  induction hruns with
  | refl => rfl
  | tail _ hproceeds ih => exact hproceeds.entrusted.trans ih

theorem Proceeds.owes {P : Context → Prop} (hproceeds : Proceeds ticket world next)
    (howes : world.Owes ticket P) : next.Owes ticket P := by
  have honce : next.entrusted ticket = 1 := hproceeds.entrusted.trans howes.once
  cases hproceeds with
  | elsewhere htasks hdeliveries =>
      refine ⟨honce, ?_, ?_⟩
      · rw [htasks]
        exact howes.tasks
      · rw [hdeliveries]
        exact howes.deliveries
  | step before task after htasks =>
      by_cases howner : task.ticket = ticket
      · obtain ⟨⟨others, rest, hsplit, hleft⟩, hdeliveries⟩ := step_own htasks rfl howner
        have howed := howes.tasks
        rw [hsplit] at howed
        have hothers : ∀ other ∈ others ++ rest, ∀ later, P (other.handsBack later) := by
          intro other hother
          apply howed
          rw [List.mem_append, List.mem_cons]
          rcases List.mem_append.1 hother with hother | hother
          · exact .inl hother
          · exact .inr (.inr hother)
        have htask := howed task (List.mem_append_right _ List.mem_cons_self)
        refine ⟨honce, ?_, ?_⟩
        · rw [hleft]
          rcases task.step_cases world with ⟨native, flight, hsome, -, -, hcontext⟩ | ⟨hnone, -⟩
          · intro other hother later
            rw [hsome, Option.toList_some, List.append_assoc, List.mem_append,
              List.singleton_append, List.mem_cons] at hother
            rcases hother with hother | rfl | hother
            · exact hothers other (List.mem_append_left _ hother) later
            · have hkept := htask later
              rw [hcontext later] at hkept
              exact hkept
            · exact hothers other (List.mem_append_right _ hother) later
          · rw [hnone, Option.toList_none, List.append_nil]
            exact hothers
        · rw [hdeliveries]
          rcases task.step_cases world with ⟨native, flight, -, hchanges, -, -⟩ | ⟨-, hfires⟩
          · rw [(hchanges.tickets ticket).2]
            exact howes.deliveries
          · obtain ⟨-, outcome, hdelivered⟩ := hfires.tickets ticket
            intro delivery hdelivery
            rw [hdelivered, if_pos howner, List.mem_append, List.mem_singleton] at hdelivery
            rcases hdelivery with hdelivery | rfl
            · exact howes.deliveries delivery hdelivery
            · exact htask world
      · obtain ⟨hsame, hdeliveries⟩ := step_others htasks rfl howner
        refine ⟨honce, ?_, ?_⟩
        · rw [hsame]
          exact howes.tasks
        · rw [hdeliveries]
          exact howes.deliveries

/-- Once owed, always owed. -/
theorem Runs.owes {P : Context → Prop} (hruns : Runs ticket world next)
    (howes : world.Owes ticket P) : next.Owes ticket P := by
  induction hruns with
  | refl => exact howes
  | tail _ hproceeds ih => exact hproceeds.owes ih

/-- A callback without a task has fired. -/
theorem Owes.delivered {P : Context → Prop} (howes : world.Owes ticket P)
    (hgone : world.tasksOf ticket = []) : (world.deliveriesOf ticket).length = 1 := by
  have honce := howes.once
  simp only [World.entrusted] at honce
  rw [hgone, List.length_nil, Nat.zero_add] at honce
  exact honce

end Switchboard.World
