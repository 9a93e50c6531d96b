import Switchboard.Proofs.Tickets

/-!
Whoever waits for a callback gets it.

After a turn every task that is left is in flight and not due yet, so when the clock goes on to the
next moment something is due, the turn that follows has fewer tasks to leave behind.  Every flight
has a deadline.  So as many turns as there are tasks, after the first, come to the end of all of
them.
-/

namespace Switchboard

namespace Task

/-- A task in flight whose flight is due. -/
def IsDue (task : Task) (now : Millis) : Prop :=
  ∃ native flight, task.work = .flying native flight ∧ flight.due ≤ now

/-- A task in flight whose flight is not due yet. -/
def IsUnderWay (task : Task) (now : Millis) : Prop :=
  ∃ native flight, task.work = .flying native flight ∧ now < flight.due

theorem step_now (task : Task) (world : World) : (task.step world).2.now = world.now := by
  rcases task.step_cases world with
    ⟨_, _, _, hchanges, -, -⟩ | ⟨_, before, outcome, hchanges, hnext⟩
  · exact hchanges.quiet.now
  · rw [hnext]
    exact hchanges.quiet.now

theorem step_of_isDue {task : Task} {world : World} (hdue : task.IsDue world.now) :
    (task.step world).1 = none := by
  obtain ⟨native, flight, hwork, hmoment⟩ := hdue
  simp only [step]
  rw [hwork]
  dsimp only
  rw [if_pos hmoment]

theorem step_isUnderWay {task left : Task} {world : World}
    (hleft : (task.step world).1 = some left) :
    left.IsUnderWay world.now := by
  rcases task.step_cases world with ⟨native, flight, hsome, -, hmoment, -⟩ | ⟨hnone, -⟩
  · rw [hsome] at hleft
    cases hleft
    exact ⟨native, flight, rfl, hmoment⟩
  · rw [hnone] at hleft
    cases hleft

/-- What is left after every task took a step: tasks under way, not more than there were, and fewer
if one was due. -/
theorem stepAll_left (tasks : List Task) (world : World) :
    (∀ task ∈ (stepAll tasks world).1, task.IsUnderWay world.now) ∧
      (stepAll tasks world).1.length ≤ tasks.length ∧
      ((∃ task ∈ tasks, task.IsDue world.now) →
        (stepAll tasks world).1.length < tasks.length) ∧
      (stepAll tasks world).2.now = world.now := by
  induction tasks generalizing world with
  | nil => simp [stepAll]
  | cons task tasks ih =>
      obtain ⟨hunderWay, hlength, hfewer, hnow⟩ := ih (task.step world).2
      rw [step_now] at hunderWay hfewer hnow
      simp only [stepAll]
      rcases hstep : (task.step world).1 with _ | left
      · refine ⟨hunderWay, ?_, ?_, hnow⟩
        · exact Nat.le_succ_of_le hlength
        · intro _
          exact Nat.lt_succ_of_le hlength
      · refine ⟨?_, Nat.succ_le_succ hlength, ?_, hnow⟩
        · intro other hother
          rcases List.mem_cons.1 hother with rfl | hother
          · exact step_isUnderWay hstep
          · exact hunderWay other hother
        · rintro ⟨other, hother, hdue⟩
          rcases List.mem_cons.1 hother with rfl | hother
          · rw [step_of_isDue hdue] at hstep
            cases hstep
          · exact Nat.succ_lt_succ (hfewer ⟨other, hother, hdue⟩)

theorem earliest_eq_none {now : Millis} {tasks : List Task} (h : earliest now tasks = none) :
    tasks = [] := by
  cases tasks with
  | nil => rfl
  | cons task tasks =>
      simp only [earliest] at h
      split at h <;> cases h

/-- The next moment is that of one of the tasks. -/
theorem exists_due_eq_earliest {now time : Millis} {tasks : List Task}
    (h : earliest now tasks = some time) : ∃ task ∈ tasks, task.due now = time := by
  induction tasks generalizing time with
  | nil => cases h
  | cons task tasks ih =>
      simp only [earliest] at h
      split at h
      · next later hlater =>
        obtain rfl : min (task.due now) later = time := Option.some.inj h
        obtain ⟨other, hother, hdue⟩ := ih hlater
        rcases Nat.le_total (task.due now) later with hle | hle
        · exact ⟨task, List.mem_cons_self, (Nat.min_eq_left hle).symm⟩
        · exact ⟨other, List.mem_cons_of_mem _ hother, hdue.trans (Nat.min_eq_right hle).symm⟩
      · exact ⟨task, List.mem_cons_self, Option.some.inj h⟩

end Task

namespace World

variable {ticket : Nat}

theorem turn_tasks (world : World) : world.turn.tasks = (Task.stepAll world.tasks world).1 := rfl

/-- When the clock goes on to the next moment after a turn, one of the tasks is due. -/
theorem exists_isDue {world : World} {time : Millis}
    (htime : Task.earliest world.turn.now world.turn.tasks = some time) :
    ∃ task ∈ (world.turn.advanceTo time).tasks,
      task.IsDue (world.turn.advanceTo time).now := by
  obtain ⟨task, htask, hdue⟩ := Task.exists_due_eq_earliest htime
  obtain ⟨native, flight, hwork, -⟩ := (Task.stepAll_left world.tasks world).1 task htask
  simp only [Task.due] at hdue
  rw [hwork] at hdue
  refine ⟨task, htask, native, flight, hwork, ?_⟩
  rw [← hdue]
  exact Nat.le_max_right _ _

theorem tasksOf_eq_nil {world : World} (h : world.tasks = []) : world.tasksOf ticket = [] := by
  simp only [tasksOf]
  rw [h]
  rfl

theorem Owes.of_nonempty {world : World} {P : Context → Prop} (howes : world.Owes ticket P)
    (h : (world.deliveriesOf ticket).isEmpty = false) :
    (world.deliveriesOf ticket).length = 1 := by
  have honce := howes.once
  have hne : (world.deliveriesOf ticket).length ≠ 0 := by
    intro hzero
    rw [List.eq_nil_of_length_eq_zero hzero] at h
    cases h
  simp only [World.entrusted] at honce
  omega

/-- Waiting for a callback with enough turns ahead makes it fire. -/
theorem runWhile_delivers {P : Context → Prop} (fuel : Nat) (world : World)
    (howes : world.Owes ticket P) (hfuel : world.turn.tasks.length ≤ fuel) :
    ((runWhile (fun world _ => (world.deliveriesOf ticket).isEmpty) (fuel + 1)
      world).deliveriesOf ticket).length = 1 := by
  induction fuel generalizing world with
  | zero =>
      have hturn := ((lapses_turn world).moves.runs ticket).owes howes
      have hidle := List.eq_nil_of_length_eq_zero (Nat.le_zero.1 hfuel)
      have hdelivered := hturn.delivered (tasksOf_eq_nil hidle)
      simp only [runWhile]
      rw [hidle]
      exact hdelivered
  | succ fuel ih =>
      have hturn := ((lapses_turn world).moves.runs ticket).owes howes
      simp only [runWhile]
      split
      · next hnone => exact hturn.delivered (tasksOf_eq_nil (Task.earliest_eq_none hnone))
      · next time hsome =>
        split
        · have hpassed := ((lapses_advanceTo world.turn time).moves.runs ticket).owes hturn
          apply ih (world.turn.advanceTo time) hpassed
          have hfewer := (Task.stepAll_left _ (world.turn.advanceTo time)).2.2.1
            (exists_isDue hsome)
          rw [turn_tasks]
          exact Nat.le_of_lt_succ (Nat.lt_of_lt_of_le hfewer hfuel)
        · next hstop =>
          exact hturn.of_nonempty (Bool.not_eq_true _ ▸ hstop)

/-- Whoever waits for a callback that is owed gets it, once. -/
theorem Owes.await {world : World} {P : Context → Prop} (howes : world.Owes ticket P) :
    ((world.await ticket).deliveriesOf ticket).length = 1 := by
  simp only [World.await]
  split
  · exact runWhile_delivers _ world howes (Task.stepAll_left world.tasks world).2.1
  · next hfired => exact howes.of_nonempty (Bool.not_eq_true _ ▸ hfired)

end World

end Switchboard
