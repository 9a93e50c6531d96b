import Mathlib.Logic.ExistsUnique
import Switchboard.Proofs.Objections
import Switchboard.Proofs.Reports

/-!
The dispatcher is a gate.

Whatever is wrong with a call, it is turned away with the first objection before any native code is
entered and before its transport hears of it.  A call with which nothing is wrong is let through:
its dispatch is recorded once, and then its implementation runs its course, once and on these
arguments.
-/

namespace Switchboard

/-- The world in which a call has been turned away: the failure is recorded, and that is all. -/
def World.turnedAway (world : World) (mode : CallMode) (name : String) (arguments : List Value)
    (failure : Failure) : World :=
  (world.note (.invoked mode name arguments)).report failure

namespace Engine

variable {engine : Engine} {ticket : Nat} {name : String} {arguments : List Value}
  {context : Context} {world : World}

/-! ## Refused calls -/

/-- A call that waits has been let through: once it has been recorded as dispatched its target runs
its course, and the outcome is what that leaves behind.  Its dispatch is recorded once, and its
failure is reported if there is one. -/
structure Performs (engine : Engine) (name : String) (arguments : List Value) (context : Context)
    (world : World) (entry : Entry) (target : Target) (opened launched ended last : World)
    (head : List Event) (rest : Except (Halt Fault) Work) (tail : List Event) (run : NativeRun)
    (records : List Diagnostic) : Prop where
  performs : target.Performs engine.config.transportTimeout name arguments context
    (world.admitted .blocking name arguments context) opened launched ended last head rest tail run
  answers : engine.invoke name arguments context world =
    entry.descriptor.handOver name run.answer run.context last
  dispatched : last.diagnostics = world.diagnostics ++ .ofDispatch name context.location? :: records
  failures : ∀ record ∈ records, record.isFailure = true
  told : Outcome.Told last (engine.invoke name arguments context world)

/-- A call with a callback has been let through: once it has been recorded as dispatched its target
is opened, and what is left to do is left to a task.  Nothing more is entered as long as the task is
there, and when it is gone the call is over; whoever waits for it sees that happen.  Its dispatch is
recorded once. -/
structure Launches (engine : Engine) (ticket : Nat) (name : String) (arguments : List Value)
    (context : Context) (world : World) (entry : Entry) (target : Target) (opened : World)
    (head : List Event) (rest : Except (Halt Fault) Work) (first : List Diagnostic)
    (left : Option Task) : Prop where
  opens : target.Opens engine.config.transportTimeout ticket name entry.descriptor arguments context
    (world.admitted .callback name arguments context) opened head rest first left
    (engine.start ticket name arguments context world)
  failures : ∀ events own later,
    World.Trail ticket (engine.start ticket name arguments context world).2 events own later →
      ∀ record ∈ first ++ own, record.isFailure = true
  course : ∀ events own later,
    World.Trail ticket (engine.start ticket name arguments context world).2 events own later →
      later.tasksOf ticket = [] ∧
          World.Over ticket (engine.start ticket name arguments context world).2 later left events ∨
        later.tasksOf ticket ≠ [] ∧ events = []
  ends : ∃ events own,
    World.Trail ticket (engine.start ticket name arguments context world).2 events own
        ((engine.start ticket name arguments context world).2.await ticket) ∧
      ((engine.start ticket name arguments context world).2.await ticket).tasksOf ticket = []

end Engine

/-- Whoever waits for a call that has begun sees its task come to its end. -/
theorem World.Begun.await {ticket : Nat} {before : World} {first : List Diagnostic}
    {left : Option Task} {began : Started × World}
    (hbegun : before.Begun ticket first left began) (hfresh : before.entrusted ticket = 0) :
    ∃ events own, World.Trail ticket began.2 events own (began.2.await ticket) ∧
      (began.2.await ticket).tasksOf ticket = [] := by
  obtain ⟨htasks, hdeliveries⟩ := Engine.tickets_of_entrusted_eq_zero hfresh
  obtain ⟨events, own, htrail⟩ :=
    ((World.lapses_await began.2 ticket).moves.runs ticket).exists_trail
  refine ⟨events, own, htrail, ?_⟩
  rcases hbegun with ⟨back, failure⟩ | ⟨task, howner⟩ | _
  · exact (htrail.eq_nil htasks).2.2.1
  · have hspawned := World.tasksOf_spawn_only htasks howner
    have hnone : (before.spawn task).deliveriesOf ticket = [] := hdeliveries
    have howes : (before.spawn task).Owes ticket fun _ => True := by
      refine ⟨?_, fun _ _ _ => trivial, fun _ _ => trivial⟩
      simp only [World.entrusted]
      rw [hspawned, hnone]
      rfl
    rcases htrail.stage hspawned hnone with ⟨-, -, -, hwaiting⟩ | ⟨-, hgone⟩
    · have hfired := howes.await
      rw [hwaiting] at hfired
      cases hfired
    · exact hgone
  · exact (htrail.eq_nil htasks).2.2.1

namespace Engine

variable {engine : Engine} {ticket : Nat} {name : String} {arguments : List Value}
  {context : Context} {world : World}

/-- A world in which what is sent is accepted. -/
def served : World :=
  (World.start (.ofSlots 1)).setTransport "jms" (.loopback (.ofProtocol "jms"))

end Engine

end Switchboard
