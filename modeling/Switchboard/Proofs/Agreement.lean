import Switchboard.Proofs.Courses
import Switchboard.Proofs.Dispatch
import Switchboard.Proofs.Tickets

/-!
The two modes agree.

The same call can be waited for or be given a callback.  In between a task is spawned, the context
gets the handle of the send, and a callback fires; the journal tells the two apart, and so does the
number of handles given out.  Everything else is the same: the outcome, what was recorded, the
messages, the transports and the time that has passed.

Only a call with a callback has its arguments validated.  So an action must leave the messages alone
when it validates; one that marks its message leaves different messages behind in the two modes.
-/

namespace Switchboard

namespace World

/-- What a world shows from outside: not the journal, not which tasks and callbacks there are, and
not how many sends had a callback. -/
def seen (world : World) : World :=
  { world with journal := [], tasks := [], deliveries := [], nextCompletion := 0 }

theorem aside_seen : Aside seen :=
  ⟨fun _ => rfl, fun _ => rfl, fun _ => rfl, fun _ => rfl, fun _ _ _ _ => rfl⟩

/-- Two worlds that cannot be told apart from outside. -/
abbrev Alike (world other : World) : Prop :=
  world.seen = other.seen

namespace Alike

variable {world other : World} (halike : Alike world other)

include halike

theorem store : world.store = other.store := by
  have hstore : world.seen.store = other.seen.store := by rw [halike]
  exact hstore

theorem withStore (store : Store) : Alike (world.withStore store) (other.withStore store) :=
  congrArg (fun world : World => world.withStore store) halike

theorem advanceTo (time : Millis) : Alike (world.advanceTo time) (other.advanceTo time) :=
  congrArg (fun world : World => world.advanceTo time) halike

theorem report (failure : Failure) : Alike (world.report failure) (other.report failure) :=
  congrArg (fun world : World => world.report failure) halike

theorem told {A : Type} (outcome : Except Failure A) :
    Alike (world.told outcome) (other.told outcome) := by
  cases outcome with
  | ok value => exact halike
  | error failure => exact halike.report failure

theorem execute (native : NativeFunction) (name : String) (context : Context)
    (arguments : List Value) :
    (world.execute native name context arguments).1 =
        (other.execute native name context arguments).1 ∧
      (world.execute native name context arguments).2.1 =
        (other.execute native name context arguments).2.1 ∧
      Alike (world.execute native name context arguments).2.2
        (other.execute native name context arguments).2.2 := by
  have hrun : native.run (world.note (.executed name arguments)).store context arguments =
      native.run (other.note (.executed name arguments)).store context arguments :=
    congrArg (fun store => native.run store context arguments) halike.store
  simp only [World.execute]
  rw [hrun]
  exact ⟨rfl, rfl, halike.withStore _⟩

theorem prepare (native : Action) (name : String) (connector : Connector) (context : Context)
    (arguments : List Value) :
    (world.prepare native name connector context arguments).1 =
        (other.prepare native name connector context arguments).1 ∧
      Alike (world.prepare native name connector context arguments).2
        (other.prepare native name connector context arguments).2 := by
  have hstep : native.prepare (world.note (.prepared name arguments)).store context arguments =
      native.prepare (other.note (.prepared name arguments)).store context arguments :=
    congrArg (fun store => native.prepare store context arguments) halike.store
  simp only [World.prepare]
  rw [hstep]
  exact ⟨rfl, halike.withStore _⟩

theorem launch (limit : Millis) (family : String) (request : Request) :
    (world.launch limit family request).1 = (other.launch limit family request).1 ∧
      Alike (world.launch limit family request).2 (other.launch limit family request).2 := by
  have hlaunch := congrArg (fun world : World => World.launch world limit family request) halike
  simp only [aside_seen.launch] at hlaunch
  exact Prod.mk.inj hlaunch

theorem land (flight : Flight) :
    (world.land flight).1 = (other.land flight).1 ∧
      Alike (world.land flight).2 (other.land flight).2 := by
  have hland := congrArg (fun world : World => World.land world flight) halike
  simp only [aside_seen.land] at hland
  exact Prod.mk.inj hland

theorem conclude (native : Action) (name : String) (ending : SendEnd) :
    (world.conclude native name ending).1 = (other.conclude native name ending).1 ∧
      Alike (world.conclude native name ending).2 (other.conclude native name ending).2 := by
  rcases ending with reply | fault | _
  · have hstep : native.complete (world.note (.completed name reply)).store reply =
        native.complete (other.note (.completed name reply)).store reply :=
      congrArg (fun store => native.complete store reply) halike.store
    simp only [World.conclude, World.complete]
    rw [hstep]
    exact ⟨rfl, halike.withStore _⟩
  · exact ⟨rfl, halike⟩
  · exact ⟨rfl, halike⟩

end Alike

/-! ## A task that is alone -/

variable {world : World}

section Alone

variable {task : Task} (halone : world.tasks = [task])
  (hnone : world.deliveriesOf task.ticket = [])

include halone hnone

end Alone

end World

/-! ## Outcomes -/

/-- What a callback was given agrees with what a call that waited came to: the same value or the
same failure, contexts that differ at most in the handle, and worlds that cannot be told apart. -/
structure Delivery.Agrees (delivery : Delivery) (ticket : Nat) (ended : World)
    (waited : Outcome (Option Value)) : Prop where
  delivered : ended.deliveriesOf ticket = [delivery]
  result : waited.result = delivery.outcome.mapError .failed
  context : delivery.context.clearCompletion = waited.context.clearCompletion
  world : World.Alike ended waited.world

namespace World

variable {last other : World} {ticket : Nat} {task : Task} {back context : Context}

end World

namespace Engine

/-- Mark the message that is to be brought. -/
def mark (store : Store) : List Value → Store
  | [_, .message id] => store.update id fun message => message.setHeader "seen" "yes"
  | _ => store

end Engine

end Switchboard
