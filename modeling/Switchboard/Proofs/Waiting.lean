import Switchboard.Evaluation
import Switchboard.Proofs.Changes

/-!
What happens while somebody waits.

Whoever waits lets the tasks take their steps and the clock go on.  A turn steps through the tasks
on the side and puts back what is left of them; since no task looks at the others, this is the same
as if each of them had taken its step where it stands.  So everything that a call does before it
returns, however many other calls it lets run meanwhile, is a row of moves: quiet changes, steps of
single tasks, and time that passes.
-/

namespace Switchboard

namespace World

/-- What waiting lets happen: a task takes a step where it stands, or time passes. -/
inductive Lapse : World → World → Prop
  | step {world : World} (before : List Task) (task : Task) (after : List Task)
      (htasks : world.tasks = before ++ task :: after) :
      Lapse world { (task.step world).2 with
        tasks := before ++ (task.step world).1.toList ++ after }
  | pass (world : World) (time : Millis) : Lapse world (world.advanceTo time)

/-- Some waiting. -/
abbrev Lapses : World → World → Prop :=
  Relation.ReflTransGen Lapse

/-- What a call that waits makes happen, or lets happen. -/
inductive Move : World → World → Prop
  | quiet {world next : World} (hchange : Change world next) : Move world next
  | lapse {world next : World} (hlapse : Lapse world next) : Move world next

/-- Moves one after the other. -/
abbrev Moves : World → World → Prop :=
  Relation.ReflTransGen Move

theorem Changes.moves {world next : World} (hchanges : Changes world next) :
    Moves world next := by
  induction hchanges with
  | refl => exact .refl
  | tail _ hchange ih => exact ih.tail (.quiet hchange)

theorem Lapses.moves {world next : World} (hlapses : Lapses world next) : Moves world next := by
  induction hlapses with
  | refl => exact .refl
  | tail _ hlapse ih => exact ih.tail (.lapse hlapse)

/-! ## What sends take no notice of -/

/-- A change of a world that sends take no notice of: it can be made before them or after them. -/
structure Aside (change : World → World) : Prop where
  transports : ∀ world, (change world).transports = world.transports
  replies : ∀ world, (change world).replies = world.replies
  now : ∀ world, (change world).now = world.now
  nextSend : ∀ world, (change world).nextSend = world.nextSend
  sent : ∀ (world : World) (transports : Entries Transport) (replies : List Envelope)
    (nextSend : Nat), change { world with transports, replies, nextSend } =
      { change world with transports, replies, nextSend }

namespace Aside

variable {change : World → World} (haside : Aside change) (world : World)

include haside

theorem transport (family : String) :
    (change world).transport family = world.transport family := by
  simp only [World.transport]
  rw [haside.transports]

theorem setTransport (family : String) (transport : Transport) :
    (change world).setTransport family transport =
      change (world.setTransport family transport) := by
  have hsent := haside.sent world (Entries.bind family transport world.transports) world.replies
    world.nextSend
  simp only [World.setTransport]
  rw [haside.transports, haside.replies, haside.nextSend]
  exact hsent.symm

theorem comeThrough (family : String) (transport : Loopback) (request : Request) :
    (change world).comeThrough family transport request =
      ((world.comeThrough family transport request).1,
        change (world.comeThrough family transport request).2) := by
  have hid : (change world).nextMessageId = world.nextMessageId := by
    simp only [World.nextMessageId]
    rw [haside.nextSend]
  simp only [World.comeThrough]
  rw [hid]
  rcases transport.comeThrough world.nextMessageId request with ⟨reply | fault | _, served⟩
  · simp only [haside.replies, haside.nextSend, World.setTransport, haside.transports]
    exact congrArg (Prod.mk _) (haside.sent world _ _ _).symm
  · exact congrArg (Prod.mk _) (haside.setTransport world family _)
  · exact congrArg (Prod.mk _) (haside.setTransport world family _)

theorem land (flight : Flight) :
    (change world).land flight = ((world.land flight).1, change (world.land flight).2) := by
  simp only [World.land]
  rw [haside.transport, haside.now]
  by_cases htime : flight.inTime world.now = true
  · rw [if_pos htime, if_pos htime]
    rcases flight.foreseen with _ | ending
    · rcases world.transport flight.family with fault | transport | peer
      · rfl
      · exact haside.comeThrough world _ _ _
      · rfl
    · rfl
  · rw [if_neg htime, if_neg htime]

theorem takeOff (flight : Flight) :
    (change world).takeOff flight =
      ((world.takeOff flight).1, change (world.takeOff flight).2) := by
  simp only [World.takeOff]
  rw [haside.now, haside.land]
  split <;> rfl

theorem launch (limit : Millis) (family : String) (request : Request) :
    (change world).launch limit family request =
      ((world.launch limit family request).1, change (world.launch limit family request).2) := by
  simp only [World.launch, haside.transport, haside.now, haside.setTransport, haside.comeThrough,
    haside.takeOff]
  rcases world.transport family with fault | transport | peer
  · rfl
  · dsimp only
    rcases transport.arrive with ⟨_ | _ | _, _⟩ <;> rfl
  · dsimp only
    rcases (peer.answer peer.seen request).delay with _ | _ | _ <;> rfl

end Aside

/-! ## No task looks at the others -/

/-- The same world with other tasks. -/
def withTasks (world : World) (tasks : List Task) : World :=
  { world with tasks }

theorem aside_withTasks (tasks : List Task) : Aside fun world => world.withTasks tasks :=
  ⟨fun _ => rfl, fun _ => rfl, fun _ => rfl, fun _ => rfl, fun _ _ _ _ => rfl⟩

variable (world : World) (tasks : List Task)

theorem land_withTasks (flight : Flight) :
    (world.withTasks tasks).land flight =
      ((world.land flight).1, (world.land flight).2.withTasks tasks) :=
  (aside_withTasks tasks).land world flight

theorem launch_withTasks (limit : Millis) (family : String) (request : Request) :
    (world.withTasks tasks).launch limit family request =
      ((world.launch limit family request).1,
        (world.launch limit family request).2.withTasks tasks) :=
  (aside_withTasks tasks).launch world limit family request

theorem execute_withTasks (native : NativeFunction) (name : String) (context : Context)
    (arguments : List Value) :
    (world.withTasks tasks).execute native name context arguments =
      ((world.execute native name context arguments).1,
        (world.execute native name context arguments).2.1,
        (world.execute native name context arguments).2.2.withTasks tasks) := rfl

theorem conclude_withTasks (native : Action) (name : String) (ending : SendEnd) :
    (world.withTasks tasks).conclude native name ending =
      ((world.conclude native name ending).1,
        (world.conclude native name ending).2.withTasks tasks) := by
  cases ending <;> rfl

theorem settle_withTasks (task : Task) (context : Context) (result : Checked (Option Value)) :
    (world.withTasks tasks).settle task context result =
      (world.settle task context result).withTasks tasks := by
  rcases result with fault | value
  · rfl
  · simp only [settle]
    split <;> rfl

theorem settleSend_withTasks (task : Task) (native : Action) (ending : SendEnd) :
    (world.withTasks tasks).settleSend task native ending =
      (world.settleSend task native ending).withTasks tasks := by
  simp only [settleSend]
  rw [conclude_withTasks]
  exact settle_withTasks _ tasks task _ _

end World

theorem Task.step_withTasks (task : Task) (world : World) (tasks : List Task) :
    task.step (world.withTasks tasks) =
      ((task.step world).1, (task.step world).2.withTasks tasks) := by
  have hnow : (world.withTasks tasks).now = world.now := rfl
  simp only [step]
  rcases task.work with ⟨native, arguments⟩ | ⟨native, family, limit, request⟩ | ⟨native, flight⟩
  · dsimp only
    have hexecute := World.execute_withTasks world tasks native task.name task.context arguments
    rw [hexecute]
    exact congrArg (Prod.mk none) (World.settle_withTasks _ tasks task _ _)
  · dsimp only
    rw [World.launch_withTasks]
    rcases world.launch limit family request with ⟨ending | flight, after⟩
    · exact congrArg (Prod.mk none) (World.settleSend_withTasks after tasks task native ending)
    · rfl
  · dsimp only
    rw [hnow, World.land_withTasks]
    by_cases hdue : flight.due ≤ world.now
    · rw [if_pos hdue, if_pos hdue]
      exact congrArg (Prod.mk none) (World.settleSend_withTasks _ tasks task native _)
    · rw [if_neg hdue, if_neg hdue]

namespace World

/-! ## Waiting takes one step at a time -/

variable (world : World)

/-- Stepping on the side is stepping in place. -/
theorem lapses_stepAll (done todo : List Task) :
    Lapses (world.withTasks (done ++ todo))
      ((Task.stepAll todo world).2.withTasks (done ++ (Task.stepAll todo world).1)) := by
  induction todo generalizing world done with
  | nil => exact .refl
  | cons task todo ih =>
      have hstep := @Lapse.step (world.withTasks (done ++ task :: todo)) done task todo rfl
      have hrest := ih (task.step world).2 (done ++ (task.step world).1.toList)
      rw [Task.step_withTasks] at hstep
      simp only [Task.stepAll]
      rw [← List.append_assoc]
      exact .head hstep hrest

theorem lapses_turn : Lapses world world.turn :=
  lapses_stepAll world [] world.tasks

theorem lapses_advanceTo (time : Millis) : Lapses world (world.advanceTo time) :=
  .single (.pass world time)

theorem lapses_runWhile (waiting : World → Millis → Bool) (fuel : Nat) :
    Lapses world (runWhile waiting fuel world) := by
  induction fuel generalizing world with
  | zero => exact .refl
  | succ fuel ih =>
      simp only [runWhile]
      split
      · exact lapses_turn world
      · next time _ =>
        split
        · have hpass := (lapses_turn world).trans (lapses_advanceTo world.turn time)
          exact hpass.trans (ih _)
        · exact lapses_turn world

theorem lapses_waitUntil (time : Millis) : Lapses world (world.waitUntil time) := by
  simp only [waitUntil]
  split
  · exact (lapses_runWhile world _ _).trans (lapses_advanceTo _ time)
  · exact .refl

/-- Who waits for a moment goes on when it has come. -/
theorem le_now_waitUntil (time : Millis) : time ≤ (world.waitUntil time).now := by
  simp only [waitUntil]
  split
  · exact Nat.le_max_right _ _
  · next h => exact Nat.le_of_not_lt h

theorem lapses_await (ticket : Nat) : Lapses world (world.await ticket) := by
  simp only [await]
  split
  · exact lapses_runWhile world _ _
  · exact .refl

/-! ## Calls that wait are rows of moves -/

theorem moves_sendAndWait (limit : Millis) (family : String) (request : Request) :
    Moves world (world.sendAndWait limit family request).2 := by
  have hlaunch : Moves world (world.launch limit family request).2 :=
    .single (.quiet (.launch world limit family request))
  simp only [sendAndWait]
  split
  · next heq =>
    rw [heq] at hlaunch
    exact hlaunch
  · next flight after heq =>
    rw [heq] at hlaunch
    have hwait := hlaunch.trans (lapses_waitUntil after flight.due).moves
    exact hwait.tail (.quiet (.land _ flight))

theorem moves_perform (limit : Millis) (native : Action) (name : String) (connector : Connector)
    (context : Context) (arguments : List Value) :
    Moves world (world.perform limit native name connector context arguments).2 := by
  have hprepare := (changes_prepare world native name connector context arguments).moves
  simp only [perform]
  split
  · next heq =>
    rw [heq] at hprepare
    exact hprepare
  · next request after heq =>
    rw [heq] at hprepare
    have hsend := hprepare.trans (moves_sendAndWait after limit connector.family request)
    exact hsend.trans (changes_conclude _ native name _).moves

theorem moves_runTarget (limit : Millis) (name : String) (context : Context)
    (arguments : List Value) (target : Target) :
    Moves world (world.runTarget limit name context arguments target).2.2 := by
  cases target with
  | function native => exact (changes_execute world native name context arguments).moves
  | action native connector => exact moves_perform world limit native name connector context _

end World

namespace Engine

variable (engine : Engine)

theorem changes_failIn {A : Type} (name : String) (fault : Fault) (context : Context)
    (world : World) :
    World.Changes world (@Outcome.failIn A name fault context world).world :=
  World.changes_reportIn world context name fault

theorem changes_handOver (descriptor : Descriptor) (name : String)
    (answer : Answer (Option Value)) (context : Context) (world : World) :
    World.Changes world (descriptor.handOver name answer context world).world := by
  simp only [Descriptor.handOver]
  split
  · split
    · exact .refl
    · exact changes_failIn name _ context world
  · exact changes_failIn name _ context world
  · exact .refl

theorem moves_invoke (name : String) (arguments : List Value) (context : Context)
    (world : World) : World.Moves world (engine.invoke name arguments context world).world := by
  have hnote : World.Moves world (world.note (.invoked .blocking name arguments)) :=
    .single (.quiet (.note world _))
  simp only [invoke]
  split
  · exact hnote.trans (changes_failIn name _ context _).moves
  · next target _ =>
    have hemit := hnote.tail (.quiet (.emit _ (.ofDispatch name context.location?)))
    have hrun := hemit.trans
      (World.moves_runTarget _ engine.config.transportTimeout name context arguments target)
    exact hrun.trans (changes_handOver _ name _ _ _).moves

theorem moves_invokeAt (name : String) (arguments : List Value) (location : Option Location)
    (context : Context) (world : World) :
    World.Moves world (engine.invokeAt name arguments location context world).world := by
  cases location with
  | none => exact moves_invoke engine name arguments context world
  | some location =>
      have hinvoke := moves_invoke engine name arguments (context.pushLocation location) world
      simp only [invokeAt, Outcome.leave]
      split <;> exact hinvoke

theorem moves_failAt {A : Type} (location : Option Location) (fault : Fault) (context : Context)
    (world : World) :
    World.Moves world (Outcome.failAt (A := A) location fault context world).world :=
  .single (.quiet (.emit world _))

theorem moves_checkedAt {A : Type} (location : Option Location) (result : Checked A)
    (context : Context) (world : World) :
    World.Moves world (Outcome.checkedAt location result context world).world := by
  cases result with
  | ok value => exact .refl
  | error fault => exact moves_failAt location fault context world

theorem moves_andThen {A B : Type} {world : World} {outcome : Outcome A}
    {next : A → Context → World → Outcome B} (houtcome : World.Moves world outcome.world)
    (hnext : ∀ value, World.Moves outcome.world
      (next value outcome.context outcome.world).world) :
    World.Moves world (outcome.andThen next).world := by
  simp only [Outcome.andThen]
  split
  · exact houtcome.trans (hnext _)
  · exact houtcome

mutual

theorem moves_evaluate : ∀ (expr : Expr) (context : Context) (world : World),
    World.Moves world (engine.evaluate expr context world).world
  | .literal _, _, _ => .refl
  | .var _ location, context, world => moves_checkedAt (some location) _ context world
  | .binary _ left right location, context, world => by
      apply moves_andThen (moves_evaluate left context world)
      intro value
      apply moves_andThen (moves_evaluate right _ _)
      intro other
      exact moves_checkedAt (some location) _ _ _
  | .call function arguments location, context, world => by
      apply moves_andThen (moves_evaluateAll arguments context world)
      intro values
      apply moves_andThen (moves_invokeAt engine function values (some location) _ _)
      intro value
      cases value with
      | some value => exact .refl
      | none => exact moves_failAt (some location) _ _ _

theorem moves_evaluateAll : ∀ (exprs : List Expr) (context : Context) (world : World),
    World.Moves world (engine.evaluateAll exprs context world).world
  | [], _, _ => .refl
  | expr :: rest, context, world => by
      apply moves_andThen (moves_evaluate expr context world)
      intro value
      apply moves_andThen (moves_evaluateAll rest _ _)
      intro values
      exact .refl

end

end Engine

end Switchboard
