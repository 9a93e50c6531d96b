import Switchboard.Proofs.Callback
import Switchboard.Proofs.Courses
import Switchboard.Proofs.Trail

/-!
What can go wrong before a send, and what becomes of the callback.

In callback mode an action validates and prepares in the caller, and the send is left to a task.  A
fault on the way is given to the callback at once, and a request that is ready leaves a task behind
that will make it fire, panic or not.  A panic on the way is not caught: the caller does not go on,
nothing is left behind, and the callback never fires.
-/

namespace Switchboard

namespace World

/-- What an action does in the caller: it validates the arguments, and then it prepares its
request. -/
def ready (world : World) (native : Action) (name : String) (connector : Connector)
    (context : Context) (arguments : List Value) : Answer Request × World :=
  match world.validate native name arguments with
  | (.error halt, world) => (.error halt, world)
  | (.ok (), world) => world.prepare native name connector context arguments

/-- A call has come to its end without a task.  Its callback has fired with this failure, the
context that came with it and no other, and will not fire again, or it never fires.  The failure was
recorded, and no transport has heard of the call. -/
structure StopsAtOnce (ticket : Nat) (context : Context) (fired : Option Failure)
    (world next : World) : Prop where
  fires : ∀ later, Runs ticket next later → later.tasksOf ticket = [] ∧
    later.deliveriesOf ticket = (fired.map fun failure => ⟨ticket, context, .error failure⟩).toList
  recorded : next.diagnostics.filter Diagnostic.isFailure =
    world.diagnostics.filter Diagnostic.isFailure ++ (fired.map Diagnostic.ofFailure).toList
  untouched : next.transports = world.transports

variable {world next : World} {ticket : Nat} {name : String} {arguments : List Value}
  {context : Context} {native : Action} {connector : Connector}

/-! ## In the caller -/

/-- Starting an action makes it ready, and then there is an outcome, a panic, or a task. -/
theorem startAction_eq (world : World) (limit : Millis) (ticket : Nat) (name : String)
    (descriptor : Descriptor) (native : Action) (connector : Connector) (arguments : List Value)
    (context : Context) :
    world.startAction limit ticket name descriptor native connector arguments context =
      match world.ready native name connector context arguments with
      | (.error (.failed fault), last) =>
          (.delivered, last.deliverFault ticket name context fault)
      | (.error .panicked, last) => (.panicked, last)
      | (.ok request, last) =>
          (.spawned, (last.newCompletion name).2.spawn ⟨ticket, name, descriptor,
            context.setCompletion (last.newCompletion name).1,
            .sending native connector.family limit request⟩) := by
  rcases hvalidate : world.validate native name arguments with ⟨⟨fault | _⟩ | ⟨⟩, validated⟩
  · simp only [startAction, ready, hvalidate]
  · simp only [startAction, ready, hvalidate]
  · rcases hprepare : validated.prepare native name connector context arguments with
      ⟨⟨fault | _⟩ | request, prepared⟩ <;>
      simp only [startAction, ready, hvalidate, hprepare]

theorem works_ready (world : World) (native : Action) (name : String) (connector : Connector)
    (context : Context) (arguments : List Value) :
    ∃ events, Works world (world.ready native name connector context arguments).2 events ∧
      (world.ready native name connector context arguments).2.transports = world.transports := by
  have hvalidate := Works.validate world native name arguments
  have hsame : (world.validate native name arguments).2.transports = world.transports := rfl
  simp only [ready]
  generalize world.validate native name arguments = validation at hvalidate hsame ⊢
  rcases validation with ⟨halt | ⟨⟩, validated⟩
  · exact ⟨_, hvalidate, hsame⟩
  · exact ⟨_, hvalidate.trans (.prepare validated native name connector context arguments), hsame⟩

/-! ## Afterwards -/

/-- Where a ticket has no task, nothing more happens to it. -/
theorem Runs.eq_of_idle {later : World} (hruns : Runs ticket next later)
    (hidle : next.tasksOf ticket = []) :
    later.tasksOf ticket = [] ∧ later.deliveriesOf ticket = next.deliveriesOf ticket := by
  obtain ⟨events, records, htrail⟩ := hruns.exists_trail
  exact (htrail.eq_nil hidle).2.2

section Stops

variable {events : List Event}
  (hworks : Works (world.admitted .callback name arguments context) next events)
  (hsame : next.transports = world.transports) (hfresh : world.entrusted ticket = 0)

include hworks hsame hfresh

/-- A panic in the caller is the end of the call, and its callback is lost. -/
theorem stopsAtOnce_of_panic : StopsAtOnce ticket context none world next := by
  obtain ⟨htasks, hdeliveries⟩ := hworks.changes.tickets ticket
  obtain ⟨hnoTasks, hnoDeliveries⟩ := Engine.tickets_of_entrusted_eq_zero hfresh
  refine ⟨?_, ?_, hsame⟩
  · intro later hruns
    obtain ⟨hgone, hkept⟩ := hruns.eq_of_idle (htasks.trans hnoTasks)
    exact ⟨hgone, hkept.trans (hdeliveries.trans hnoDeliveries)⟩
  · rw [hworks.diagnostics]
    exact List.filter_append world.diagnostics _

/-- A fault in the caller is delivered, and its callback fires once. -/
theorem stopsAtOnce_of_fault (fault : Fault) :
    StopsAtOnce ticket context (some ((context.fail fault).inFunction name)) world
      (next.deliverFault ticket name context fault) := by
  have hbefore := stopsAtOnce_of_panic hworks hsame hfresh
  obtain ⟨hidle, hnone⟩ := hbefore.fires next .refl
  have hfired : (next.deliverFault ticket name context fault).deliveriesOf ticket =
      [⟨ticket, context, .error ((context.fail fault).inFunction name)⟩] := by
    refine (deliveriesOf_deliver _ ticket ticket context _).trans ?_
    rw [if_pos rfl]
    exact congrArg (· ++ _) hnone
  refine ⟨?_, ?_, hsame⟩
  · intro later hruns
    obtain ⟨hgone, hkept⟩ := hruns.eq_of_idle hidle
    exact ⟨hgone, hkept.trans hfired⟩
  · refine (List.filter_append next.diagnostics _).trans ?_
    rw [hbefore.recorded]
    exact congrArg (· ++ _) (List.append_nil _)

end Stops

end World

namespace Engine

variable {engine : Engine} {ticket : Nat} {name : String} {arguments : List Value}
  {context : Context} {world : World} {entry : Entry} {native : Action} {connector : Connector}

theorem start_of_admits
    (hadmits : engine.registry.Admits .callback name arguments entry (.action native connector)) :
    engine.start ticket name arguments context world =
      (world.admitted .callback name arguments context).startAction engine.config.transportTimeout
        ticket name entry.descriptor native connector arguments context := by
  simp only [start]
  rw [Registry.check_eq_ok_iff.2 ⟨entry, hadmits, rfl⟩]
  rfl

/-- What goes wrong with an action before its send reaches the callback unless it is a panic.  A
fault is delivered at once, with the context that came and once only, after it was recorded once and
without a transport hearing of the call.  Where the request is ready a task is left, and whatever it
runs into the callback fires once.  After a panic in the caller there is no task and the callback
never fires. -/
theorem callbacks_hear_of_all_but_panics_before_send
    (hadmits : engine.registry.Admits .callback name arguments entry (.action native connector))
    (hfresh : world.entrusted ticket = 0) :
    let began := engine.start ticket name arguments context world
    let answer := ((world.admitted .callback name arguments context).ready native name connector
      context arguments).1
    (∀ fault, answer = .error (.failed fault) → began.1 = .delivered ∧
      World.StopsAtOnce ticket context (some ((context.fail fault).inFunction name)) world
        began.2) ∧
    (answer = .error .panicked → began.1 = .panicked ∧
      World.StopsAtOnce ticket context none world began.2) ∧
    (∀ request, answer = .ok request → began.1 = .spawned ∧
      (∀ later, World.Runs ticket began.2 later →
        (later.tasksOf ticket).length + (later.deliveriesOf ticket).length = 1) ∧
      ((began.2.await ticket).deliveriesOf ticket).length = 1) := by
  intro began answer
  have hbegan : began = _ := (start_of_admits hadmits).trans (World.startAction_eq ..)
  have hbegins : engine.Begins ticket context world began :=
    begins_start engine ticket name arguments context world
  obtain ⟨events, hworks, hsame⟩ := (world.admitted .callback name arguments context).works_ready
    native name connector context arguments
  rcases hready : (world.admitted .callback name arguments context).ready native name connector
    context arguments with ⟨ready, last⟩
  have hanswer : answer = ready := congrArg Prod.fst hready
  rw [hready] at hbegan hworks hsame
  rw [hanswer]
  clear_value began
  rcases ready with ⟨fault | _⟩ | request
  · refine ⟨?_, nofun, nofun⟩
    rintro _ ⟨⟩
    rw [hbegan]
    exact ⟨rfl, World.stopsAtOnce_of_fault hworks hsame hfresh fault⟩
  · refine ⟨nofun, fun _ => ?_, nofun⟩
    rw [hbegan]
    exact ⟨rfl, World.stopsAtOnce_of_panic hworks hsame hfresh⟩
  · refine ⟨nofun, nofun, fun _ _ => ?_⟩
    have hspawned : began.1 = .spawned := by rw [hbegan]
    obtain ⟨howes, -⟩ := @Begins.owes engine ticket context world began (fun _ => True) hbegins
      (by rw [hspawned]; exact Started.noConfusion) hfresh trivial fun _ _ _ => trivial
    exact ⟨hspawned, fun later hruns => (hruns.owes howes).once, howes.await⟩

/-- An action that takes nothing but a connector and comes to this when it validates. -/
def hesitant (verdict : Answer Unit) : Action where
  spec := ⟨"lab", "leap", [("with", "connector")], none, true⟩
  family := "jms"
  modes := .both
  validate store _ := ⟨verdict, store⟩
  prepare store _ _ := ⟨.ok ⟨⟨.text, .text "", .empty⟩, .empty, false⟩, store⟩
  complete store _ := ⟨.ok none, store⟩

/-- An engine that can only call this action. -/
def hesitants (verdict : Answer Unit) : Engine where
  config := .default
  registry := ⟨[⟨⟨⟨"lab", "leap"⟩, [⟨"with", .connector⟩], none, true, .action "jms" .both⟩,
    .action (hesitant verdict)⟩]⟩
  operators := .standard

/-- The connector that such calls go through. -/
def hesitantConnector : Connector :=
  ⟨0, "orders", "jms", .empty⟩

theorem exists_admits_hesitant (verdict : Answer Unit) :
    ∃ entry, (hesitants verdict).registry.Admits .callback "lab:leap"
      [.connector hesitantConnector] entry (.action (hesitant verdict) hesitantConnector) := by
  obtain ⟨entry, hadmits, -⟩ := Registry.check_eq_ok_iff.1
    (rfl : (hesitants verdict).registry.check .callback "lab:leap" [.connector hesitantConnector] =
      .ok (⟨⟨"lab", "leap"⟩, [⟨"with", .connector⟩], none, true, .action "jms" .both⟩,
        .action (hesitant verdict) hesitantConnector))
  exact ⟨entry, hadmits⟩

/-- An action that rejects its arguments has its callback fire once. -/
theorem callbacks_hear_of_rejection :
    let fault := Fault.validationFailure "lab:leap" "not now"
    let engine := hesitants (.error (.failed fault))
    let world := World.start (.ofSlots 1)
    (∃ entry, engine.registry.Admits .callback "lab:leap" [.connector hesitantConnector] entry
        (.action (hesitant (.error (.failed fault))) hesitantConnector)) ∧
      world.entrusted 0 = 0 ∧
      World.StopsAtOnce 0 (.ofTrace "t") (some ⟨fault, none, some "lab:leap"⟩) world
        (engine.start 0 "lab:leap" [.connector hesitantConnector] (.ofTrace "t") world).2 := by
  intro fault engine world
  obtain ⟨entry, hadmits⟩ := exists_admits_hesitant (.error (.failed fault))
  exact ⟨⟨entry, hadmits⟩, rfl,
    ((callbacks_hear_of_all_but_panics_before_send hadmits rfl).1 fault rfl).2⟩

/-- An action that panics when it validates has passed every check, and its callback never fires. -/
theorem callback_is_lost_when_validation_panics :
    let engine := hesitants (.error .panicked)
    let world := World.start (.ofSlots 1)
    let began := engine.start 0 "lab:leap" [.connector hesitantConnector] (.ofTrace "t") world
    (∃ entry, engine.registry.Admits .callback "lab:leap" [.connector hesitantConnector] entry
        (.action (hesitant (.error .panicked)) hesitantConnector)) ∧
      (∀ later, World.Runs 0 began.2 later → later.deliveriesOf 0 = []) ∧
      began.2.diagnostics.filter Diagnostic.isFailure = [] ∧
      ∀ failure, ¬ World.StopsAtOnce 0 (.ofTrace "t") (some failure) world began.2 := by
  intro engine world began
  obtain ⟨entry, hadmits⟩ := exists_admits_hesitant (.error .panicked)
  have hlost : ∀ later, World.Runs 0 began.2 later → later.deliveriesOf 0 = [] := by
    intro later hruns
    exact (hruns.eq_of_idle rfl).2
  refine ⟨⟨entry, hadmits⟩, hlost, rfl, ?_⟩
  intro failure hstops
  have hfired := (hstops.fires began.2 .refl).2
  rw [hlost began.2 .refl] at hfired
  cases hfired

end Engine

end Switchboard
