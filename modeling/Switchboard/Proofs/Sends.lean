import Switchboard.Proofs.Loopback
import Switchboard.Proofs.Offline

/-!
Calls of `net.jms:send`, piece by piece.

A call that waits enters, and if its send is not settled at once it goes on when its flight lands;
what happens in between is up to others.  A call with a callback is started, and its task takes one
step or two.  For each of these pieces this says what the transport sees of it and what the caller
is told: a result tells that the message was recorded, a failed send that it was not.
-/

namespace Switchboard

/-! ## Pieces of a call that waits -/

/-- A call that waits for its send. -/
structure Waiting where
  name : String
  descriptor : Descriptor
  native : Action
  context : Context
  flight : Flight

/-- How far a call that waits comes by itself. -/
inductive Entered where
  | returned (outcome : Outcome (Option Value))
  | waiting (waiting : Waiting) (world : World)

/-- What the call `name` comes to once its send has ended. -/
def World.handBack (world : World) (descriptor : Descriptor) (native : Action) (name : String)
    (context : Context) (ending : SendEnd) : Outcome (Option Value) :=
  let (answer, world) := world.conclude native name ending
  descriptor.handOver name answer context world

/-- What a call that waits comes to when its flight lands. -/
def Waiting.land (waiting : Waiting) (world : World) : Outcome (Option Value) :=
  let (ending, world) := world.land waiting.flight
  world.handBack waiting.descriptor waiting.native waiting.name waiting.context ending

namespace Engine

/-- Call `name` and go on until the result is there or the send is in flight. -/
def enter (engine : Engine) (name : String) (arguments : List Value) (context : Context)
    (world : World) : Entered :=
  let world := world.note (.invoked .blocking name arguments)
  match engine.registry.check .blocking name arguments with
  | .error fault => .returned (.failIn name fault context world)
  | .ok (descriptor, .function native) =>
      let world := world.emit (.ofDispatch name context.location?)
      let (answer, context, world) := world.execute native name context arguments
      .returned (descriptor.handOver name answer context world)
  | .ok (descriptor, .action native connector) =>
      let world := world.emit (.ofDispatch name context.location?)
      match world.prepare native name connector context arguments with
      | (.error halt, world) => .returned (descriptor.handOver name (.error halt) context world)
      | (.ok request, world) =>
          match world.launch engine.config.transportTimeout connector.family request with
          | (.settled ending, world) =>
              .returned (world.handBack descriptor native name context ending)
          | (.flying flight, world) =>
              .waiting ⟨name, descriptor, native, context, flight⟩ world

/-- A call is its pieces with the waiting in between. -/
theorem invoke_eq (engine : Engine) (name : String) (arguments : List Value) (context : Context)
    (world : World) :
    engine.invoke name arguments context world =
      match engine.enter name arguments context world with
      | .returned outcome => outcome
      | .waiting waiting world => waiting.land (world.waitUntil waiting.flight.due) := by
  simp only [invoke, enter]
  rcases engine.registry.check .blocking name arguments with fault | ⟨descriptor, native | native⟩
  · rfl
  · rfl
  · next connector =>
    simp only [World.runTarget, World.perform, World.sendAndWait]
    rcases World.prepare _ native name connector context arguments with ⟨halt | request, prepared⟩
    · rfl
    · dsimp only
      rcases prepared.launch _ connector.family request with ⟨ending | flight, launched⟩
      · rfl
      · rfl

end Engine

/-! ## What a call adds -/

/-- The transport was called and has recorded so many times more. -/
structure Loopback.Adds (before after : Loopback) (arrivals records : Nat) : Prop where
  calls : after.calls = before.calls + arrivals
  sent : after.sent.length = before.sent.length + records

theorem Loopback.Adds.none (transport : Loopback) : transport.Adds transport 0 0 :=
  ⟨rfl, rfl⟩

/-- What a caller is told agrees with what the call added: a value is `true` for one record, a
failed send got to the transport and was not recorded, any other failure did not get there. -/
def Agrees : Except (Halt Failure) (Option Value) → Nat → Nat → Prop
  | .ok value, arrivals, records => value = some (.boolean true) ∧ arrivals = 1 ∧ records = 1
  | .error (.failed failure), arrivals, records =>
      arrivals = (if failure.kind = .connectorExecutionFailure then 1 else 0) ∧ records = 0
  | .error .panicked, arrivals, records => arrivals = 1 ∧ records = 0

/-- The caller is told that the transport is closed. -/
def TellsClosed (result : Except (Halt Failure) (Option Value)) : Prop :=
  ∃ failure, result = .error (.failed failure) ∧
    failure.fault = .connectorExecutionFailure Jms.action .closed

namespace Loopback

/-- A piece that does not end its call.  It may bring the send to the transport, but not to a closed
one. -/
structure Passes (before after : Loopback) (arrivals : Nat) : Prop where
  adds : before.Adds after arrivals 0
  closed : before.closed = true → arrivals = 0

/-- A piece that ends its call, of which `arrived` sends had got to the transport before. -/
def Settles (arrived : Nat) (before after : Loopback)
    (result : Except (Halt Failure) (Option Value)) : Prop :=
  ∃ arrivals records, before.Adds after arrivals records ∧
    Agrees result (arrived + arrivals) records ∧
    (before.closed = true → arrivals = 0 ∨ TellsClosed result)

theorem Passes.none (transport : Loopback) : transport.Passes transport 0 :=
  ⟨.none transport, fun _ => rfl⟩

theorem Passes.ofOpen {before after : Loopback} (hcalls : after.calls = before.calls + 1)
    (hsent : after.sent = before.sent) (hopen : before.closed = false) :
    before.Passes after 1 := by
  refine ⟨⟨hcalls, by rw [hsent]; rfl⟩, ?_⟩
  intro hclosed
  rw [hopen] at hclosed
  cases hclosed

theorem settles_refused {before after : Loopback} (hafter : after = before) {fault : Fault}
    (h : fault.kind ≠ .connectorExecutionFailure) {failure : Failure}
    (hfailure : failure.fault = fault) : Settles 0 before after (.error (.failed failure)) := by
  have hkind : failure.kind ≠ .connectorExecutionFailure := by
    simp only [Failure.kind]
    rw [hfailure]
    exact h
  rw [hafter]
  refine ⟨0, 0, .none before, ⟨?_, rfl⟩, fun _ => .inl rfl⟩
  rw [if_neg hkind]

end Loopback

/-! ## What a caller is told -/

/-- What a caller may be told of a send that ended so.  A panic is passed on to a caller who waits,
and is a failure for a callback. -/
inductive Told (name : String) : SendEnd → Except (Halt Failure) (Option Value) → Prop
  | accepted (reply : Reply) : Told name (.reply reply) (.ok (some (.boolean reply.accepted)))
  | failed {fault : TransportFault} {failure : Failure}
      (hfault : failure.fault = .connectorExecutionFailure name fault) :
      Told name (.fault fault) (.error (.failed failure))
  | panicked : Told name .panicked (.error .panicked)
  | guarded {failure : Failure}
      (hfault : failure.fault = .connectorExecutionFailure name .panicked) :
      Told name .panicked (.error (.failed failure))

theorem agrees_of_fault {name : String} {fault : TransportFault} {failure : Failure}
    (h : failure.fault = .connectorExecutionFailure name fault) :
    Agrees (.error (.failed failure)) 1 0 := by
  have hkind : failure.kind = .connectorExecutionFailure := by
    simp only [Failure.kind]
    rw [h]
    rfl
  refine ⟨?_, rfl⟩
  rw [if_pos hkind]

namespace Told

variable {result : Except (Halt Failure) (Option Value)} {before after : Loopback}
  {ending : SendEnd}

/-- Whoever is told how a send ended is told what the transport recorded of it. -/
theorem agrees {name : String} (htold : Told name ending result)
    (hends : before.Ends after ending) :
    ∃ records, after.sent.length = before.sent.length + records ∧ Agrees result 1 records := by
  cases hends with
  | accepted reply record haccepted hsent =>
      cases htold
      refine ⟨1, ?_, ?_, rfl, rfl⟩
      · rw [hsent, List.length_append, List.length_singleton]
      · rw [haccepted]
  | failed fault hsent =>
      cases htold with
      | failed hfault => exact ⟨0, by rw [hsent]; rfl, agrees_of_fault hfault⟩
  | panicked hsent =>
      cases htold with
      | panicked => exact ⟨0, by rw [hsent]; rfl, rfl, rfl⟩
      | guarded hfault => exact ⟨0, by rw [hsent]; rfl, agrees_of_fault hfault⟩

theorem tellsClosed (htold : Told Jms.action (.fault .closed) result) : TellsClosed result := by
  cases htold with
  | failed hfault => exact ⟨_, rfl, hfault⟩

theorem settles_arrival (htold : Told Jms.action ending result)
    (hreceives : before.Receives after (.settled ending))
    (hcalls : after.calls = before.calls + 1) : Loopback.Settles 0 before after result := by
  cases hreceives with
  | settled hends hclosed =>
      obtain ⟨records, hsent, hagrees⟩ := htold.agrees hends
      refine ⟨1, records, ⟨hcalls, hsent⟩, hagrees, ?_⟩
      intro h
      rw [hclosed h] at htold
      exact .inr htold.tellsClosed

theorem settles_landing {name : String} (htold : Told name ending result)
    (hends : before.Ends after ending) (hcalls : after.calls = before.calls) :
    Loopback.Settles 1 before after result := by
  obtain ⟨records, hsent, hagrees⟩ := htold.agrees hends
  exact ⟨0, records, ⟨hcalls, hsent⟩, hagrees, fun _ => .inl rfl⟩

end Told

/-- What a callback was given, as what a caller who waits would be told. -/
def Delivery.result (delivery : Delivery) : Except (Halt Failure) (Option Value) :=
  match delivery.outcome with
  | .ok value => .ok value
  | .error failure => .error (.failed failure)

/-! ## `net.jms:send` -/

namespace Jms

/-- How `net.jms:send` is described. -/
def descriptor : Descriptor where
  name := spec.qualifiedName
  params := [⟨"connector", .connector⟩, ⟨"destinationName", .string⟩, ⟨"msgType", .string⟩,
    ⟨"m", .message⟩]
  returns := some .boolean
  isPublic := true
  kind := .action family .both

/-- How `net.jms:send` is registered. -/
def entry : Entry := ⟨descriptor, .action send⟩

theorem describe_send : Contribution.describe (.action send) = .ok descriptor := by
  have hname : send.spec.qualifiedName.isWellFormed = true := by decide +kernel
  have hconnector : ValueType.ofName? "connector" = some .connector := by decide +kernel
  have hstring : ValueType.ofName? "string" = some .string := by decide +kernel
  have hmessage : ValueType.ofName? "message" = some .message := by decide +kernel
  have hboolean : ValueType.ofName? "boolean" = some .boolean := by decide +kernel
  have hparams (display : String) :
      Contribution.resolveParams display send.spec.params = .ok descriptor.params := by
    simp only [send, spec, Contribution.resolveParams, Contribution.resolveType, hconnector,
      hstring, hmessage]
    rfl
  have hreturns (display : String) :
      Contribution.resolveReturns display send.spec.returns = .ok descriptor.returns := by
    simp only [send, spec, Contribution.resolveReturns, Contribution.resolveType, hboolean]
    rfl
  simp only [Contribution.describe, Contribution.spec, hname, hparams, hreturns]
  rfl

end Jms

/-- What `net.jms:send` makes of the end of its send. -/
def SendEnd.answer (name : String) : SendEnd → Answer (Option Value)
  | .reply answer => .ok (some (.boolean answer.accepted))
  | .fault cause => .error (.failed (.connectorExecutionFailure name cause))
  | .panicked => .error .panicked

/-- A call of `net.jms:send` that waits for its send. -/
structure Waiting.IsSend (waiting : Waiting) : Prop where
  name : waiting.name = Jms.action
  descriptor : waiting.descriptor = Jms.descriptor
  native : waiting.native = Jms.send
  flight : waiting.flight.IsLooped

/-- What a task of `net.jms:send` has still to do when so many of its sends have got to the
transport. -/
inductive Work.IsSend : Work → Nat → Prop
  | sending (limit : Millis) (request : Request) :
      IsSend (.sending Jms.send Jms.family limit request) 0
  | flying {flight : Flight} (hflight : flight.IsLooped) : IsSend (.flying Jms.send flight) 1

/-- A task of a call of `net.jms:send`. -/
structure Task.IsSend (task : Task) (arrived : Nat) : Prop where
  name : task.name = Jms.action
  descriptor : task.descriptor = Jms.descriptor
  work : task.work.IsSend arrived

namespace World

variable {world : World}

theorem conclude_send (world : World) (name : String) (ending : SendEnd) :
    (world.conclude Jms.send name ending).1 = ending.answer name := by
  cases ending <;> rfl

theorem transports_conclude (world : World) (native : Action) (name : String)
    (ending : SendEnd) :
    (world.conclude native name ending).2.transports = world.transports := by
  cases ending <;> rfl

theorem transports_handOver (descriptor : Descriptor) (name : String)
    (answer : Answer (Option Value)) (context : Context) (world : World) :
    (descriptor.handOver name answer context world).world.transports = world.transports := by
  simp only [Descriptor.handOver]
  split
  · split <;> rfl
  · rfl
  · rfl

theorem changes_handBack (world : World) (descriptor : Descriptor) (native : Action)
    (name : String) (context : Context) (ending : SendEnd) :
    Changes world (world.handBack descriptor native name context ending).world := by
  have hconclude := changes_conclude world native name ending
  exact hconclude.trans (Engine.changes_handOver descriptor name _ context _)

theorem loopback_handBack (world : World) (descriptor : Descriptor) (native : Action)
    (name : String) (context : Context) (ending : SendEnd) :
    (world.handBack descriptor native name context ending).world.loopback = world.loopback := by
  have hconclude := transports_conclude world native name ending
  exact loopback_congr ((transports_handOver descriptor name _ context _).trans hconclude)

/-- A caller who waits is told how the send ended. -/
theorem handBack_told (world : World) (name : String) (context : Context) (ending : SendEnd) :
    Told name ending (world.handBack Jms.descriptor Jms.send name context ending).result := by
  simp only [handBack]
  rw [conclude_send]
  cases ending with
  | reply reply => exact .accepted reply
  | fault fault => exact .failed rfl
  | panicked => exact .panicked

/-- A task is settled by a delivery that tells how its send ended. -/
theorem settleSend_told (world : World) {task : Task}
    (hdescriptor : task.descriptor = Jms.descriptor) (ending : SendEnd) :
    ∃ before outcome, world.settleSend task Jms.send ending =
        before.deliver task.ticket task.context outcome ∧
      Changes world before ∧ before.loopback = world.loopback ∧
      Told task.name ending (Delivery.result ⟨task.ticket, task.context, outcome⟩) := by
  have hconclude := changes_conclude world Jms.send task.name ending
  have hloopback := loopback_congr (transports_conclude world Jms.send task.name ending)
  cases ending with
  | reply reply =>
      simp only [settleSend, settle]
      rw [hdescriptor]
      exact ⟨_, .ok (some (.boolean reply.accepted)), rfl, hconclude, hloopback,
        .accepted reply⟩
  | fault fault =>
      exact ⟨_, .error _, rfl, hconclude.trans (changes_reportIn _ _ _ _), hloopback, .failed rfl⟩
  | panicked =>
      exact ⟨_, .error _, rfl, hconclude.trans (changes_reportIn _ _ _ _), hloopback, .guarded rfl⟩

/-- What goes wrong while a call is validated has not reached the transport. -/
theorem validate_send (world : World) (arguments : List Value) :
    ∃ after, Changes world after ∧ after.transports = world.transports ∧
      (world.validate Jms.send Jms.action arguments = (.ok (), after) ∨
        ∃ fault, fault.kind ≠ .connectorExecutionFailure ∧
          world.validate Jms.send Jms.action arguments = (.error (.failed fault), after)) := by
  have hchanges := changes_validate world Jms.send Jms.action arguments
  refine ⟨_, hchanges, rfl, ?_⟩
  have hanswer : (world.validate Jms.send Jms.action arguments).1 =
    .ofChecked (Jms.validate arguments) := rfl
  rcases hvalidate : Jms.validate arguments with fault | ⟨⟩
  · rw [hvalidate] at hanswer
    exact .inr ⟨fault, Offline.validate arguments fault hvalidate, Prod.ext hanswer rfl⟩
  · rw [hvalidate] at hanswer
    exact .inl (Prod.ext hanswer rfl)

/-- What goes wrong while a request is prepared has not reached the transport. -/
theorem prepare_send (world : World) (connector : Connector) (context : Context)
    (arguments : List Value) :
    ∃ after, Changes world after ∧ after.transports = world.transports ∧
      ((∃ request, world.prepare Jms.send Jms.action connector context arguments =
          (.ok request, after)) ∨
        ∃ fault, fault.kind ≠ .connectorExecutionFailure ∧
          world.prepare Jms.send Jms.action connector context arguments =
            (.error (.failed fault), after)) := by
  have hchanges := changes_prepare world Jms.send Jms.action connector context arguments
  refine ⟨_, hchanges, rfl, ?_⟩
  have hanswer : (world.prepare Jms.send Jms.action connector context arguments).1 =
    (Answer.ofChecked (Jms.prepare world.store arguments)).map fun request =>
      { request with properties := mergeProperties connector.properties request.properties } := rfl
  rcases hprepare : Jms.prepare world.store arguments with fault | request
  · rw [hprepare] at hanswer
    exact .inr ⟨fault, Offline.prepare world.store arguments fault hprepare,
      Prod.ext hanswer rfl⟩
  · rw [hprepare] at hanswer
    exact .inl ⟨_, Prod.ext hanswer rfl⟩

end World

/-! ## What the pieces add -/

/-- A flight that lands settles the call that waited for it. -/
theorem Waiting.IsSend.land_settles {waiting : Waiting} (hwaiting : waiting.IsSend) {world : World}
    (hlooped : world.IsLooped) :
    World.Changes world (waiting.land world).world ∧
      Loopback.Settles 1 world.loopback (waiting.land world).world.loopback
        (waiting.land world).result := by
  have hland : World.Changes world (world.land waiting.flight).2 := .single (.land world _)
  obtain ⟨hends, hcalls⟩ := World.land_ends hlooped hwaiting.flight
  refine ⟨hland.trans (World.changes_handBack ..), ?_⟩
  simp only [Waiting.land]
  rw [World.loopback_handBack, hwaiting.descriptor, hwaiting.native]
  exact (World.handBack_told _ waiting.name waiting.context _).settles_landing hends hcalls

/-- What entering a call of `net.jms:send` comes to. -/
inductive Entered.IsSend (world : World) : Entered → Prop
  | returned {outcome : Outcome (Option Value)} (hchanges : World.Changes world outcome.world)
      (hsettles : Loopback.Settles 0 world.loopback outcome.world.loopback outcome.result) :
      IsSend world (.returned outcome)
  | waiting {waiting : Waiting} {after : World} (hchanges : World.Changes world after)
      (hsend : waiting.IsSend) (hpasses : world.loopback.Passes after.loopback 1) :
      IsSend world (.waiting waiting after)

/-- What starting a call of `net.jms:send` comes to. -/
inductive Started.IsSend (ticket : Nat) (world : World) : Started × World → Prop
  | delivered {before : World} {context : Context} {outcome : Except Failure (Option Value)}
      (hchanges : World.Changes world before)
      (hsettles : Loopback.Settles 0 world.loopback before.loopback
        (Delivery.result ⟨ticket, context, outcome⟩)) :
      IsSend ticket world (.delivered, before.deliver ticket context outcome)
  | spawned {before : World} {task : Task} (hchanges : World.Changes world before)
      (hloopback : before.loopback = world.loopback) (hticket : task.ticket = ticket)
      (hsend : task.IsSend 0) : IsSend ticket world (.spawned, before.spawn task)

theorem Started.IsSend.after {ticket : Nat} {world between : World} {began : Started × World}
    (hchanges : World.Changes world between) (hloopback : between.loopback = world.loopback)
    (h : Started.IsSend ticket between began) : Started.IsSend ticket world began := by
  cases h with
  | delivered hbetween hsettles =>
      rw [hloopback] at hsettles
      exact .delivered (hchanges.trans hbetween) hsettles
  | spawned hbetween hkept hticket hsend =>
      exact .spawned (hchanges.trans hbetween) (hkept.trans hloopback) hticket hsend

theorem Started.IsSend.refused {ticket : Nat} {context : Context} {world after : World}
    (hchanges : World.Changes world after) (htransports : after.transports = world.transports)
    {fault : Fault} (hoffline : fault.kind ≠ .connectorExecutionFailure) :
    Started.IsSend ticket world
      (.delivered, after.deliverFault ticket Jms.action context fault) := by
  have hreport := World.changes_reportIn after context Jms.action fault
  exact .delivered (hchanges.trans hreport)
    (Loopback.settles_refused (World.loopback_congr htransports) hoffline rfl)

/-- What a step of a task of `net.jms:send` comes to. -/
inductive Task.StepIsSend (task : Task) (arrived : Nat) (world : World) :
    Option Task × World → Prop
  | left {left : Task} {arrivals : Nat} {after : World} (hchanges : World.Changes world after)
      (hpasses : world.loopback.Passes after.loopback arrivals)
      (hticket : left.ticket = task.ticket) (hsend : left.IsSend (arrived + arrivals)) :
      StepIsSend task arrived world (some left, after)
  | delivered {before : World} {context : Context} {outcome : Except Failure (Option Value)}
      (hchanges : World.Changes world before)
      (hsettles : Loopback.Settles arrived world.loopback before.loopback
        (Delivery.result ⟨task.ticket, context, outcome⟩)) :
      StepIsSend task arrived world (none, before.deliver task.ticket context outcome)

namespace World

theorem startAction_isSend (world : World) (limit : Millis) (ticket : Nat)
    (connector : Connector) (hfamily : connector.family = Jms.family) (arguments : List Value)
    (context : Context) :
    Started.IsSend ticket world (world.startAction limit ticket Jms.action Jms.descriptor Jms.send
      connector arguments context) := by
  simp only [startAction]
  obtain ⟨validated, hvalidated, htransports, hvalidate | ⟨fault, hoffline, hvalidate⟩⟩ :=
    world.validate_send arguments
  · rw [hvalidate]
    dsimp only
    obtain ⟨prepared, hchanges, hkept, ⟨request, hprepare⟩ | ⟨fault, hoffline, hprepare⟩⟩ :=
      validated.prepare_send connector context arguments
    · rw [hprepare]
      have hprepared := (hvalidated.trans hchanges).tail (.complete prepared Jms.action)
      refine .spawned hprepared (loopback_congr (hkept.trans htransports)) rfl ⟨rfl, rfl, ?_⟩
      rw [hfamily]
      exact .sending limit request
    · rw [hprepare]
      exact .refused (hvalidated.trans hchanges) (hkept.trans htransports) hoffline
  · rw [hvalidate]
    exact .refused hvalidated htransports hoffline

end World

/-- The first step of a task brings its send to the transport, and a later one lands it. -/
theorem Task.IsSend.step {task : Task} {arrived : Nat} (htask : task.IsSend arrived)
    {world : World} (hlooped : world.IsLooped) :
    task.StepIsSend arrived world (task.step world) := by
  have hwork := htask.work
  simp only [Task.step]
  generalize task.work = work at hwork ⊢
  cases hwork with
  | sending limit request =>
      dsimp only
      have hlaunch : World.Changes world (world.launch limit Jms.family request).2 :=
        .single (.launch world limit Jms.family request)
      obtain ⟨hreceives, hcalls⟩ := World.launch_receives hlooped limit request
      generalize world.launch limit Jms.family request = launch at *
      rcases launch with ⟨ending | flight, launched⟩
      · obtain ⟨before, outcome, hsettle, hchanges, hloopback, htold⟩ :=
          launched.settleSend_told htask.descriptor ending
        rw [htask.name] at htold
        dsimp only
        rw [hsettle]
        refine .delivered (hlaunch.trans hchanges) ?_
        rw [hloopback]
        exact htold.settles_arrival hreceives hcalls
      · cases hreceives with
        | flying hflight hsent hopen =>
            exact .left hlaunch (Loopback.Passes.ofOpen hcalls hsent hopen) rfl
              ⟨htask.name, htask.descriptor, .flying hflight⟩
  | flying hflight =>
      rename_i flight
      dsimp only
      by_cases hdue : flight.due ≤ world.now
      · have hland : World.Changes world (world.land flight).2 := .single (.land world flight)
        obtain ⟨hends, hcalls⟩ := World.land_ends hlooped hflight
        obtain ⟨before, outcome, hsettle, hchanges, hloopback, htold⟩ :=
          (world.land flight).2.settleSend_told htask.descriptor (world.land flight).1
        rw [if_pos hdue, hsettle]
        refine .delivered (hland.trans hchanges) ?_
        rw [hloopback]
        exact htold.settles_landing hends hcalls
      · rw [if_neg hdue]
        exact .left .refl (.none _) rfl htask

namespace Engine

variable {engine : Engine} {world : World}
  (hregistered : engine.registry.find? Jms.action = some Jms.entry)

include hregistered

/-- A call of `net.jms:send` is refused for a reason of its own, or it has a connector of the
family. -/
theorem check_send (mode : CallMode) (arguments : List Value) :
    (∃ fault, fault.kind ≠ .connectorExecutionFailure ∧
      engine.registry.check mode Jms.action arguments = .error fault) ∨
    ∃ connector, connector.family = Jms.family ∧
      engine.registry.check mode Jms.action arguments =
        .ok (Jms.descriptor, .action Jms.send connector) := by
  rcases hcheck : engine.registry.check mode Jms.action arguments with
    fault | ⟨descriptor, target⟩
  · exact .inl ⟨fault, Offline.check _ mode Jms.action arguments fault hcheck, rfl⟩
  · obtain ⟨entry, hadmits, rfl⟩ := Registry.check_eq_ok_iff.1 hcheck
    obtain rfl := Option.some.inj (hregistered.symm.trans hadmits.found)
    rcases Contribution.resolveTarget_eq_ok hadmits.target with
      ⟨native, hnative, -⟩ | ⟨native, connector, hnative, rfl, hconnector⟩
    · cases hnative
    · cases hnative
      exact .inr ⟨connector, (Action.resolveConnector_eq_ok hconnector).2, rfl⟩

/-- Starting a call of `net.jms:send` does not bring it to the transport yet. -/
theorem start_isSend (ticket : Nat) (arguments : List Value) (context : Context)
    (world : World) :
    Started.IsSend ticket world (engine.start ticket Jms.action arguments context world) := by
  have hnote : World.Changes world (world.note (.invoked .callback Jms.action arguments)) :=
    .single (.note world _)
  simp only [start]
  rcases check_send hregistered .callback arguments with
    ⟨fault, hoffline, hcheck⟩ | ⟨connector, hfamily, hcheck⟩
  · rw [hcheck]
    exact .refused hnote rfl hoffline
  · rw [hcheck]
    have hemit := hnote.tail (.emit _ (.ofDispatch Jms.action context.location?))
    exact .after hemit rfl (World.startAction_isSend _ _ ticket connector hfamily arguments context)

theorem enter_isSend (hlooped : world.IsLooped) (arguments : List Value) (context : Context) :
    (engine.enter Jms.action arguments context world).IsSend world := by
  have hnote : World.Changes world (world.note (.invoked .blocking Jms.action arguments)) :=
    .single (.note world _)
  simp only [enter]
  rcases check_send hregistered .blocking arguments with
    ⟨fault, hoffline, hcheck⟩ | ⟨connector, hfamily, hcheck⟩
  · rw [hcheck]
    exact .returned (hnote.trans (changes_failIn Jms.action fault context _))
      (Loopback.settles_refused rfl hoffline rfl)
  · rw [hcheck]
    dsimp only
    have hemit := hnote.tail (.emit _ (.ofDispatch Jms.action context.location?))
    obtain ⟨prepared, hchanges, htransports, ⟨request, hprepare⟩ | ⟨fault, hoffline, hprepare⟩⟩ :=
      World.prepare_send ((world.note (.invoked .blocking Jms.action arguments)).emit
        (.ofDispatch Jms.action context.location?)) connector context arguments
    · have hprepared := hemit.trans hchanges
      have hloopback : prepared.loopback = world.loopback := World.loopback_congr htransports
      obtain ⟨hreceives, hcalls⟩ := World.launch_receives (hlooped.congr htransports)
        engine.config.transportTimeout request
      have hlaunch := hprepared.tail
        (.launch prepared engine.config.transportTimeout connector.family request)
      rw [hprepare]
      rw [hfamily] at hlaunch ⊢
      rw [hloopback] at hreceives hcalls
      dsimp only
      generalize prepared.launch engine.config.transportTimeout Jms.family request = launch at *
      rcases launch with ⟨ending | flight, launched⟩
      · refine .returned (hlaunch.trans (World.changes_handBack ..)) ?_
        rw [World.loopback_handBack]
        exact (World.handBack_told launched Jms.action context ending).settles_arrival hreceives
          hcalls
      · cases hreceives with
        | flying hflight hsent hopen =>
            exact .waiting hlaunch ⟨rfl, rfl, rfl, hflight⟩ (.ofOpen hcalls hsent hopen)
    · rw [hprepare]
      have hloopback := World.loopback_congr htransports
      exact .returned ((hemit.trans hchanges).trans (changes_failIn Jms.action fault context _))
        (Loopback.settles_refused hloopback hoffline rfl)

end Engine

end Switchboard
