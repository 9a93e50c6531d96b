import Switchboard.Proofs.Activity
import Switchboard.Proofs.Trail

/-!
A send with a callback keeps to what its message held when it was called.

The request is made before the call is left to its task: the body, the headers and the properties
are copied out of the store and the connector.  The task carries the request along, from its first
step to the landing of its flight, and nobody else touches the tasks of its ticket.  So when the
send is recorded, the record is of the request, whatever was done to the message meanwhile.
-/

namespace Switchboard

/-! ## What is asked for -/

/-- What a send with these arguments asks for while the messages are as in this store. -/
inductive Jms.Asks (store : Store) : List Value → Request → Prop
  | intro {connector : Connector} {destination kind : String} {id : MessageId}
      {body : EnvelopeBody} (hbody : Jms.body (store.read id) (.ofName kind) = .ok body) :
      Asks store [.connector connector, .string destination, .string kind, .message id]
        ⟨⟨.ofName kind, body, (store.read id).headers⟩,
          mergeProperties connector.properties
            ((Dict.empty.bind messageTypeProperty (MessageKind.ofName kind).name).bind
              destinationProperty destination),
          false⟩

/-- The records that a send of this request may leave. -/
inductive Request.IsRecorded (request : Request) : List RecordedSend → Prop
  | never : IsRecorded request []
  | once (messageId : String) :
      IsRecorded request [⟨messageId, request.envelope, request.properties⟩]

/-- What is still to do is to send this request with `net.jms:send`. -/
inductive Work.Brings (request : Request) : Work → Prop
  | sending (limit : Millis) : Brings request (.sending Jms.send Jms.family limit request)
  | flying {flight : Flight} (hfamily : flight.family = Jms.family)
      (hrequest : flight.request = request) : Brings request (.flying Jms.send flight)

/-! ## What a send records -/

namespace World

variable (world : World) (request : Request)

theorem records_comeThrough (transport : Loopback) :
    ∃ records, (world.comeThrough Jms.family transport request).2.loopback.sent =
        transport.sent ++ records ∧ request.IsRecorded records := by
  rw [(comeThrough_eq world transport request).2]
  simp only [Loopback.comeThrough]
  split
  · exact ⟨[], (List.append_nil _).symm, .never⟩
  · exact ⟨_, rfl, .once world.nextMessageId⟩

theorem records_land {flight : Flight} (hfamily : flight.family = Jms.family) :
    ∃ records, (world.land flight).2.loopback.sent = world.loopback.sent ++ records ∧
      flight.request.IsRecorded records := by
  have hnever : ∃ records, world.loopback.sent = world.loopback.sent ++ records ∧
      flight.request.IsRecorded records := ⟨[], (List.append_nil _).symm, .never⟩
  simp only [land]
  split
  · split
    · exact hnever
    · next transport _ htransport =>
      rw [hfamily] at htransport ⊢
      rw [(looped_of_find (find?_of_transport htransport)).2]
      exact records_comeThrough world flight.request transport
    · exact hnever
    · exact hnever
  · exact hnever

/-- How a request got to the transport: it is in flight and not recorded yet, or its send is over.
-/
inductive Launches (sent : List RecordedSend) : Launch × World → Prop
  | flying {flight : Flight} {after : World} (hfamily : flight.family = Jms.family)
      (hrequest : flight.request = request) (hsent : after.loopback.sent = sent) :
      Launches sent (.flying flight, after)
  | settled {ending : SendEnd} {after : World} {records : List RecordedSend}
      (hsent : after.loopback.sent = sent ++ records) (hrecords : request.IsRecorded records) :
      Launches sent (.settled ending, after)

theorem launches_takeOff {flight : Flight} (hfamily : flight.family = Jms.family)
    (hrequest : flight.request = request) :
    Launches request world.loopback.sent (world.takeOff flight) := by
  simp only [takeOff]
  split
  · obtain ⟨records, hsent, hrecords⟩ := records_land world hfamily
    rw [hrequest] at hrecords
    exact .settled hsent hrecords
  · exact .flying hfamily hrequest rfl

/-- Behind a peer there is no log. -/
theorem loopback_of_peer {world : World} {peer : Peer}
    (h : Entries.find? Jms.family world.transports = some (.peer peer)) :
    world.loopback = .ofProtocol Jms.family := by
  simp only [loopback]
  rw [h]

theorem launches_launch (limit : Millis) :
    Launches request world.loopback.sent (world.launch limit Jms.family request) := by
  simp only [launch]
  split
  · exact .settled (List.append_nil _).symm .never
  · next transport htransport =>
    have hloopback := (looped_of_find (find?_of_transport htransport)).2
    have hcounted : (world.setTransport Jms.family (.loopback transport.counted)).loopback =
        transport.counted := (IsLooped.setTransport world transport.counted).2
    have hsent : (world.setTransport Jms.family (.loopback transport.counted)).loopback.sent =
        world.loopback.sent := by
      rw [hcounted, hloopback]
      rfl
    rcases transport.arrive_cases with
      ⟨-, harrive⟩ | ⟨-, harrive | ⟨delay, harrive⟩ | harrive⟩
    · rw [harrive]
      exact .settled (hsent.trans (List.append_nil _).symm) .never
    · rw [harrive]
      exact .settled (hsent.trans (List.append_nil _).symm) .never
    · rw [harrive, ← hsent]
      exact launches_takeOff _ request rfl rfl
    · rw [harrive]
      obtain ⟨records, hrecorded, hrecords⟩ :=
        records_comeThrough world request transport.counted
      rw [hloopback]
      exact .settled hrecorded hrecords
  · next peer htransport =>
    have hset (after : Peer) :
        (world.setTransport Jms.family (.peer after)).loopback.sent = world.loopback.sent := by
      have hafter : Entries.find? Jms.family
          (world.setTransport Jms.family (.peer after)).transports = some (.peer after) := by
        have hbind := Entries.find?_bind Jms.family Jms.family (.peer after) world.transports
        rwa [if_pos rfl] at hbind
      rw [loopback_of_peer hafter, loopback_of_peer (find?_of_transport htransport)]
    split
    · exact .settled ((hset _).trans (List.append_nil _).symm) .never
    · rw [← hset { peer with seen := peer.seen ++ [request] }]
      exact launches_takeOff _ request rfl rfl

theorem transports_settleSend (task : Task) (native : Action) (ending : SendEnd) :
    (world.settleSend task native ending).transports = world.transports := by
  have hconclude := transports_conclude world native task.name ending
  simp only [settleSend]
  generalize world.conclude native task.name ending = concluded at hconclude ⊢
  simp only [settle]
  split
  · exact hconclude
  · split
    · exact hconclude
    · exact hconclude

end World

/-! ## A step of the task -/

/-- How a step has left the task of a send: it goes on and nothing is recorded yet, or it is gone.
-/
inductive Task.Leaves (request : Request) (sent : List RecordedSend) :
    Option Task × World → Prop
  | left {left : Task} {after : World} (hwork : left.work.Brings request)
      (hsent : after.loopback.sent = sent) : Leaves request sent (some left, after)
  | gone {after : World} {records : List RecordedSend}
      (hsent : after.loopback.sent = sent ++ records) (hrecords : request.IsRecorded records) :
      Leaves request sent (none, after)

theorem Task.leaves_step {task : Task} {request : Request} (hwork : task.work.Brings request)
    (world : World) : Task.Leaves request world.loopback.sent (task.step world) := by
  have hsettle (world : World) (ending : SendEnd) :
      (world.settleSend task Jms.send ending).loopback = world.loopback :=
    World.loopback_congr (world.transports_settleSend task Jms.send ending)
  have hbrings := hwork
  simp only [step]
  generalize task.work = work at hwork
  cases hwork with
  | sending limit =>
      have hlaunches := world.launches_launch request limit
      dsimp only
      generalize world.launch limit Jms.family request = launch at hlaunches ⊢
      cases hlaunches with
      | flying hfamily hrequest hsent => exact .left (.flying hfamily hrequest) hsent
      | settled hsent hrecords => exact .gone (by rw [hsettle, hsent]) hrecords
  | flying hfamily hrequest =>
      next flight =>
      dsimp only
      split
      · obtain ⟨records, hsent, hrecords⟩ := world.records_land hfamily
        rw [hrequest] at hrecords
        exact .gone (by rw [hsettle, hsent]) hrecords
      · exact .left hbrings rfl

/-! ## From the start to the record -/

namespace World

variable {world next : World} {ticket : Nat} {request : Request}
  {records more : List RecordedSend}

/-- The call of this ticket has its send still to make, as it was asked for, or it is over and has
left these records. -/
inductive Keeps (ticket : Nat) (request : Request) : List RecordedSend → World → Prop
  | pending {world : World} {task : Task} (htasks : world.tasksOf ticket = [task])
      (hwork : task.work.Brings request) : Keeps ticket request [] world
  | ended {world : World} {records : List RecordedSend} (htasks : world.tasksOf ticket = [])
      (hrecords : request.IsRecorded records) : Keeps ticket request records world

theorem Keeps.isRecorded (h : Keeps ticket request records world) :
    request.IsRecorded records := by
  cases h with
  | pending => exact .never
  | ended _ hrecords => exact hrecords

theorem Keeps.brings (h : Keeps ticket request records world) :
    ∀ task ∈ world.tasksOf ticket, task.work.Brings request := by
  intro task htask
  cases h with
  | pending hpending hwork =>
      rw [hpending] at htask
      rw [List.mem_singleton.1 htask]
      exact hwork
  | ended hended =>
      rw [hended] at htask
      cases htask

theorem Keeps.elsewhere (h : Keeps ticket request records world)
    (htasks : next.tasksOf ticket = world.tasksOf ticket) :
    Keeps ticket request (records ++ []) next := by
  rw [List.append_nil]
  cases h with
  | pending hpending hwork => exact .pending (htasks.trans hpending) hwork
  | ended hended hrecords => exact .ended (htasks.trans hended) hrecords

/-- What happens keeps the send as it was asked for. -/
theorem Happens.keeps (hhappens : Happens ticket world more next)
    (h : Keeps ticket request records world) : Keeps ticket request (records ++ more) next := by
  cases hhappens with
  | step before task after htasks hnext =>
      by_cases howner : task.ticket = ticket
      · obtain ⟨⟨others, rest, hsplit, hleft⟩, -⟩ := step_own htasks hnext howner
        rw [if_pos howner]
        cases h with
        | ended hended => exact absurd hended (tasksOf_ne_nil htasks howner)
        | @pending _ own hpending hwork =>
            -- The task is the only one of its ticket.
            rw [hpending] at hsplit
            rcases others with _ | ⟨other, others⟩
            · obtain ⟨rfl, rfl⟩ := List.cons.inj hsplit
              have hleaves := own.leaves_step hwork world
              have hsent : next.loopback.sent = (own.step world).2.loopback.sent := by
                rw [hnext]
                rfl
              clear hnext
              generalize own.step world = taken at hleaves hleft hsent
              cases hleaves with
              | left hcarries hkept =>
                  rw [added_eq ((hsent.trans hkept).trans (List.append_nil _).symm)]
                  exact .pending hleft hcarries
              | gone hrecorded hrecords =>
                  rw [added_eq (hsent.trans hrecorded)]
                  exact .ended hleft hrecords
            · simp at hsplit
      · rw [if_neg howner]
        exact h.elsewhere (step_others htasks hnext howner).1
  | quiet hchange => exact h.elsewhere (Changes.tickets (.single hchange) ticket).1
  | spawns task howner =>
      apply h.elsewhere
      rw [tasksOf_spawn, if_neg howner, List.append_nil]
  | turns => exact h.elsewhere rfl
  | registers hregisters =>
      obtain ⟨-, rfl⟩ := registerTransport_eq_ok hregisters
      exact h.elsewhere rfl
  | elsewhere htasks =>
      apply h.elsewhere
      simp only [tasksOf]
      rw [htasks]

theorem Unfolds.keeps (hunfolds : Unfolds ticket world more next)
    (h : Keeps ticket request records world) : Keeps ticket request (records ++ more) next := by
  induction hunfolds with
  | refl => exact h.elsewhere rfl
  | tail _ hhappens ih =>
      rw [← List.append_assoc]
      exact hhappens.keeps ih

end World

/-! ## The start -/

theorem Value.asString_eq_ok {value : Value} {text : String} (h : value.asString = .ok text) :
    value = .string text := by
  cases value with
  | string other => rw [Except.ok.inj h]
  | _ => cases h

theorem Value.asMessage_eq_ok {value : Value} {id : MessageId} (h : value.asMessage = .ok id) :
    value = .message id := by
  cases value with
  | message other => rw [Except.ok.inj h]
  | _ => cases h

namespace Jms

theorem asks_of_prepare {store : Store} {arguments : List Value} {sending : Request}
    {connector : Connector} (hconnector : arguments.head? = some (.connector connector))
    (h : prepare store arguments = .ok sending) :
    Asks store arguments
      { sending with properties := mergeProperties connector.properties sending.properties } := by
  simp only [prepare] at h
  split at h
  · next first destination kind message =>
    obtain rfl := Option.some.inj hconnector
    obtain ⟨destinationName, hdestination, h⟩ := Except.bind_eq_ok.1 h
    obtain ⟨kindName, hkind, h⟩ := Except.bind_eq_ok.1 h
    obtain ⟨id, hid, h⟩ := Except.bind_eq_ok.1 h
    obtain ⟨envelopeBody, hbody, hsending⟩ := Except.bind_eq_ok.1 h
    rw [Value.asString_eq_ok hdestination, Value.asString_eq_ok hkind, Value.asMessage_eq_ok hid]
    obtain rfl := Except.ok.inj hsending
    exact .intro hbody
  · cases h

end Jms

namespace World

variable {world : World} {arguments : List Value} {sending : Request}

theorem validate_send_of_ok (hvalidate : Jms.validate arguments = .ok ()) :
    (world.validate Jms.send Jms.action arguments).1 = .ok () :=
  congrArg Answer.ofChecked hvalidate

/-- The properties of the connector are added to what the action asks for. -/
theorem prepare_send_of_ok (hprepare : Jms.prepare world.store arguments = .ok sending)
    (connector : Connector) (context : Context) :
    (world.prepare Jms.send Jms.action connector context arguments).1 =
      .ok { sending with
        properties := mergeProperties connector.properties sending.properties } := by
  change (Answer.ofChecked (Jms.prepare world.store arguments)).map _ = _
  rw [hprepare]
  rfl

/-- The send is left to a task with the request in it. -/
theorem keeps_startAction {ticket : Nat} {connector : Connector}
    (hfamily : connector.family = Jms.family) (hvalidate : Jms.validate arguments = .ok ())
    (hprepare : Jms.prepare world.store arguments = .ok sending)
    (hfresh : world.tasksOf ticket = []) (limit : Millis) (context : Context) :
    ∃ started, world.startAction limit ticket Jms.action Jms.descriptor Jms.send connector
        arguments context = (.spawned, started) ∧
      Keeps ticket { sending with
        properties := mergeProperties connector.properties sending.properties } [] started := by
  have hvalidated := (changes_validate world Jms.send Jms.action arguments).tickets ticket
  have hstore : (world.validate Jms.send Jms.action arguments).2.store = world.store := rfl
  have hanswer := world.validate_send_of_ok hvalidate
  simp only [startAction]
  generalize world.validate Jms.send Jms.action arguments = validation
    at hvalidated hstore hanswer ⊢
  obtain ⟨answer, validated⟩ := validation
  obtain rfl := hanswer
  have hprepared :=
    (changes_prepare validated Jms.send Jms.action connector context arguments).tickets ticket
  rw [← hstore] at hprepare
  have hanswer := validated.prepare_send_of_ok hprepare connector context
  dsimp only
  generalize validated.prepare Jms.send Jms.action connector context arguments = preparation
    at hprepared hanswer ⊢
  obtain ⟨answer, prepared⟩ := preparation
  obtain rfl := hanswer
  have hnone : prepared.tasksOf ticket = [] := (hprepared.1.trans hvalidated.1).trans hfresh
  refine ⟨_, rfl, .pending (tasksOf_spawn_only hnone rfl) ?_⟩
  rw [hfamily]
  exact .sending limit

end World

namespace Engine

/-- A call of `net.jms:send` with a callback that is accepted is left to a task, with the request
for what its message holds at that moment.  Whatever goes on from there, this request is what is
still to be sent, and it is what is in the record of the send, if there is one, and stays there. -/
theorem sends_keep_their_snapshot {engine : Engine} {world : World} {ticket : Nat}
    {arguments : List Value} {context : Context} {connector : Connector} {sending : Request}
    (hcheck : engine.registry.check .callback Jms.action arguments =
      .ok (Jms.descriptor, .action Jms.send connector))
    (hvalidate : Jms.validate arguments = .ok ())
    (hprepare : Jms.prepare world.store arguments = .ok sending)
    (hfresh : world.tasksOf ticket = []) :
    ∃ started request,
      engine.start ticket Jms.action arguments context world = (.spawned, started) ∧
        Jms.Asks world.store arguments request ∧
        ∀ records between, World.Unfolds ticket started records between →
          (∀ task ∈ between.tasksOf ticket, task.work.Brings request) ∧
            request.IsRecorded records ∧ (∀ record ∈ records, record ∈ between.loopback.sent) ∧
            ∀ more later, World.Unfolds ticket between more later →
              between.loopback.sent <+: later.loopback.sent := by
  obtain ⟨entry, hadmits, -⟩ := Registry.check_eq_ok_iff.1 hcheck
  rcases Contribution.resolveTarget_eq_ok hadmits.target with
    ⟨native, -, htarget⟩ | ⟨native, other, -, htarget, hconnector⟩
  · cases htarget
  · cases htarget
    obtain ⟨hhead, hfamily⟩ := Action.resolveConnector_eq_ok hconnector
    have hnone : (world.admitted .callback Jms.action arguments context).tasksOf ticket = [] :=
      hfresh
    have hprepareAdmitted :
        Jms.prepare (world.admitted .callback Jms.action arguments context).store arguments =
          .ok sending := hprepare
    obtain ⟨started, hleft, hkeeps⟩ := World.keeps_startAction hfamily hvalidate hprepareAdmitted
      hnone engine.config.transportTimeout context
    refine ⟨started, _, ?_, Jms.asks_of_prepare hhead hprepare, ?_⟩
    · simp only [start]
      rw [hcheck]
      exact hleft
    · intro records between hunfolds
      have hkept := hunfolds.keeps hkeeps
      rw [List.nil_append] at hkept
      exact ⟨hkept.brings, hkept.isRecorded, hunfolds.mem_sent, fun _ _ hlater => hlater.sent⟩

/-- An engine that can only send messages. -/
def sender : Engine where
  config := .default
  registry := ⟨[Jms.entry]⟩
  operators := .standard

/-- A world with a message whose header says that it is a draft. -/
def drafted : World :=
  ((World.start (.ofSlots 1)).setTransport Jms.family
      (.loopback (.ofProtocol Jms.family))).withStore
    (Store.empty.write ⟨0⟩ ((Message.ofPayload (.string "hello")).setHeader "state" "draft"))

/-- The arguments of a send of the draft. -/
def draft : List Value :=
  [.connector ⟨0, "broker", Jms.family, Dict.empty⟩, .string "orders",
    .string "TextMessage", .message ⟨0⟩]

/-- The message becomes final when its send has just been started. -/
def revised : World :=
  let started := (sender.start 0 Jms.action draft (.ofTrace "t") drafted).2
  started.withStore (started.store.update ⟨0⟩ fun message => message.setHeader "state" "final")

/-- Whether one task is left to send the draft, and it adds a record. -/
def recordsDraft : Bool :=
  match revised.tasks with
  | [task] => task.ticket == 0 && (revised.added (task.step revised).2).length == 1
  | _ => false

/-- The draft is recorded although the message is final by then. -/
theorem sends_keep_their_snapshot_of_draft :
    (revised.store.read ⟨0⟩).headers.entries = [("state", "final")] ∧
      ∃ last record, World.Unfolds 0 (sender.start 0 Jms.action draft (.ofTrace "t") drafted).2
          [record] last ∧
        record ∈ last.loopback.sent ∧
        record.envelope.body = .text "hello" ∧
        record.envelope.headers.entries = [("state", "draft")] := by
  have hrecords : recordsDraft = true := by decide +kernel
  have hfinal : (revised.store.read ⟨0⟩).headers.entries = [("state", "final")] := by
    decide +kernel
  have hdraft : (drafted.store.read ⟨0⟩).headers.entries = [("state", "draft")] := by
    decide +kernel
  have hcheck : sender.registry.check .callback Jms.action draft =
      .ok (Jms.descriptor, .action Jms.send ⟨0, "broker", Jms.family, Dict.empty⟩) := rfl
  have hvalidate : Jms.validate draft = .ok () := rfl
  have hprepare : Jms.prepare drafted.store draft =
      Jms.request "orders" (.ofName "TextMessage") (drafted.store.read ⟨0⟩) := rfl
  have hkind : MessageKind.ofName "TextMessage" = .text := MessageKind.ofName_name .text
  have hbody : Jms.body (drafted.store.read ⟨0⟩) .text = .ok (.text "hello") := rfl
  simp only [Jms.request, hkind, hbody] at hprepare
  obtain ⟨started, request, hstart, hasks, hkeeps⟩ :=
    @sends_keep_their_snapshot sender drafted 0 draft (.ofTrace "t") _ _ hcheck hvalidate
      hprepare rfl
  refine ⟨hfinal, ?_⟩
  simp only [recordsDraft] at hrecords
  split at hrecords
  · next task htasks =>
    obtain ⟨hticket, hcount⟩ := Bool.and_eq_true_iff.1 hrecords
    obtain ⟨record, hrecord⟩ := List.length_eq_one_iff.1 (beq_iff_eq.1 hcount)
    obtain rfl : _ = started := congrArg Prod.snd hstart
    have hrevised : World.Happens 0
        (sender.start 0 Jms.action draft (.ofTrace "t") drafted).2 [] revised :=
      .elsewhere rfl rfl
    obtain ⟨last, hlast, hstep⟩ : ∃ last : World,
        last.loopback = (task.step revised).2.loopback ∧
          World.Happens 0 revised (if task.ticket = 0 then revised.added last else []) last := by
      refine ⟨_, ?_, .step [] task [] htasks rfl⟩
      rfl
    have hadded : revised.added last = [record] := by
      simp only [World.added] at hrecord ⊢
      rw [hlast]
      exact hrecord
    rw [if_pos (beq_iff_eq.1 hticket), hadded] at hstep
    have hunfolds := ((World.Unfolds.refl _).tail hrevised).tail hstep
    obtain ⟨-, hrecorded, hlogged, -⟩ := hkeeps _ _ hunfolds
    refine ⟨last, record, hunfolds, hlogged record (List.mem_singleton_self record), ?_⟩
    cases hrecorded with
    | once messageId =>
        cases hasks with
        | intro hasked =>
            rw [hkind, hbody] at hasked
            exact ⟨(Except.ok.inj hasked).symm, hdraft⟩
  · cases hrecords

end Engine

end Switchboard
