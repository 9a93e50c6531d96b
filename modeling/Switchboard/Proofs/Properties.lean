import Switchboard.Proofs.Merging
import Switchboard.Proofs.Snapshots

/-!
The properties of a recorded send.

What the connector declares comes first, in the order in which it is declared, with the kind of the
message and its destination in their places if the connector declares them, and behind the rest if
not.  A call of `net.jms:send` that waits and a call with a callback make the request in the same
way, and neither the flight nor the transport touches it.
-/

namespace Switchboard

/-! ## The request -/

namespace Jms

/-- The properties of a send over a connector that declares these. -/
def sentProperties (declared : Dict String) (kind : MessageKind) (destination : String) :
    Entries String :=
  declared.entries.map (fun (name, value) =>
    (name, if name = messageTypeProperty then kind.name
      else if name = destinationProperty then destination else value)) ++
  (if messageTypeProperty ∈ declared.names then [] else [(messageTypeProperty, kind.name)]) ++
  if destinationProperty ∈ declared.names then [] else [(destinationProperty, destination)]

/-- What a send with these arguments has as properties. -/
def SendsWith (arguments : List Value) (properties : Dict String) : Prop :=
  ∃ connector destination kind id,
    arguments = [.connector connector, .string destination, .string kind, .message id] ∧
      properties.entries = sentProperties connector.properties (.ofName kind) destination

theorem entries_mergeProperties (declared : Dict String) (kind : MessageKind)
    (destination : String) :
    (mergeProperties declared ((Dict.empty.bind messageTypeProperty kind.name).bind
      destinationProperty destination)).entries = sentProperties declared kind destination := by
  have hown : ((Dict.empty.bind messageTypeProperty kind.name).bind destinationProperty
      destination).entries =
        [(messageTypeProperty, kind.name), (destinationProperty, destination)] := rfl
  rw [mergeProperties, Dict.entries_union, hown, sentProperties, List.append_assoc]
  congr 1
  · apply List.map_congr_left
    intro pair _
    simp only [Entries.find?, eq_comm]
    split
    · simp
    · split <;> simp
  · by_cases hkind : messageTypeProperty ∈ declared.names <;>
      by_cases hdestination : destinationProperty ∈ declared.names <;>
        simp [Entries.beyond, hkind, hdestination]

theorem Asks.sendsWith {store : Store} {arguments : List Value} {request : Request}
    (hasks : Asks store arguments request) : SendsWith arguments request.properties := by
  cases hasks with
  | @intro connector destination kind id body hbody =>
      exact ⟨connector, destination, kind, id, rfl, entries_mergeProperties _ _ _⟩

end Jms

/-- A record has the properties of its request. -/
theorem Request.IsRecorded.sendsWith {arguments : List Value} {request : Request}
    {records : List RecordedSend} (hrecorded : request.IsRecorded records)
    (hsends : Jms.SendsWith arguments request.properties) :
    ∀ record ∈ records, Jms.SendsWith arguments record.properties := by
  intro record hrecord
  cases hrecorded with
  | never => cases hrecord
  | once messageId =>
      rw [List.mem_singleton.1 hrecord]
      exact hsends

namespace World

variable {world next : World} {ticket : Nat} {connector : Connector} {arguments : List Value}
  {records more : List RecordedSend}

theorem sendsWith_of_prepare (hhead : arguments.head? = some (.connector connector))
    {context : Context} {request : Request} {after : World}
    (hprepare : world.prepare Jms.send Jms.action connector context arguments =
      (.ok request, after)) : Jms.SendsWith arguments request.properties := by
  have hanswer : (Answer.ofChecked (Jms.prepare world.store arguments)).map (fun sending =>
      { sending with properties := mergeProperties connector.properties sending.properties }) =
        .ok request := congrArg Prod.fst hprepare
  rcases hasked : Jms.prepare world.store arguments with fault | sending
  · rw [hasked] at hanswer
    cases hanswer
  · rw [hasked] at hanswer
    obtain rfl := Except.ok.inj hanswer
    exact (Jms.asks_of_prepare hhead hasked).sendsWith

/-! ## A call without a task -/

theorem Happens.idle (hhappens : Happens ticket world more next)
    (hnone : world.tasksOf ticket = []) : more = [] ∧ next.tasksOf ticket = [] := by
  cases hhappens with
  | step before task after htasks hnext =>
      have howner : task.ticket ≠ ticket := fun howner => tasksOf_ne_nil htasks howner hnone
      exact ⟨if_neg howner, (step_others htasks hnext howner).1.trans hnone⟩
  | quiet hchange => exact ⟨rfl, (Changes.tickets (.single hchange) ticket).1.trans hnone⟩
  | spawns task howner =>
      refine ⟨rfl, ?_⟩
      rw [tasksOf_spawn, if_neg howner, List.append_nil, hnone]
  | turns => exact ⟨rfl, hnone⟩
  | registers hregisters =>
      obtain ⟨-, rfl⟩ := registerTransport_eq_ok hregisters
      exact ⟨rfl, hnone⟩
  | elsewhere htasks =>
      refine ⟨rfl, ?_⟩
      simp only [tasksOf] at hnone ⊢
      rw [htasks, hnone]

/-- A ticket without tasks has nothing recorded. -/
theorem Unfolds.idle (hunfolds : Unfolds ticket world records next)
    (hnone : world.tasksOf ticket = []) : records = [] ∧ next.tasksOf ticket = [] := by
  induction hunfolds with
  | refl => exact ⟨rfl, hnone⟩
  | tail _ hhappens ih =>
      obtain ⟨rfl, hbetween⟩ := ih
      exact hhappens.idle hbetween

/-! ## The pieces of a call -/

/-- A send with these arguments has been started and nothing is recorded of it: it was refused, or
it is left to a task as it was asked for. -/
inductive Begins (ticket : Nat) (arguments : List Value) (sent : List RecordedSend)
    (started : World) : Prop
  | refused (hsent : started.loopback.sent = sent) (hnone : started.tasksOf ticket = [])
  | entrusted {request : Request} (hsent : started.loopback.sent = sent)
      (hsends : Jms.SendsWith arguments request.properties)
      (hkeeps : Keeps ticket request [] started)

theorem startAction_begins (hhead : arguments.head? = some (.connector connector))
    (hfamily : connector.family = Jms.family) (hfresh : world.tasksOf ticket = [])
    (limit : Millis) (context : Context) :
    Begins ticket arguments world.loopback.sent (world.startAction limit ticket Jms.action
      Jms.descriptor Jms.send connector arguments context).2 := by
  simp only [startAction]
  obtain ⟨validated, hvalidated, htransports, hvalidate | ⟨fault, -, hvalidate⟩⟩ :=
    world.validate_send arguments
  · rw [hvalidate]
    dsimp only
    obtain ⟨prepared, hchanges, hkept, hanswer⟩ :=
      validated.prepare_send connector context arguments
    have hsent := congrArg Loopback.sent (loopback_congr (hkept.trans htransports))
    have hnone : prepared.tasksOf ticket = [] :=
      ((hchanges.tickets ticket).1.trans (hvalidated.tickets ticket).1).trans hfresh
    rcases hanswer with ⟨request, hprepare⟩ | ⟨fault, -, hprepare⟩
    · have hsends := sendsWith_of_prepare hhead hprepare
      rw [hprepare, hfamily]
      exact .entrusted hsent hsends (.pending (tasksOf_spawn_only hnone rfl) (.sending limit))
    · rw [hprepare]
      exact .refused hsent hnone
  · have hsent := congrArg Loopback.sent (loopback_congr htransports)
    have hnone := (hvalidated.tickets ticket).1.trans hfresh
    rw [hvalidate]
    exact .refused hsent hnone

end World

theorem Waiting.records_landed {waiting : Waiting} (hfamily : waiting.flight.family = Jms.family)
    (world : World) :
    ∃ records, (waiting.land world).world.loopback.sent = world.loopback.sent ++ records ∧
      waiting.flight.request.IsRecorded records := by
  simp only [land]
  rw [World.loopback_handBack]
  exact world.records_land hfamily

/-- How far a call that waits comes by itself: what it has recorded, or what is in flight, is as it
was asked for. -/
inductive Entered.Sends (arguments : List Value) (sent : List RecordedSend) : Entered → Prop
  | returned {outcome : Outcome (Option Value)} {records : List RecordedSend}
      (hsent : outcome.world.loopback.sent = sent ++ records)
      (hsends : ∀ record ∈ records, Jms.SendsWith arguments record.properties) :
      Sends arguments sent (.returned outcome)
  | waiting {waiting : Waiting} {after : World} (hsent : after.loopback.sent = sent)
      (hfamily : waiting.flight.family = Jms.family)
      (hsends : Jms.SendsWith arguments waiting.flight.request.properties) :
      Sends arguments sent (.waiting waiting after)

namespace Engine

variable {engine : Engine} {world : World} {arguments : List Value} {context : Context}

/-- The records that a call of `net.jms:send` adds to the log, whatever else goes on meanwhile.  A
call that waits adds them until it returns; if its send is in flight, anything may happen before it
lands, and what the others record meanwhile is not counted.  For a call with a callback this is what
its start and the tasks of its ticket add. -/
inductive Records (engine : Engine) (arguments : List Value) (context : Context)
    (world : World) : List RecordedSend → Prop
  | returned {outcome : Outcome (Option Value)}
      (henter : engine.enter Jms.action arguments context world = .returned outcome) :
      Records engine arguments context world (world.added outcome.world)
  | landed {waiting : Waiting} {between later : World} {owner : Nat}
      {others : List RecordedSend}
      (henter : engine.enter Jms.action arguments context world = .waiting waiting between)
      (hunfolds : World.Unfolds owner between others later) :
      Records engine arguments context world
        (world.added between ++ later.added (waiting.land later).world)
  | entrusted {ticket : Nat} {records : List RecordedSend} {next : World}
      (hfresh : world.tasksOf ticket = [])
      (hunfolds : World.Unfolds ticket
        (engine.start ticket Jms.action arguments context world).2 records next) :
      Records engine arguments context world
        (world.added (engine.start ticket Jms.action arguments context world).2 ++ records)

section Pieces

variable (hregistered : engine.registry.find? Jms.action = some Jms.entry)

include hregistered

/-- An accepted call has a connector of the family as its first argument. -/
theorem check_send_head (mode : CallMode) (arguments : List Value) :
    (∃ fault, engine.registry.check mode Jms.action arguments = .error fault) ∨
    ∃ connector, arguments.head? = some (.connector connector) ∧
      connector.family = Jms.family ∧
      engine.registry.check mode Jms.action arguments =
        .ok (Jms.descriptor, .action Jms.send connector) := by
  rcases check_send hregistered mode arguments with
    ⟨fault, -, hcheck⟩ | ⟨connector, hfamily, hcheck⟩
  · exact .inl ⟨fault, hcheck⟩
  · obtain ⟨entry, hadmits, -⟩ := Registry.check_eq_ok_iff.1 hcheck
    rcases Contribution.resolveTarget_eq_ok hadmits.target with
      ⟨native, -, htarget⟩ | ⟨native, other, -, htarget, hconnector⟩
    · cases htarget
    · cases htarget
      exact .inr ⟨connector, (Action.resolveConnector_eq_ok hconnector).1, hfamily, hcheck⟩

theorem enter_sends (arguments : List Value) (context : Context) (world : World) :
    (engine.enter Jms.action arguments context world).Sends arguments world.loopback.sent := by
  have hnone {outcome : Outcome (Option Value)}
      (htransports : outcome.world.transports = world.transports) :
      (Entered.returned outcome).Sends arguments world.loopback.sent := by
    have hsent : outcome.world.loopback.sent = world.loopback.sent ++ [] := by
      rw [World.loopback_congr htransports, List.append_nil]
    exact .returned hsent fun _ hrecord => absurd hrecord List.not_mem_nil
  simp only [enter]
  rcases check_send_head hregistered .blocking arguments with
    ⟨fault, hcheck⟩ | ⟨connector, hhead, hfamily, hcheck⟩
  · rw [hcheck]
    exact hnone rfl
  · rw [hcheck]
    dsimp only
    obtain ⟨prepared, -, htransports, ⟨request, hprepare⟩ | ⟨fault, -, hprepare⟩⟩ :=
      World.prepare_send ((world.note (.invoked .blocking Jms.action arguments)).emit
        (.ofDispatch Jms.action context.location?)) connector context arguments
    · have hsends := World.sendsWith_of_prepare hhead hprepare
      have hlaunches := prepared.launches_launch request engine.config.transportTimeout
      have hkept : prepared.loopback = world.loopback := World.loopback_congr htransports
      rw [hkept] at hlaunches
      rw [hprepare]
      dsimp only
      rw [hfamily]
      generalize prepared.launch engine.config.transportTimeout Jms.family request = launch
        at hlaunches ⊢
      cases hlaunches with
      | flying hflying hrequest hsent =>
          rw [← hrequest] at hsends
          exact .waiting hsent hflying hsends
      | settled hsent hrecords =>
          refine .returned ?_ (hrecords.sendsWith hsends)
          rw [World.loopback_handBack]
          exact hsent
    · rw [hprepare]
      exact hnone ((World.transports_handOver _ _ _ _ _).trans htransports)

/-- A call that waits records nothing before the others have had their turns, and then what is its
own. -/
theorem exists_records_invoke (arguments : List Value) (context : Context) (world : World) :
    ∃ own between later, engine.Records arguments context world own ∧
      between.loopback.sent = world.loopback.sent ∧ World.Lapses between later ∧
      (engine.invoke Jms.action arguments context world).world.loopback.sent =
        later.loopback.sent ++ own := by
  have henters := enter_sends hregistered arguments context world
  rw [invoke_eq]
  cases henter : engine.enter Jms.action arguments context world with
  | returned outcome =>
      rw [henter] at henters
      cases henters with
      | returned hsent =>
          refine ⟨_, world, world, .returned henter, rfl, .refl, ?_⟩
          rw [World.added_eq hsent, hsent]
  | waiting waiting between =>
      rw [henter] at henters
      cases henters with
      | waiting hsent hfamily =>
          have hlapses := World.lapses_waitUntil between waiting.flight.due
          obtain ⟨others, hunfolds⟩ := hlapses.moves.unfolds 0
          obtain ⟨records, hlast, -⟩ := Waiting.records_landed hfamily
            (between.waitUntil waiting.flight.due)
          refine ⟨_, between, _, .landed henter hunfolds, hsent, hlapses, ?_⟩
          rw [World.added_eq (hsent.trans (List.append_nil _).symm), World.added_eq hlast]
          exact hlast

theorem start_begins {ticket : Nat} (hfresh : world.tasksOf ticket = [])
    (arguments : List Value) (context : Context) :
    World.Begins ticket arguments world.loopback.sent
      (engine.start ticket Jms.action arguments context world).2 := by
  simp only [start]
  rcases check_send_head hregistered .callback arguments with
    ⟨fault, hcheck⟩ | ⟨connector, hhead, hfamily, hcheck⟩
  · rw [hcheck]
    exact .refused rfl hfresh
  · rw [hcheck]
    exact @World.startAction_begins (world.admitted .callback Jms.action arguments context) _ _ _
      hhead hfamily hfresh _ context

/-- What a call records has the properties that its arguments ask for. -/
theorem Records.sendsWith {records : List RecordedSend}
    (hrecords : engine.Records arguments context world records) :
    ∀ record ∈ records, Jms.SendsWith arguments record.properties := by
  have henters := enter_sends hregistered arguments context world
  cases hrecords with
  | returned henter =>
      rw [henter] at henters
      cases henters with
      | returned hsent hsends =>
          rw [World.added_eq hsent]
          exact hsends
  | @landed waiting between later owner others henter hunfolds =>
      rw [henter] at henters
      cases henters with
      | waiting hsent hfamily hsends =>
          obtain ⟨records, hlast, hrecorded⟩ := Waiting.records_landed hfamily later
          rw [World.added_eq (hsent.trans (List.append_nil _).symm), World.added_eq hlast]
          exact hrecorded.sendsWith hsends
  | entrusted hfresh hunfolds =>
      cases start_begins hregistered hfresh arguments context with
      | refused hsent hnone =>
          rw [World.added_eq (hsent.trans (List.append_nil _).symm), (hunfolds.idle hnone).1]
          exact fun _ hrecord => absurd hrecord List.not_mem_nil
      | entrusted hsent hsends hkeeps =>
          rw [World.added_eq (hsent.trans (List.append_nil _).symm)]
          exact (hunfolds.keeps hkeeps).isRecorded.sendsWith hsends

end Pieces

/-- Properties are merged like an ordered union: what the connector declares stays in its place, the
action's own names follow in their order, and the action's values win.  So it does not matter how
merges are grouped, merging with the same or with nothing changes nothing, and a recorded send has
the declared properties with its kind and its destination in their places or at the end. -/
theorem properties_merge_in_order :
    (∀ connector action : Dict String,
      (mergeProperties connector action).names.Nodup ∧
      (mergeProperties connector action).names =
        connector.names ++ action.names.filter (fun name => name ∉ connector.names) ∧
      ∀ name, (mergeProperties connector action).find? name =
        match action.find? name with
        | some value => some value
        | none => connector.find? name) ∧
    (∀ first second third : Dict String,
      mergeProperties (mergeProperties first second) third =
        mergeProperties first (mergeProperties second third)) ∧
    (∀ properties : Dict String,
      mergeProperties properties properties = properties ∧
      mergeProperties Dict.empty properties = properties ∧
      mergeProperties properties Dict.empty = properties) ∧
    ∀ (blueprint : Blueprint) (engine : Engine) (start : World),
      blueprint.build = .ok (engine, start) →
      ∀ (arguments : List Value) (context : Context) (world : World)
        (records : List RecordedSend), engine.Records arguments context world records →
        ∀ record ∈ records, Jms.SendsWith arguments record.properties := by
  refine ⟨?_, Dict.union_assoc, ?_, ?_⟩
  · intro connector action
    rw [mergeProperties]
    refine ⟨(connector.union action).distinct, Dict.names_union connector action, ?_⟩
    intro name
    rw [Dict.find?_union]
    cases action.find? name <;> rfl
  · intro properties
    exact ⟨properties.union_self, properties.empty_union, properties.union_empty⟩
  · intro blueprint engine start hbuild arguments context world records hrecords
    have hmem : Contribution.action Jms.send ∈ Library.contributions :=
      List.mem_append_right _ (List.mem_singleton_self _)
    have hregistered := Blueprint.find?_of_build hbuild hmem Jms.describe_send
    exact hrecords.sendsWith hregistered

/-- The arguments of a send over a connector that declares a destination and a priority. -/
def urgent : List Value :=
  [.connector ⟨0, "broker", Jms.family,
      .ofPairs [("JMS_DESTINATION", "nowhere"), ("priority", "9")]⟩,
    .string "orders", .string "OBJECTMESSAGE", .message ⟨0⟩]

/-- Whether this send is recorded once in a new system. -/
def recordsUrgent : Bool :=
  match Traffic.looped.build with
  | .error _ => false
  | .ok (engine, world) =>
      match engine.enter Jms.action urgent (.ofTrace "trace") world with
      | .returned outcome => (world.added outcome.world).length == 1
      | .waiting _ _ => false

/-- The destination is put in its place, and the kind behind what is declared. -/
theorem properties_merge_in_order_of_urgent :
    ∃ engine world record, Traffic.looped.build = .ok (engine, world) ∧
      world.added (engine.invoke Jms.action urgent (.ofTrace "trace") world).world = [record] ∧
      record.properties.entries =
        [("JMS_DESTINATION", "orders"), ("priority", "9"), ("JMS_MESSAGE_TYPE", "ObjectMessage")]
    := by
  have hrecords : recordsUrgent = true := by decide +kernel
  simp only [recordsUrgent] at hrecords
  split at hrecords
  · cases hrecords
  · next engine world hbuild =>
    split at hrecords
    · next outcome henter =>
      obtain ⟨record, hrecord⟩ := List.length_eq_one_iff.1 (beq_iff_eq.1 hrecords)
      have hinvoke : engine.invoke Jms.action urgent (.ofTrace "trace") world = outcome := by
        rw [invoke_eq, henter]
      refine ⟨engine, world, record, hbuild, ?_, ?_⟩
      · rw [hinvoke, hrecord]
      · obtain ⟨connector, destination, kind, id, harguments, hproperties⟩ :=
          properties_merge_in_order.2.2.2 Traffic.looped engine world hbuild urgent
            (.ofTrace "trace") world _ (.returned henter) record
            (by rw [hrecord]; exact List.mem_singleton_self record)
        simp only [urgent, List.cons.injEq, Value.connector.injEq, Value.string.injEq]
          at harguments
        obtain ⟨rfl, rfl, rfl, -⟩ := harguments
        rw [hproperties]
        decide +kernel
    · cases hrecords

end Engine

end Switchboard
