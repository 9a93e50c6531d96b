import Switchboard.Proofs.Accounts
import Switchboard.Proofs.Startup
import Switchboard.Proofs.Tickets

/-!
The traffic of `net.jms:send`.

Any number of calls may be under way at once.  A call that waits enters and lands, a call with a
callback is started, its task takes steps, the settings of the transport are turned, time passes,
and the rest of the world goes about its business, all in any order.  One step changes the account
of one call at most, and it keeps every account in order: what a caller was told agrees with what
the transport has seen of the call.
-/

namespace Switchboard

/-- A setting of a loopback transport is turned, or it is shut down. -/
inductive Loopback.Turns : Loopback → Loopback → Prop
  | failWith (transport : Loopback) (fault : TransportFault) :
      Turns transport (transport.failWith fault)
  | recover (transport : Loopback) : Turns transport transport.recover
  | stall (transport : Loopback) (delay : Millis) : Turns transport (transport.stall delay)
  | panicOnSend (transport : Loopback) : Turns transport transport.panicOnSend
  | close (transport : Loopback) : Turns transport transport.close

/-- A world, the calls of `net.jms:send` that were made in it, by ticket, and what they have to
answer for. -/
structure Traffic where
  world : World
  calls : Nat → Phase
  ledger : Ledger

namespace Traffic

/-- No call has been made yet. -/
def ofWorld (world : World) : Traffic :=
  ⟨world, fun _ => .unused, .empty⟩

/-- What is known of the call of a ticket. -/
def account (traffic : Traffic) (ticket : Nat) : Account where
  phase := traffic.calls ticket
  tasks := traffic.world.tasksOf ticket
  deliveries := traffic.world.deliveriesOf ticket
  arrivals := traffic.ledger.arrivals ticket
  records := traffic.ledger.records ticket

/-- A call goes on, and is charged with what happens to the transport meanwhile. -/
def proceed (traffic : Traffic) (ticket : Nat) (phase : Phase) (world : World) : Traffic where
  world := world
  calls other := if other = ticket then phase else traffic.calls other
  ledger := traffic.ledger.charge ticket traffic.world.loopback world.loopback

/-- One step of the traffic. -/
inductive Step (engine : Engine) : Traffic → Traffic → Prop
  /-- A call that waits for its result has it at once. -/
  | returns {traffic : Traffic} {ticket : Nat} {arguments : List Value} {context : Context}
      {outcome : Outcome (Option Value)} (hunused : traffic.calls ticket = .unused)
      (henter : engine.enter Jms.action arguments context traffic.world = .returned outcome) :
      Step engine traffic (traffic.proceed ticket (.returned outcome.result) outcome.world)
  /-- A call that waits has its send in flight. -/
  | waits {traffic : Traffic} {ticket : Nat} {arguments : List Value} {context : Context}
      {waiting : Waiting} {world : World} (hunused : traffic.calls ticket = .unused)
      (henter : engine.enter Jms.action arguments context traffic.world =
        .waiting waiting world) :
      Step engine traffic (traffic.proceed ticket (.waiting waiting) world)
  | lands {traffic : Traffic} {ticket : Nat} {waiting : Waiting}
      (hwaiting : traffic.calls ticket = .waiting waiting)
      (hdue : waiting.flight.due ≤ traffic.world.now) :
      Step engine traffic (traffic.proceed ticket
        (.returned (waiting.land traffic.world).result) (waiting.land traffic.world).world)
  /-- A call is left to its callback. -/
  | starts {traffic : Traffic} {ticket : Nat} (arguments : List Value) (context : Context)
      (hunused : traffic.calls ticket = .unused) :
      Step engine traffic (traffic.proceed ticket .entrusted
        (engine.start ticket Jms.action arguments context traffic.world).2)
  | steps {traffic : Traffic} (before : List Task) (task : Task) (after : List Task)
      (htasks : traffic.world.tasks = before ++ task :: after) :
      Step engine traffic (traffic.proceed task.ticket (traffic.calls task.ticket)
        { (task.step traffic.world).2 with
          tasks := before ++ (task.step traffic.world).1.toList ++ after })
  | turns {traffic : Traffic} {transport : Loopback}
      (hturns : traffic.world.loopback.Turns transport) :
      Step engine traffic
        { traffic with world := traffic.world.setTransport Jms.family (.loopback transport) }
  /-- Time passes, or something else happens that is not about sends. -/
  | elsewhere {traffic : Traffic} {world : World} (htasks : world.tasks = traffic.world.tasks)
      (hdeliveries : world.deliveries = traffic.world.deliveries)
      (htransport : Entries.find? Jms.family world.transports =
        Entries.find? Jms.family traffic.world.transports) :
      Step engine traffic { traffic with world }

/-- Steps one after the other. -/
abbrev Runs (engine : Engine) : Traffic → Traffic → Prop :=
  Relation.ReflTransGen (Step engine)

/-- A loopback transport serves, and every account is in order. -/
structure Sound (traffic : Traffic) : Prop where
  looped : traffic.world.IsLooped
  accounts : ∀ ticket, (traffic.account ticket).Sound

theorem sound_ofWorld {world : World} (hlooped : world.IsLooped) (htasks : world.tasks = [])
    (hdeliveries : world.deliveries = []) : (ofWorld world).Sound := by
  refine ⟨hlooped, ?_⟩
  intro ticket
  have hblank : (ofWorld world).account ticket = .blank := by
    simp only [account, ofWorld, World.tasksOf, World.deliveriesOf]
    rw [htasks, hdeliveries]
    rfl
  rw [hblank]
  exact .blank

/-! ## A step and an account -/

variable {traffic next : Traffic} {ticket : Nat} {phase : Phase} {world : World}

theorem tasksOf_eq {account : Account} (h : traffic.account ticket = account) :
    traffic.world.tasksOf ticket = account.tasks :=
  congrArg Account.tasks h

theorem deliveriesOf_eq {account : Account} (h : traffic.account ticket = account) :
    traffic.world.deliveriesOf ticket = account.deliveries :=
  congrArg Account.deliveries h

theorem account_others {owner : Nat} (howner : owner ≠ ticket)
    (htasks : world.tasksOf ticket = traffic.world.tasksOf ticket)
    (hdeliveries : world.deliveriesOf ticket = traffic.world.deliveriesOf ticket) :
    (traffic.proceed owner phase world).account ticket = traffic.account ticket := by
  obtain ⟨harrivals, hrecords⟩ :=
    traffic.ledger.charge_others howner traffic.world.loopback world.loopback
  simp only [account, proceed]
  rw [if_neg howner.symm, htasks, hdeliveries, harrivals, hrecords]

theorem account_own {arrivals records : Nat}
    (hadds : traffic.world.loopback.Adds world.loopback arrivals records) :
    (traffic.proceed ticket phase world).account ticket =
      ⟨phase, world.tasksOf ticket, world.deliveriesOf ticket,
        (traffic.account ticket).arrivals + arrivals,
        (traffic.account ticket).records + records⟩ := by
  obtain ⟨harrivals, hrecords⟩ := traffic.ledger.charge_own ticket hadds
  unfold account proceed
  dsimp only
  rw [if_pos rfl, harrivals, hrecords]

/-- A call that is settled goes on to an account that tells its result. -/
theorem goes_settles {result : Except (Halt Failure) (Option Value)} {arrived : Nat}
    (hopen : (traffic.account ticket).Open arrived)
    (hsettles : Loopback.Settles arrived traffic.world.loopback world.loopback result)
    (hsound : ∀ arrivals records, Agrees result arrivals records →
      Account.Sound ⟨phase, world.tasksOf ticket, world.deliveriesOf ticket, arrivals, records⟩)
    (htells : ∀ arrivals records, Account.Tells
      ⟨phase, world.tasksOf ticket, world.deliveriesOf ticket, arrivals, records⟩ result) :
    Account.Goes traffic.world.loopback.closed (traffic.account ticket)
      ((traffic.proceed ticket phase world).account ticket) := by
  obtain ⟨arrivals, records, hadds, hagrees, hclosed⟩ := hsettles
  have hown := @account_own traffic ticket phase world arrivals records hadds
  rw [hopen.records, Nat.zero_add] at hown
  rw [hown]
  refine .on hopen.tells ?_ rfl ?_
  · rw [hopen.arrivals]
    exact hsound _ _ hagrees
  · intro h
    rcases hclosed h with hnone | hresult
    · exact .inl hnone
    · exact .inr ⟨result, htells _ _, hresult⟩

theorem goes_returned {result : Except (Halt Failure) (Option Value)} {arrived : Nat}
    (hopen : (traffic.account ticket).Open arrived)
    (hsettles : Loopback.Settles arrived traffic.world.loopback world.loopback result)
    (htasks : world.tasksOf ticket = []) (hdeliveries : world.deliveriesOf ticket = []) :
    Account.Goes traffic.world.loopback.closed (traffic.account ticket)
      ((traffic.proceed ticket (.returned result) world).account ticket) := by
  apply goes_settles hopen hsettles
  · intro arrivals records hagrees
    rw [htasks, hdeliveries]
    exact .returned hagrees
  · intro arrivals records
    exact .inl rfl

theorem goes_delivered {delivery : Delivery} {arrived : Nat}
    (hopen : (traffic.account ticket).Open arrived)
    (hsettles : Loopback.Settles arrived traffic.world.loopback world.loopback delivery.result)
    (htasks : world.tasksOf ticket = [])
    (hdeliveries : world.deliveriesOf ticket = [delivery]) :
    Account.Goes traffic.world.loopback.closed (traffic.account ticket)
      ((traffic.proceed ticket .entrusted world).account ticket) := by
  apply goes_settles hopen hsettles
  · intro arrivals records hagrees
    rw [htasks, hdeliveries]
    exact .delivered hagrees
  · intro arrivals records
    rw [hdeliveries]
    exact .inr ⟨delivery, List.mem_singleton_self delivery, rfl⟩

/-- A call that is not settled goes on to an account that is still open. -/
theorem goes_passes {arrived arrivals : Nat} (hopen : (traffic.account ticket).Open arrived)
    (hpasses : traffic.world.loopback.Passes world.loopback arrivals)
    (hsound : Account.Sound
      ⟨phase, world.tasksOf ticket, world.deliveriesOf ticket, arrived + arrivals, 0⟩) :
    Account.Goes traffic.world.loopback.closed (traffic.account ticket)
      ((traffic.proceed ticket phase world).account ticket) := by
  have hown := @account_own traffic ticket phase world arrivals 0 hpasses.adds
  rw [hopen.records] at hown
  rw [hown]
  refine .on hopen.tells ?_ rfl fun h => .inl (hpasses.closed h)
  rw [hopen.arrivals]
  exact hsound

/-- What goes on for one call is nothing to the others. -/
theorem goes_proceed {closed : Bool} {owner : Nat}
    (hothers : ∀ ticket, owner ≠ ticket →
      world.tasksOf ticket = traffic.world.tasksOf ticket ∧
        world.deliveriesOf ticket = traffic.world.deliveriesOf ticket)
    (hown : Account.Goes closed (traffic.account owner)
      ((traffic.proceed owner phase world).account owner)) (ticket : Nat) :
    Account.Goes closed (traffic.account ticket)
      ((traffic.proceed owner phase world).account ticket) := by
  by_cases howner : owner = ticket
  · subst howner
    exact hown
  · obtain ⟨htasks, hdeliveries⟩ := hothers ticket howner
    rw [account_others howner htasks hdeliveries]
    exact .stays _

/-! ## One lemma for each way to proceed -/

section Pieces

variable (hsound : traffic.Sound)

include hsound

theorem goes_returns {outcome : Outcome (Option Value)}
    (hunused : traffic.calls ticket = .unused)
    (hreturned : (Entered.returned outcome).IsSend traffic.world) (other : Nat) :
    Account.Goes traffic.world.loopback.closed (traffic.account other)
      ((traffic.proceed ticket (.returned outcome.result) outcome.world).account other) := by
  have hblank := (hsound.accounts ticket).eq_blank hunused
  have hopen : (traffic.account ticket).Open 0 := .of_eq hblank fun _ => Phase.noConfusion
  cases hreturned with
  | returned hchanges hsettles =>
      obtain ⟨htasks, hdeliveries⟩ := hchanges.tickets ticket
      apply goes_proceed (fun owner _ => hchanges.tickets owner)
      exact goes_returned hopen hsettles (htasks.trans (tasksOf_eq hblank))
        (hdeliveries.trans (deliveriesOf_eq hblank))

theorem goes_waits {waiting : Waiting} (hunused : traffic.calls ticket = .unused)
    (hwaiting : (Entered.waiting waiting world).IsSend traffic.world) (other : Nat) :
    Account.Goes traffic.world.loopback.closed (traffic.account other)
      ((traffic.proceed ticket (.waiting waiting) world).account other) := by
  have hblank := (hsound.accounts ticket).eq_blank hunused
  have hopen : (traffic.account ticket).Open 0 := .of_eq hblank fun _ => Phase.noConfusion
  cases hwaiting with
  | waiting hchanges hsend hpasses =>
      obtain ⟨htasks, hdeliveries⟩ := hchanges.tickets ticket
      apply goes_proceed (fun owner _ => hchanges.tickets owner)
      apply goes_passes hopen hpasses
      rw [htasks, hdeliveries, tasksOf_eq hblank, deliveriesOf_eq hblank]
      exact .waiting hsend

theorem goes_lands {waiting : Waiting} (hwaiting : traffic.calls ticket = .waiting waiting)
    (other : Nat) :
    Account.Goes traffic.world.loopback.closed (traffic.account other)
      ((traffic.proceed ticket (.returned (waiting.land traffic.world).result)
        (waiting.land traffic.world).world).account other) := by
  obtain ⟨haccount, hsend⟩ := (hsound.accounts ticket).eq_waiting hwaiting
  have hopen : (traffic.account ticket).Open 1 := .of_eq haccount fun _ => Phase.noConfusion
  obtain ⟨hchanges, hsettles⟩ := hsend.land_settles hsound.looped
  obtain ⟨htasks, hdeliveries⟩ := hchanges.tickets ticket
  apply goes_proceed (fun owner _ => hchanges.tickets owner)
  exact goes_returned hopen hsettles (htasks.trans (tasksOf_eq haccount))
    (hdeliveries.trans (deliveriesOf_eq haccount))

theorem goes_starts {began : Started × World} (hunused : traffic.calls ticket = .unused)
    (hbegan : Started.IsSend ticket traffic.world began) (other : Nat) :
    Account.Goes traffic.world.loopback.closed (traffic.account other)
      ((traffic.proceed ticket .entrusted began.2).account other) := by
  have hblank := (hsound.accounts ticket).eq_blank hunused
  have hopen : (traffic.account ticket).Open 0 := .of_eq hblank fun _ => Phase.noConfusion
  cases hbegan with
  | @delivered before context outcome hchanges hsettles =>
      obtain ⟨htasks, hdeliveries⟩ := hchanges.tickets ticket
      have hfired := before.deliveriesOf_deliver ticket ticket context outcome
      rw [if_pos rfl, hdeliveries, deliveriesOf_eq hblank] at hfired
      apply goes_proceed
      · intro owner howner
        obtain ⟨hkept, hkeptDeliveries⟩ := hchanges.tickets owner
        refine ⟨hkept, ?_⟩
        rw [World.deliveriesOf_deliver, if_neg howner, List.append_nil, hkeptDeliveries]
      · exact goes_delivered hopen hsettles (htasks.trans (tasksOf_eq hblank))
          hfired
  | @spawned before task hchanges hloopback hticket hsend =>
      obtain ⟨htasks, hdeliveries⟩ := hchanges.tickets ticket
      have hleft := before.tasksOf_spawn task ticket
      rw [if_pos hticket, htasks, tasksOf_eq hblank] at hleft
      have hnone : (before.spawn task).deliveriesOf ticket = [] :=
        hdeliveries.trans (deliveriesOf_eq hblank)
      have hpasses : traffic.world.loopback.Passes (before.spawn task).loopback 0 := by
        rw [show (before.spawn task).loopback = traffic.world.loopback from hloopback]
        exact .none _
      apply goes_proceed
      · intro owner howner
        obtain ⟨hkept, hkeptDeliveries⟩ := hchanges.tickets owner
        refine ⟨?_, hkeptDeliveries⟩
        rw [World.tasksOf_spawn, hticket, if_neg howner, List.append_nil, hkept]
      · apply goes_passes hopen hpasses
        rw [hleft, hnone]
        exact .pending hsend

theorem goes_steps {before after : List Task} {task : Task}
    (htasks : traffic.world.tasks = before ++ task :: after)
    (hnext : world = { (task.step traffic.world).2 with
      tasks := before ++ (task.step traffic.world).1.toList ++ after }) (other : Nat) :
    Account.Goes traffic.world.loopback.closed (traffic.account other)
      ((traffic.proceed task.ticket (traffic.calls task.ticket) world).account other) := by
  obtain ⟨⟨others, rest, hsplit, hleft⟩, hdeliveries⟩ := World.step_own htasks hnext rfl
  have htask : task ∈ traffic.world.tasksOf task.ticket := by
    rw [hsplit]
    exact List.mem_append_right _ List.mem_cons_self
  obtain ⟨arrived, haccount, hsend⟩ := (hsound.accounts task.ticket).eq_pending htask
  have hopen : (traffic.account task.ticket).Open arrived :=
    .of_eq haccount fun _ => Phase.noConfusion
  have hphase : traffic.calls task.ticket = .entrusted := congrArg Account.phase haccount
  -- The task is the only one of its ticket.
  rw [tasksOf_eq haccount] at hsplit
  obtain ⟨rfl, rfl⟩ : others = [] ∧ rest = [] := by
    have hlength := congrArg List.length hsplit
    simp only [List.length_append, List.length_cons, List.length_nil] at hlength
    exact ⟨List.eq_nil_of_length_eq_zero (by omega), List.eq_nil_of_length_eq_zero (by omega)⟩
  have hloopback : world.loopback = (task.step traffic.world).2.loopback := by
    rw [hnext]
    rfl
  apply goes_proceed (fun owner howner => World.step_others htasks hnext howner)
  rw [hphase]
  have hstep := hsend.step hsound.looped
  generalize task.step traffic.world = taken at hstep hleft hdeliveries hloopback
  cases hstep with
  | left hchanges hpasses hticket hgoesOn =>
      rw [(hchanges.tickets task.ticket).2, deliveriesOf_eq haccount] at hdeliveries
      rw [← hloopback] at hpasses
      apply goes_passes hopen hpasses
      rw [hleft, hdeliveries]
      exact .pending hgoesOn
  | @delivered before context outcome hchanges hsettles =>
      have hfired := before.deliveriesOf_deliver task.ticket task.ticket context outcome
      rw [if_pos rfl, (hchanges.tickets task.ticket).2, deliveriesOf_eq haccount] at hfired
      have hkept : before.loopback = world.loopback := hloopback.symm
      rw [hkept] at hsettles
      exact goes_delivered hopen hsettles hleft (hdeliveries.trans hfired)

end Pieces

/-! ## What a step does to the transport -/

/-- The transport goes on serving: its records stay where they are, once closed it stays closed, and
what it sees is charged to somebody. -/
structure Serves (traffic next : Traffic) : Prop where
  looped : next.world.IsLooped
  sent : traffic.world.loopback.sent <+: next.world.loopback.sent
  closed : traffic.world.loopback.closed = true → next.world.loopback.closed = true
  covers : ∀ start, traffic.ledger.Covers start traffic.world.loopback →
    next.ledger.Covers start next.world.loopback

theorem Serves.refl (hlooped : traffic.world.IsLooped) : traffic.Serves traffic :=
  ⟨hlooped, List.prefix_refl _, id, fun _ => id⟩

theorem Serves.trans {third : Traffic} (hfirst : traffic.Serves next)
    (hsecond : next.Serves third) : traffic.Serves third where
  looped := hsecond.looped
  sent := hfirst.sent.trans hsecond.sent
  closed := hsecond.closed ∘ hfirst.closed
  covers start := hsecond.covers start ∘ hfirst.covers start

theorem serves_proceed (hlooped : traffic.world.IsLooped) (ticket : Nat) (phase : Phase)
    (hserved : traffic.world.Served world) :
    traffic.Serves (traffic.proceed ticket phase world) := by
  obtain ⟨hnext, hloopback⟩ := hserved.looped hlooped
  refine ⟨hnext, hloopback.sent, ?_, fun start hcovers => hcovers.charge hloopback ticket⟩
  intro hclosed
  exact hloopback.closed.trans hclosed

theorem serves_turns {transport : Loopback} (hturns : traffic.world.loopback.Turns transport) :
    traffic.Serves
      { traffic with world := traffic.world.setTransport Jms.family (.loopback transport) } := by
  obtain ⟨hlooped, hloopback⟩ := World.IsLooped.setTransport traffic.world transport
  refine ⟨hlooped, ?_, ?_, ?_⟩
  · rw [hloopback]
    cases hturns <;> exact List.prefix_refl _
  · rw [hloopback]
    intro hclosed
    cases hturns with
    | close => rfl
    | failWith | recover | stall | panicOnSend => exact hclosed
  · intro start hcovers
    rw [hloopback]
    cases hturns <;> exact ⟨hcovers.calls, hcovers.sent⟩

theorem serves_elsewhere (hlooped : traffic.world.IsLooped)
    (htransport : Entries.find? Jms.family world.transports =
      Entries.find? Jms.family traffic.world.transports) :
    traffic.Serves { traffic with world } := by
  obtain ⟨hnext, hloopback⟩ := World.looped_of_find (htransport.trans hlooped)
  refine ⟨hnext, ?_, ?_, ?_⟩
  · exact ⟨[], by rw [hloopback, List.append_nil]⟩
  · rw [hloopback]
    exact id
  · intro start hcovers
    rw [hloopback]
    exact hcovers

/-! ## Steps and runs -/

section Runs

variable {engine : Engine} (hregistered : engine.registry.find? Jms.action = some Jms.entry)
  (hsound : traffic.Sound)

include hregistered hsound

theorem Step.goes (hstep : Step engine traffic next) (ticket : Nat) :
    Account.Goes traffic.world.loopback.closed (traffic.account ticket) (next.account ticket) := by
  cases hstep with
  | returns hunused henter =>
      apply goes_returns hsound hunused
      rw [← henter]
      exact Engine.enter_isSend hregistered hsound.looped _ _
  | waits hunused henter =>
      apply goes_waits hsound hunused
      rw [← henter]
      exact Engine.enter_isSend hregistered hsound.looped _ _
  | lands hwaiting => exact goes_lands hsound hwaiting ticket
  | starts arguments context hunused =>
      apply goes_starts hsound hunused
      exact Engine.start_isSend hregistered _ arguments context traffic.world
  | steps before task after htasks => exact goes_steps hsound htasks rfl ticket
  | turns => exact .stays _
  | elsewhere htasks hdeliveries =>
      simp only [account, World.tasksOf, World.deliveriesOf]
      rw [htasks, hdeliveries]
      exact .stays _

theorem Step.serves (hstep : Step engine traffic next) : traffic.Serves next := by
  cases hstep with
  | @returns ticket arguments context outcome hunused henter =>
      have henters := Engine.enter_isSend hregistered hsound.looped arguments context
      rw [henter] at henters
      cases henters with
      | returned hchanges => exact serves_proceed hsound.looped _ _ hchanges.served
  | @waits ticket arguments context waiting world hunused henter =>
      have henters := Engine.enter_isSend hregistered hsound.looped arguments context
      rw [henter] at henters
      cases henters with
      | waiting hchanges => exact serves_proceed hsound.looped _ _ hchanges.served
  | @lands ticket waiting hwaiting =>
      obtain ⟨-, hsend⟩ := (hsound.accounts ticket).eq_waiting hwaiting
      obtain ⟨hchanges, -⟩ := hsend.land_settles hsound.looped
      exact serves_proceed hsound.looped _ _ hchanges.served
  | @starts ticket arguments context hunused =>
      have hbegan := Engine.start_isSend hregistered ticket arguments context traffic.world
      generalize engine.start ticket Jms.action arguments context traffic.world = began at hbegan ⊢
      apply serves_proceed hsound.looped
      cases hbegan with
      | delivered hchanges => exact hchanges.served.trans (.of_transports_eq rfl)
      | spawned hchanges => exact hchanges.served.trans (.of_transports_eq rfl)
  | steps before task after htasks =>
      apply serves_proceed hsound.looped
      exact (World.served_step traffic.world task).trans (.of_transports_eq rfl)
  | turns hturns => exact serves_turns hturns
  | elsewhere _ _ htransport => exact serves_elsewhere hsound.looped htransport

theorem Step.sound (hstep : Step engine traffic next) : next.Sound := by
  refine ⟨(hstep.serves hregistered hsound).looped, ?_⟩
  intro ticket
  exact (hstep.goes hregistered hsound ticket).sound (hsound.accounts ticket)

/-- Every account stays in order. -/
theorem Runs.sound (hruns : Runs engine traffic next) : next.Sound := by
  induction hruns with
  | refl => exact hsound
  | tail _ hstep ih => exact hstep.sound hregistered ih

theorem Runs.serves (hruns : Runs engine traffic next) : traffic.Serves next := by
  induction hruns with
  | refl => exact .refl hsound.looped
  | tail hruns hstep ih =>
      exact ih.trans (hstep.serves hregistered (Runs.sound hregistered hsound hruns))

/-- What was told stays told. -/
theorem Runs.tells {result : Except (Halt Failure) (Option Value)}
    (hruns : Runs engine traffic next) (htells : (traffic.account ticket).Tells result) :
    (next.account ticket).Tells result := by
  induction hruns with
  | refl => exact htells
  | tail hruns hstep ih =>
      exact (hstep.goes hregistered (Runs.sound hregistered hsound hruns) ticket).tells ih

/-- Who gets to a closed transport is told so. -/
theorem Runs.tells_closed (hruns : Runs engine traffic next)
    (hclosed : traffic.world.loopback.closed = true)
    (harrived : traffic.ledger.arrivals ticket < next.ledger.arrivals ticket) :
    ∃ result, (next.account ticket).Tells result ∧ TellsClosed result := by
  induction hruns with
  | refl => exact absurd harrived (Nat.lt_irrefl _)
  | @tail between last hruns hstep ih =>
      have hbetween := Runs.sound hregistered hsound hruns
      have hgoes := hstep.goes hregistered hbetween ticket
      by_cases hearlier : traffic.ledger.arrivals ticket < between.ledger.arrivals ticket
      · obtain ⟨result, htells, hresult⟩ := ih hearlier
        exact ⟨result, hgoes.tells htells, hresult⟩
      · rw [(Runs.serves hregistered hsound hruns).closed hclosed] at hgoes
        exact hgoes.tells_closed (Nat.lt_of_le_of_lt (Nat.le_of_not_lt hearlier) harrived)

end Runs

/-! ## Outcomes and the log -/

/-- What callers are told of their sends agrees with what the transport has counted and recorded, in
every run of a system in which a loopback transport serves `net.jms:send`.  The records are those of
the calls that were told `true`, one for each, and stay as they are; and whoever gets to the
transport after it was shut down is told that it is closed. -/
theorem outcomes_agree_with_log {blueprint : Blueprint} {engine : Engine} {world : World}
    (hbuild : blueprint.build = .ok (engine, world)) (hlooped : world.IsLooped)
    (hruns : Runs engine (ofWorld world) traffic) :
    (∀ ticket result, (traffic.account ticket).Tells result →
      Agrees result (traffic.ledger.arrivals ticket) (traffic.ledger.records ticket) ∧
        ∀ other, (traffic.account ticket).Tells other → other = result) ∧
    traffic.ledger.Covers world.loopback traffic.world.loopback ∧
    ∀ later, Runs engine traffic later →
      traffic.world.loopback.sent <+: later.world.loopback.sent ∧
      (∀ ticket result, (traffic.account ticket).Tells result →
        (later.account ticket).Tells result) ∧
      (traffic.world.loopback.closed = true → later.world.loopback.closed = true ∧
        ∀ ticket, traffic.ledger.arrivals ticket < later.ledger.arrivals ticket →
          ∃ result, (later.account ticket).Tells result ∧ TellsClosed result) := by
  have hregistered : engine.registry.find? Jms.action = some Jms.entry :=
    Blueprint.find?_of_build hbuild
      (List.mem_append_right _ (List.mem_singleton_self _)) Jms.describe_send
  have hnew := Blueprint.isNew_of_build hbuild
  have hstart := sound_ofWorld hlooped hnew.tasks hnew.deliveries
  have hsound := Runs.sound hregistered hstart hruns
  refine ⟨?_, ?_, ?_⟩
  · intro ticket result htells
    refine ⟨(hsound.accounts ticket).agrees htells, ?_⟩
    intro other hother
    exact (hsound.accounts ticket).tells_unique htells hother
  · apply (Runs.serves hregistered hstart hruns).covers
    exact ⟨rfl, (List.append_nil _).symm⟩
  · intro later hlater
    have hserves := Runs.serves hregistered hsound hlater
    refine ⟨hserves.sent, ?_, ?_⟩
    · intro ticket result htells
      exact Runs.tells hregistered hsound hlater htells
    · intro hclosed
      refine ⟨hserves.closed hclosed, ?_⟩
      intro ticket harrived
      exact Runs.tells_closed hregistered hsound hlater hclosed harrived

/-- A system with nothing but a loopback transport for `net.jms:send`. -/
def looped : Blueprint :=
  ⟨.default, [], [.loopback (.ofProtocol Jms.family)]⟩

/-- The arguments of a send to `orders` of whatever the message holds. -/
def order : List Value :=
  [.connector ⟨0, "broker", Jms.family, Dict.empty⟩, .string "orders", .string "generic",
    .message ⟨0⟩]

/-- Whether a send is told `true` in a new system. -/
def sends : Bool :=
  match looped.build with
  | .error _ => false
  | .ok (engine, world) =>
      match Entries.find? Jms.family world.transports,
        engine.enter Jms.action order (.ofTrace "trace") world with
      | some (.loopback _), .returned ⟨.ok (some (.boolean true)), _, _⟩ => true
      | _, _ => false

/-- A send in a new system is told `true` and has added one record. -/
theorem outcomes_agree_with_log_of_order :
    ∃ engine world traffic, looped.build = .ok (engine, world) ∧ world.IsLooped ∧
      Runs engine (ofWorld world) traffic ∧
      (traffic.account 0).Tells (.ok (some (.boolean true))) ∧
      traffic.ledger.arrivals 0 = 1 ∧ traffic.ledger.records 0 = 1 := by
  have hsends : sends = true := by decide +kernel
  simp only [sends] at hsends
  split at hsends
  · cases hsends
  · next engine world hbuild =>
    split at hsends
    · next transport context after hfind henter =>
      have hlooped := (World.looped_of_find hfind).1
      have hreturns := @Step.returns engine (ofWorld world) 0 order (.ofTrace "trace") _ rfl henter
      have hruns := Relation.ReflTransGen.single hreturns
      obtain ⟨hagrees, -, -⟩ := outcomes_agree_with_log hbuild hlooped hruns
      obtain ⟨⟨-, harrivals, hrecords⟩, -⟩ :=
        hagrees 0 (.ok (some (.boolean true))) (.inl rfl)
      exact ⟨engine, world, _, hbuild, hlooped, hruns, .inl rfl, harrivals, hrecords⟩
    · cases hsends

end Traffic

end Switchboard
