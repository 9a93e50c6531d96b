import Mathlib.Data.List.Infix
import Switchboard.Proofs.Courses
import Switchboard.Proofs.Traffic

/-!
Whatever goes on around one call.

Calls of any kind begin, wait and end, their tasks take steps, messages change, transports are
brought in and their settings turned, and time passes, in any order.  From the tasks of one ticket a
history of this is seen as the records that their steps add to the log of the transport of
`net.jms:send`.  What has been recorded stays as it is, whatever happens.
-/

namespace Switchboard

/-- The settings of a transport are turned; a peer may become any other. -/
inductive Transport.Turns : Transport → Transport → Prop
  | loopback {before after : Loopback} (hturns : before.Turns after) :
      Turns (.loopback before) (.loopback after)
  | peer (before after : Peer) : Turns (.peer before) (.peer after)

namespace World

/-- The records of `next` that are not in this world yet. -/
def added (world next : World) : List RecordedSend :=
  next.loopback.sent.drop world.loopback.sent.length

/-- Something happens, and the tasks of this ticket add these records meanwhile. -/
inductive Happens (ticket : Nat) : World → List RecordedSend → World → Prop
  | step {world next : World} (before : List Task) (task : Task) (after : List Task)
      (htasks : world.tasks = before ++ task :: after)
      (hnext : next = { (task.step world).2 with
        tasks := before ++ (task.step world).1.toList ++ after }) :
      Happens ticket world (if task.ticket = ticket then world.added next else []) next
  | quiet {world next : World} (hchange : Change world next) : Happens ticket world [] next
  /-- A call of another ticket leaves its task behind. -/
  | spawns (world : World) (task : Task) (howner : task.ticket ≠ ticket) :
      Happens ticket world [] (world.spawn task)
  | turns {world : World} {family : String} {before after : Transport}
      (hfind : Entries.find? family world.transports = some before)
      (hturns : before.Turns after) :
      Happens ticket world [] (world.setTransport family after)
  | registers {world next : World} {transport : Transport}
      (hregisters : world.registerTransport transport = .ok next) :
      Happens ticket world [] next
  /-- Messages change, callbacks fire, connectors are declared, or time passes. -/
  | elsewhere {world next : World} (htasks : next.tasks = world.tasks)
      (htransports : next.transports = world.transports) : Happens ticket world [] next

/-- One thing happens after the other, and the tasks of this ticket add these records. -/
inductive Unfolds (ticket : Nat) : World → List RecordedSend → World → Prop
  | refl (world : World) : Unfolds ticket world [] world
  | tail {world between next : World} {records more : List RecordedSend}
      (hunfolds : Unfolds ticket world records between)
      (hhappens : Happens ticket between more next) :
      Unfolds ticket world (records ++ more) next

variable {world between next : World} {ticket : Nat} {records more : List RecordedSend}

/-! ## The log only grows -/

theorem Served.sent (hserved : world.Served next) :
    world.loopback.sent <+: next.loopback.sent := by
  have hrel := hserved Jms.family
  simp only [loopback]
  generalize Entries.find? Jms.family world.transports = before at hrel ⊢
  generalize Entries.find? Jms.family next.transports = after at hrel ⊢
  cases hrel with
  | none => exact List.prefix_refl _
  | some htransport =>
      cases htransport with
      | loopback hkept => exact hkept.sent
      | peer => exact List.prefix_refl _

theorem sent_turns {family : String} {before after : Transport}
    (hfind : Entries.find? family world.transports = some before) (hturns : before.Turns after) :
    (world.setTransport family after).loopback.sent = world.loopback.sent := by
  have hset := Entries.find?_bind family Jms.family after world.transports
  simp only [loopback, setTransport, hset]
  by_cases hfamily : family = Jms.family
  · rw [if_pos hfamily, ← hfamily, hfind]
    cases hturns with
    | loopback hturned => cases hturned <;> rfl
    | peer => rfl
  · rw [if_neg hfamily]

theorem sent_registers {transport : Transport} (h : world.registerTransport transport = .ok next) :
    world.loopback.sent <+: next.loopback.sent := by
  obtain ⟨hfree, rfl⟩ := registerTransport_eq_ok h
  have hset := Entries.find?_bind transport.protocol Jms.family transport world.transports
  simp only [loopback, hset]
  by_cases hprotocol : transport.protocol = Jms.family
  · rw [hprotocol] at hfree
    rw [hfree]
    exact List.nil_prefix
  · rw [if_neg hprotocol]

theorem Happens.sent (h : Happens ticket world more next) :
    world.loopback.sent <+: next.loopback.sent := by
  cases h with
  | step before task after htasks hnext =>
      rw [hnext]
      exact (served_step world task).sent
  | quiet hchange => exact hchange.served.sent
  | spawns => exact List.prefix_refl _
  | turns hfind hturns => rw [sent_turns hfind hturns]
  | registers hregisters => exact sent_registers hregisters
  | elsewhere _ htransports => rw [loopback_congr htransports]

/-- What has been recorded stays as it is. -/
theorem Unfolds.sent (h : Unfolds ticket world records next) :
    world.loopback.sent <+: next.loopback.sent := by
  induction h with
  | refl => exact List.prefix_refl _
  | tail _ hhappens ih => exact ih.trans hhappens.sent

theorem mem_of_mem_added {record : RecordedSend} (h : record ∈ world.added next) :
    record ∈ next.loopback.sent :=
  List.mem_of_mem_drop h

theorem added_eq {records : List RecordedSend}
    (h : next.loopback.sent = world.loopback.sent ++ records) : world.added next = records := by
  rw [added, h, List.drop_left]

theorem Happens.mem_sent (h : Happens ticket world more next) :
    ∀ record ∈ more, record ∈ next.loopback.sent := by
  cases h with
  | step before task after htasks hnext =>
      intro record hrecord
      split at hrecord
      · exact mem_of_mem_added hrecord
      · cases hrecord
  | quiet | spawns | turns | registers | elsewhere => simp

/-- What the tasks of a ticket have added is in the log. -/
theorem Unfolds.mem_sent (h : Unfolds ticket world records next) :
    ∀ record ∈ records, record ∈ next.loopback.sent := by
  induction h with
  | refl => simp
  | tail _ hhappens ih =>
      intro record hrecord
      rcases List.mem_append.1 hrecord with hearlier | hnew
      · exact hhappens.sent.subset (ih record hearlier)
      · exact hhappens.mem_sent record hnew

/-! ## What engines do -/

theorem Unfolds.trans (hfirst : Unfolds ticket world records between)
    (hsecond : Unfolds ticket between more next) :
    Unfolds ticket world (records ++ more) next := by
  induction hsecond with
  | refl =>
      rw [List.append_nil]
      exact hfirst
  | tail _ hhappens ih =>
      rw [← List.append_assoc]
      exact .tail ih hhappens

theorem Changes.unfolds (hchanges : Changes world next) (ticket : Nat) :
    Unfolds ticket world [] next := by
  induction hchanges with
  | refl => exact .refl world
  | tail _ hchange ih => exact ih.tail (.quiet hchange)

theorem Move.happens (hmove : Move world next) (ticket : Nat) :
    ∃ more, Happens ticket world more next := by
  cases hmove with
  | quiet hchange => exact ⟨[], .quiet hchange⟩
  | lapse hlapse =>
      cases hlapse with
      | step before task after htasks => exact ⟨_, .step before task after htasks rfl⟩
      | pass time => exact ⟨[], .elsewhere rfl rfl⟩

/-- Evaluation, and whatever else is a row of moves, is something that may go on around a call. -/
theorem Moves.unfolds (hmoves : Moves world next) (ticket : Nat) :
    ∃ records, Unfolds ticket world records next := by
  induction hmoves with
  | refl => exact ⟨[], .refl world⟩
  | tail _ hmove ih =>
      obtain ⟨records, hunfolds⟩ := ih
      obtain ⟨more, hhappens⟩ := hmove.happens ticket
      exact ⟨records ++ more, hunfolds.tail hhappens⟩

end World

namespace Engine

variable (engine : Engine) {owner ticket : Nat} (howner : owner ≠ ticket)

include howner

/-- So is the beginning of a call with another callback. -/
theorem unfolds_start (name : String) (arguments : List Value) (context : Context)
    (world : World) :
    World.Unfolds ticket world [] (engine.start owner name arguments context world).2 := by
  rcases engine.start_cases owner name arguments context world with
    ⟨fault, -, hstart⟩ | ⟨entry, target, opened, head, rest, first, left, -, hopens⟩
  · have hnote : World.Changes world (world.note (.invoked .callback name arguments)) :=
      .single (.note world _)
    have hreport := hnote.trans (World.changes_reportIn _ context name fault)
    have hunfolds := World.Changes.unfolds hreport ticket
    rw [hstart]
    exact hunfolds.tail (.elsewhere rfl rfl)
  · have hadmitted : World.Changes world (world.admitted .callback name arguments context) :=
      .tail (.single (.note world _)) (.emit _ _)
    have hunfolds := World.Changes.unfolds (hadmitted.trans hopens.works.changes) ticket
    have hbegun := hopens.begun
    generalize engine.start owner name arguments context world = began at hbegun ⊢
    cases hbegun with
    | delivered => exact hunfolds.tail (.elsewhere rfl rfl)
    | spawned task hticket =>
        have hother : task.ticket ≠ ticket := by
          rw [hticket]
          exact howner
        exact hunfolds.tail (.spawns opened task hother)
    | panicked => exact hunfolds

/-- And so is the start of an expression with another callback, with its arguments and all. -/
theorem unfolds_startExpr (expr : Expr) (context : Context) (world : World) :
    ∃ records, World.Unfolds ticket world records
      (engine.startExpr owner expr context world).2 := by
  cases expr with
  | call function arguments location =>
      obtain ⟨records, harguments⟩ :=
        (engine.moves_evaluateAll arguments context world).unfolds ticket
      simp only [startExpr]
      split
      · next values _ =>
        exact ⟨_, harguments.trans (engine.unfolds_start howner function values _ _)⟩
      · exact ⟨_, harguments.tail (.elsewhere rfl rfl)⟩
      · exact ⟨records, harguments⟩
  | literal | var | binary => exact ⟨_, (World.Unfolds.refl world).tail (.elsewhere rfl rfl)⟩

end Engine

end Switchboard
