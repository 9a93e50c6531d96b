import Switchboard.Proofs.Sends

/-!
Accounts of calls.

A call is known by a ticket.  Its account says where it stands with its caller, what is left to do
for it, what its callback was given, and how often it got to the transport and was recorded there.
The first three can be read off at any moment; the last two cannot, because the transport does not
know whom a record is from, so they are kept in a ledger as the calls go on.
-/

namespace Switchboard

/-- Where a call stands with its caller. -/
inductive Phase where
  | unused
  | waiting (waiting : Waiting)
  | returned (result : Except (Halt Failure) (Option Value))
  /-- The caller went on and left it to the callback. -/
  | entrusted

/-- All that is known of a call. -/
structure Account where
  phase : Phase
  tasks : List Task
  deliveries : List Delivery
  arrivals : Nat
  records : Nat

namespace Account

/-- The account of a call that was not made yet. -/
def blank : Account :=
  ⟨.unused, [], [], 0, 0⟩

/-- The call has come to this result, and the caller or the callback was given it. -/
def Tells (account : Account) (result : Except (Halt Failure) (Option Value)) : Prop :=
  account.phase = .returned result ∨
    ∃ delivery ∈ account.deliveries, delivery.result = result

/-- An account of a call of `net.jms:send` in which everything agrees. -/
inductive Sound : Account → Prop
  | blank : Sound .blank
  | waiting {waiting : Waiting} (hsend : waiting.IsSend) : Sound ⟨.waiting waiting, [], [], 1, 0⟩
  | returned {result : Except (Halt Failure) (Option Value)} {arrivals records : Nat}
      (hagrees : Agrees result arrivals records) :
      Sound ⟨.returned result, [], [], arrivals, records⟩
  | pending {task : Task} {arrived : Nat} (hsend : task.IsSend arrived) :
      Sound ⟨.entrusted, [task], [], arrived, 0⟩
  | delivered {delivery : Delivery} {arrivals records : Nat}
      (hagrees : Agrees delivery.result arrivals records) :
      Sound ⟨.entrusted, [], [delivery], arrivals, records⟩

variable {account before after : Account}
  {result other : Except (Halt Failure) (Option Value)}

theorem Sound.eq_blank (hsound : account.Sound) (hunused : account.phase = .unused) :
    account = .blank := by
  cases hsound with
  | blank => rfl
  | waiting | returned | pending | delivered => cases hunused

theorem Sound.eq_waiting {waiting : Waiting} (hsound : account.Sound)
    (hwaiting : account.phase = .waiting waiting) :
    account = ⟨.waiting waiting, [], [], 1, 0⟩ ∧ waiting.IsSend := by
  cases hsound with
  | waiting hsend =>
      cases hwaiting
      exact ⟨rfl, hsend⟩
  | blank | returned | pending | delivered => cases hwaiting

theorem Sound.eq_pending {task : Task} (hsound : account.Sound) (htask : task ∈ account.tasks) :
    ∃ arrived, account = ⟨.entrusted, [task], [], arrived, 0⟩ ∧ task.IsSend arrived := by
  cases hsound with
  | pending hsend =>
      obtain rfl := List.mem_singleton.1 htask
      exact ⟨_, rfl, hsend⟩
  | blank | waiting | returned | delivered => cases htask

/-- A call that has come to no result and was not recorded. -/
structure Open (account : Account) (arrived : Nat) : Prop where
  tells : ∀ result, ¬ account.Tells result
  arrivals : account.arrivals = arrived
  records : account.records = 0

theorem Open.of_eq {phase : Phase} {tasks : List Task} {arrived : Nat}
    (haccount : account = ⟨phase, tasks, [], arrived, 0⟩)
    (hphase : ∀ result, phase ≠ .returned result) : account.Open arrived := by
  subst haccount
  refine ⟨?_, rfl, rfl⟩
  rintro result (hreturned | ⟨delivery, hdelivery, -⟩)
  · exact hphase result hreturned
  · cases hdelivery

theorem Sound.agrees (hsound : account.Sound) (htells : account.Tells result) :
    Agrees result account.arrivals account.records := by
  cases hsound with
  | blank | waiting | pending =>
      rcases htells with hphase | ⟨delivery, hdelivery, -⟩
      · cases hphase
      · cases hdelivery
  | returned hagrees =>
      rcases htells with hphase | ⟨delivery, hdelivery, -⟩
      · cases hphase
        exact hagrees
      · cases hdelivery
  | delivered hagrees =>
      rcases htells with hphase | ⟨delivery, hdelivery, rfl⟩
      · cases hphase
      · obtain rfl := List.mem_singleton.1 hdelivery
        exact hagrees

/-- A call comes to one result. -/
theorem Sound.tells_unique (hsound : account.Sound) (htells : account.Tells result)
    (hother : account.Tells other) : other = result := by
  cases hsound with
  | blank | waiting | pending =>
      rcases htells with hphase | ⟨delivery, hdelivery, -⟩
      · cases hphase
      · cases hdelivery
  | returned =>
      rcases htells with hphase | ⟨delivery, hdelivery, -⟩
      · rcases hother with hphase' | ⟨delivery, hdelivery, -⟩
        · cases hphase
          cases hphase'
          rfl
        · cases hdelivery
      · cases hdelivery
  | delivered =>
      rcases htells with hphase | ⟨delivery, hdelivery, rfl⟩
      · cases hphase
      · rcases hother with hphase' | ⟨delivery', hdelivery', rfl⟩
        · cases hphase'
        · rw [List.mem_singleton.1 hdelivery, List.mem_singleton.1 hdelivery']

/-- What may happen to an account while the transport is closed or not: nothing, or a call that has
come to no result goes on, and when it gets to a closed transport it is told so. -/
inductive Goes (closed : Bool) : Account → Account → Prop
  | stays (account : Account) : Goes closed account account
  | on {before after : Account} {arrivals : Nat} (hopen : ∀ result, ¬ before.Tells result)
      (hsound : after.Sound) (harrivals : after.arrivals = before.arrivals + arrivals)
      (hclosed : closed = true → arrivals = 0 ∨ ∃ result, after.Tells result ∧ TellsClosed result) :
      Goes closed before after

variable {closed : Bool}

theorem Goes.sound (hgoes : Goes closed before after) (hsound : before.Sound) : after.Sound := by
  cases hgoes with
  | stays => exact hsound
  | on _ hsound => exact hsound

/-- A result stays. -/
theorem Goes.tells (hgoes : Goes closed before after) (htells : before.Tells result) :
    after.Tells result := by
  cases hgoes with
  | stays => exact htells
  | on hopen => exact absurd htells (hopen result)

theorem Goes.tells_closed (hgoes : Goes true before after)
    (harrived : before.arrivals < after.arrivals) :
    ∃ result, after.Tells result ∧ TellsClosed result := by
  cases hgoes with
  | stays => exact absurd harrived (Nat.lt_irrefl _)
  | on _ _ harrivals hclosed =>
      rcases hclosed rfl with hnone | htells
      · omega
      · exact htells

end Account

/-! ## The ledger -/

/-- Whose arrivals and records there were, oldest first. -/
structure Ledger where
  arrived : List Nat
  added : List (Nat × RecordedSend)

namespace Ledger

def empty : Ledger :=
  ⟨[], []⟩

/-- Charge a call with what happened to the transport. -/
def charge (ledger : Ledger) (ticket : Nat) (before after : Loopback) : Ledger where
  arrived := ledger.arrived ++ List.replicate (after.calls - before.calls) ticket
  added := ledger.added ++ (after.sent.drop before.sent.length).map fun record => (ticket, record)

/-- How often a call got to the transport. -/
def arrivals (ledger : Ledger) (ticket : Nat) : Nat :=
  ledger.arrived.count ticket

/-- How many records a call has added. -/
def records (ledger : Ledger) (ticket : Nat) : Nat :=
  (ledger.added.map Prod.fst).count ticket

variable (ledger : Ledger) {before after : Loopback}

theorem map_fst_charge (owner : Nat) (before after : Loopback) :
    (ledger.charge owner before after).added.map Prod.fst =
      ledger.added.map Prod.fst ++
        List.replicate (after.sent.length - before.sent.length) owner := by
  have howner : (Prod.fst ∘ fun record : RecordedSend => (owner, record)) = fun _ => owner := rfl
  simp only [charge]
  rw [List.map_append, List.map_map, howner, List.map_const', List.length_drop]

theorem charge_own (ticket : Nat) {arrivals records : Nat}
    (hadds : before.Adds after arrivals records) :
    (ledger.charge ticket before after).arrivals ticket = ledger.arrivals ticket + arrivals ∧
      (ledger.charge ticket before after).records ticket = ledger.records ticket + records := by
  constructor
  · simp only [charge, Ledger.arrivals]
    rw [List.count_append, List.count_replicate_self, hadds.calls, Nat.add_sub_cancel_left]
  · simp only [Ledger.records]
    rw [map_fst_charge, List.count_append, List.count_replicate_self, hadds.sent,
      Nat.add_sub_cancel_left]

theorem charge_others {owner ticket : Nat} (howner : owner ≠ ticket)
    (before after : Loopback) :
    (ledger.charge owner before after).arrivals ticket = ledger.arrivals ticket ∧
      (ledger.charge owner before after).records ticket = ledger.records ticket := by
  have hnone (n : Nat) : (List.replicate n owner).count ticket = 0 := by
    apply List.count_eq_zero_of_not_mem
    intro hmem
    exact howner (List.eq_of_mem_replicate hmem).symm
  constructor
  · simp only [charge, arrivals]
    rw [List.count_append, hnone, Nat.add_zero]
  · simp only [records]
    rw [map_fst_charge, List.count_append, hnone, Nat.add_zero]

/-- Everything that the transport has seen since then is in the ledger, in this order. -/
structure Covers (ledger : Ledger) (start now : Loopback) : Prop where
  calls : now.calls = start.calls + ledger.arrived.length
  sent : now.sent = start.sent ++ ledger.added.map Prod.snd

variable {ledger} {start : Loopback}

theorem Covers.charge (hcovers : ledger.Covers start before) (hserved : before.Served after)
    (ticket : Nat) : (ledger.charge ticket before after).Covers start after := by
  constructor
  · have hcalls := hserved.calls
    have hbefore := hcovers.calls
    simp only [Ledger.charge]
    rw [List.length_append, List.length_replicate]
    omega
  · obtain ⟨added, hadded⟩ := hserved.sent
    simp only [Ledger.charge]
    rw [List.map_append, List.map_map, ← List.append_assoc, ← hcovers.sent, ← hadded,
      List.drop_left]
    exact congrArg _ (List.map_id' added).symm

end Ledger

end Switchboard
