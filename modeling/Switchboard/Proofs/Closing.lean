import Switchboard.Proofs.Equality
import Switchboard.Proofs.Transports
import Switchboard.Proofs.Works
import Switchboard.Shutdown

/-!
Shutting down reaches every transport.

The transports are shut down one after the other, and each is waited for up to the limit.  Whatever
becomes of one of them, and whatever the tasks do that run meanwhile, the next one has its turn.  So
in whichever order they stand, every transport is asked once, those that fail or are too slow are
named once, and a loopback transport, which has nothing to wait for, is closed in the end.
-/

namespace Switchboard

/-- The family of the transport whose shutdown was asked for. -/
def Event.closing? : Event → Option String
  | .closing family => some family
  | _ => none

/-- The families whose transports were asked to shut down so far, oldest first. -/
def World.closings (world : World) : List String :=
  world.journal.filterMap Event.closing?

/-- The transport shuts down in time and without a failure. -/
inductive Transport.ClosesIn (limit : Millis) : Transport → Prop
  | loopback (transport : Loopback) : ClosesIn limit (.loopback transport)
  | peer {peer : Peer} {delay : Millis} (hdelay : peer.closing.delay = some delay)
      (hintime : delay ≤ limit) (hsucceeds : peer.closing.succeeds = true) :
      ClosesIn limit (.peer peer)

theorem Transport.closesWithin_iff {limit : Millis} {transport : Transport} :
    transport.closesWithin limit = true ↔ transport.ClosesIn limit := by
  cases transport with
  | loopback transport => exact iff_of_true rfl (.loopback transport)
  | peer peer =>
      rw [closesWithin]
      constructor
      · intro h
        split at h
        · next delay hdelay =>
          rw [Bool.and_eq_true, decide_eq_true_eq] at h
          exact .peer hdelay h.1 h.2
        · cases h
      · intro h
        cases h with
        | peer hdelay hintime hsucceeds =>
            rw [hdelay, hsucceeds]
            simpa using hintime

/-- The transport of a family is a loopback transport of this kind. -/
def World.Loops (world : World) (family : String) (kind : Loopback → Prop) : Prop :=
  ∃ transport, world.transport family = .ok (.loopback transport) ∧ kind transport

/-- What shutting down comes to, where these families have failed. -/
structure World.ShutsDown (world : World) (limit : Millis) (failed : List String) (next : World) :
    Prop where
  asked : ∃ families, families.Perm (Entries.names world.transports) ∧
    next.closings = world.closings ++ families
  named : ∀ family, family ∈ failed ↔
    ∃ transport, (family, transport) ∈ world.transports ∧ ¬ transport.ClosesIn limit
  once : failed.Nodup
  closed : ∀ family transport, (family, .loopback transport) ∈ world.transports →
    next.Loops family fun transport => transport.closed = true

namespace World

/-- Shut one transport down, and wait for it. -/
def closeOne (world : World) (limit : Millis) (entry : String × Transport) : World :=
  ((world.note (.closing entry.1)).updateTransport entry.1 Transport.afterClosing).waitUntil
    (world.now + entry.2.closingTime limit)

theorem closeAll_cons (world : World) (limit : Millis) (entry : String × Transport)
    (rest : Entries Transport) :
    world.closeAll limit (entry :: rest) =
      (if entry.2.closesWithin limit then ((world.closeOne limit entry).closeAll limit rest).1
        else entry.1 :: ((world.closeOne limit entry).closeAll limit rest).1,
        ((world.closeOne limit entry).closeAll limit rest).2) := rfl

/-! ## One transport -/

variable {world next : World} {limit : Millis} {family : String} {kind : Loopback → Prop}

/-- Nobody shuts a transport down while somebody waits. -/
theorem Lapses.closings (hlapses : Lapses world next) : next.closings = world.closings := by
  obtain ⟨events, hjournal, hentered⟩ := hlapses.journal
  have hnone : events.filterMap Event.closing? = [] := by
    refine List.filterMap_eq_nil_iff.2 fun event hmem => ?_
    have hnative := hentered event hmem
    cases event <;> first | rfl | cases hnative
  rw [World.closings, hjournal, List.filterMap_append, hnone, List.append_nil, World.closings]

theorem closings_closeOne (world : World) (limit : Millis) (entry : String × Transport) :
    (world.closeOne limit entry).closings = world.closings ++ [entry.1] := by
  have hnoted : ((world.note (.closing entry.1)).updateTransport entry.1
      Transport.afterClosing).closings = world.closings ++ [entry.1] := by
    have hjournal : ((world.note (.closing entry.1)).updateTransport entry.1
        Transport.afterClosing).journal = world.journal ++ [.closing entry.1] := by
      simp only [updateTransport]
      split <;> rfl
    rw [closings, hjournal, List.filterMap_append]
    rfl
  rw [closeOne, (lapses_waitUntil _ _).closings, hnoted]

/-- Sends leave a loopback transport of its kind if they do not matter to the kind. -/
theorem Loops.served (hloops : world.Loops family kind) (hserved : world.Served next)
    (hkind : ∀ {before after : Loopback}, before.Served after → kind before → kind after) :
    next.Loops family kind := by
  obtain ⟨transport, hfound, hheld⟩ := hloops
  have hrel := hserved family
  rw [find?_of_transport hfound] at hrel
  generalize hafter : Entries.find? family next.transports = found at hrel
  cases hrel with
  | some htransport =>
      cases htransport with
      | loopback hkept => exact ⟨_, transport_eq_ok_iff.2 hafter, hkind hkept hheld⟩

/-- So do shutdowns. -/
theorem Loops.afterClosing (hloops : world.Loops family kind)
    (hclose : ∀ {transport : Loopback}, kind transport → kind transport.close) (other : String) :
    (world.updateTransport other Transport.afterClosing).Loops family kind := by
  obtain ⟨transport, hfound, hheld⟩ := hloops
  rw [transport_eq_ok_iff] at hfound
  by_cases hother : other = family
  · subst hother
    refine ⟨transport.close, ?_, hclose hheld⟩
    rw [transport_eq_ok_iff, find?_updateTransport_self, hfound]
    rfl
  · refine ⟨transport, ?_, hheld⟩
    rw [transport_eq_ok_iff, find?_updateTransport hother, hfound]

/-- A loopback transport is closed as soon as it is asked to shut down. -/
theorem Loops.closed (hloops : world.Loops family kind) :
    (world.updateTransport family Transport.afterClosing).Loops family
      fun transport => transport.closed = true := by
  obtain ⟨transport, hfound, -⟩ := hloops
  rw [transport_eq_ok_iff] at hfound
  refine ⟨transport.close, ?_, rfl⟩
  rw [transport_eq_ok_iff, find?_updateTransport_self, hfound]
  rfl

theorem Loops.waitUntil (hloops : world.Loops family kind) (time : Millis)
    (hkind : ∀ {before after : Loopback}, before.Served after → kind before → kind after) :
    (world.waitUntil time).Loops family kind :=
  hloops.served (lapses_waitUntil world time).moves.served hkind

/-! ## All transports -/

section

variable (order : Entries Transport)

theorem closings_closeAll (world : World) (limit : Millis) :
    (world.closeAll limit order).2.closings = world.closings ++ Entries.names order := by
  induction order generalizing world with
  | nil => exact (List.append_nil _).symm
  | cons entry rest ih =>
      rw [closeAll_cons, ih, closings_closeOne, List.append_assoc]
      rfl

theorem failed_closeAll (world : World) (limit : Millis) :
    (world.closeAll limit order).1 =
      Entries.names (order.filter fun entry => !entry.2.closesWithin limit) := by
  induction order generalizing world with
  | nil => rfl
  | cons entry rest ih =>
      rw [closeAll_cons, ih, List.filter_cons]
      cases entry.2.closesWithin limit <;> rfl

/-- A loopback transport that is open or closed is served all the while. -/
theorem Loops.closeAll (hloops : world.Loops family kind) (limit : Millis)
    (hkind : ∀ {before after : Loopback}, before.Served after → kind before → kind after)
    (hclose : ∀ {transport : Loopback}, kind transport → kind transport.close) :
    (world.closeAll limit order).2.Loops family kind := by
  induction order generalizing world with
  | nil => exact hloops
  | cons entry rest ih =>
      rw [closeAll_cons]
      have hnoted : (world.note (.closing entry.1)).Loops family kind := hloops
      exact ih ((hnoted.afterClosing hclose entry.1).waitUntil _ hkind)

theorem closed_closeAll (hmem : family ∈ Entries.names order)
    (hloops : world.Loops family fun _ => True) (limit : Millis) :
    (world.closeAll limit order).2.Loops family fun transport => transport.closed = true := by
  induction order generalizing world with
  | nil => cases hmem
  | cons entry rest ih =>
      have hkept {before after : Loopback} (hserved : before.Served after)
          (hclosed : before.closed = true) : after.closed = true :=
        hserved.closed.trans hclosed
      have hnoted : (world.note (.closing entry.1)).Loops family fun _ => True := hloops
      rw [closeAll_cons]
      rcases List.mem_cons.1 hmem with rfl | hmem
      · exact (hnoted.closed.waitUntil _ hkept).closeAll rest limit hkept fun _ => rfl
      · exact ih hmem ((hnoted.afterClosing (fun _ => trivial) entry.1).waitUntil _
          fun _ _ => trivial)

/-- In whichever order the transports are shut down, every one of them has its turn. -/
theorem shutsDown_closeAll (hdistinct : (Entries.names world.transports).Nodup)
    {order : Entries Transport} (horder : order.Perm world.transports) (limit : Millis) :
    world.ShutsDown limit (world.closeAll limit order).1 (world.closeAll limit order).2 := by
  have hnames : (Entries.names order).Perm (Entries.names world.transports) :=
    horder.map Prod.fst
  constructor
  · exact ⟨Entries.names order, hnames, closings_closeAll order world limit⟩
  · intro family
    rw [failed_closeAll, Entries.names, List.mem_map]
    constructor
    · rintro ⟨⟨_, transport⟩, hmem, rfl⟩
      rw [List.mem_filter, horder.mem_iff, Bool.not_eq_true', Bool.eq_false_iff] at hmem
      exact ⟨transport, hmem.1, fun hcloses => hmem.2 (Transport.closesWithin_iff.2 hcloses)⟩
    · rintro ⟨transport, hmem, hfails⟩
      refine ⟨(family, transport), List.mem_filter.2 ⟨horder.mem_iff.2 hmem, ?_⟩, rfl⟩
      rw [Bool.not_eq_true', Bool.eq_false_iff]
      exact fun hcloses => hfails (Transport.closesWithin_iff.1 hcloses)
  · rw [failed_closeAll]
    exact (hnames.nodup_iff.2 hdistinct).sublist (List.filter_sublist.map Prod.fst)
  · intro family transport hmem
    refine closed_closeAll order (hnames.mem_iff.2 (Entries.mem_names hmem)) ?_ limit
    exact ⟨transport, transport_eq_ok_iff.2 (Entries.find?_of_mem hdistinct hmem), trivial⟩

end

/-- Shutting down reaches every transport, in whichever order they are taken: each is asked exactly
once, exactly those that fail or take longer than the limit are named, each once, and every loopback
transport is closed afterwards.  It succeeds exactly when all of them do. -/
theorem shutdown_reaches_every_transport (hdistinct : (Entries.names world.transports).Nodup)
    (limit : Millis) :
    (∀ order : Entries Transport, order.Perm world.transports →
      world.ShutsDown limit (world.closeAll limit order).1 (world.closeAll limit order).2) ∧
    (∃ failed, world.ShutsDown limit failed (world.shutdown limit).2 ∧
      (world.shutdown limit).1 =
        if failed = [] then .ok () else .error (.transportsLeftOpen failed)) ∧
    ((world.shutdown limit).1 = .ok () ↔ ∀ entry ∈ world.transports, entry.2.ClosesIn limit) := by
  have hany {order : Entries Transport} (horder : order.Perm world.transports) :=
    shutsDown_closeAll hdistinct horder limit
  have hsorted := hany (Entries.sorted_perm world.transports)
  have hshutdown : world.shutdown limit =
      (if (world.closeAll limit (Entries.sorted world.transports)).1 = [] then .ok ()
        else .error (.transportsLeftOpen
          (world.closeAll limit (Entries.sorted world.transports)).1),
        (world.closeAll limit (Entries.sorted world.transports)).2) := by
    simp only [shutdown]
    split
    · next heq => rw [heq, if_pos rfl]
    · next hfailed heq =>
      rw [heq, if_neg hfailed]
  generalize world.closeAll limit (Entries.sorted world.transports) = closed at hsorted hshutdown
  rw [hshutdown]
  refine ⟨fun order => hany, ⟨closed.1, hsorted, rfl⟩, ?_⟩
  have hnone : closed.1 = [] ↔ ∀ entry ∈ world.transports, entry.2.ClosesIn limit := by
    rw [List.eq_nil_iff_forall_not_mem]
    simp only [hsorted.named, not_exists, not_and, not_not, Prod.forall]
  rw [← hnone]
  split
  · next hnil => exact iff_of_true rfl hnil
  · next hsome => exact iff_of_false (by simp) hsome

/-- A peer of this family that accepts what it is sent and shuts down in this way. -/
def peerClosing (family : String) (closing : PeerClosing) : Transport :=
  .peer ⟨family, [], fun _ _ => ⟨some 0, .reply (.accept "")⟩, closing⟩

/-- A world with a loopback transport between one peer that fails at once and one that never shuts
down. -/
def crowded : World :=
  { World.start (.ofSlots 1) with
    transports := [("mqtt", peerClosing "mqtt" ⟨some 0, false⟩),
      ("jms", .loopback (.ofProtocol "jms")), ("amqp", peerClosing "amqp" ⟨none, true⟩)] }

theorem shutdown_reaches_every_transport_crowded :
    (Entries.names crowded.transports).Nodup ∧
      (crowded.shutdown 0).1 = .error (.transportsLeftOpen ["amqp", "mqtt"]) ∧
      crowded.ShutsDown 0 ["amqp", "mqtt"] (crowded.shutdown 0).2 := by
  have hdistinct : (Entries.names crowded.transports).Nodup := by decide
  have hfailed : (crowded.shutdown 0).1 = .error (.transportsLeftOpen ["amqp", "mqtt"]) :=
    rfl
  obtain ⟨failed, hshuts, hresult⟩ := (shutdown_reaches_every_transport hdistinct 0).2.1
  refine ⟨hdistinct, hfailed, ?_⟩
  rw [hfailed] at hresult
  split at hresult
  · cases hresult
  · cases hresult
    exact hshuts

end World

end Switchboard
