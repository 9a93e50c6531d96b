import Switchboard.Proofs.Waiting

/-!
What sends do to the transports.

However many requests meet a transport, its settings stay as they are: only its counter goes on and
its records grow at the end.  No call brings a transport in or takes one away.  So what the settings
of a transport decide, such as whether it panics, is decided before any call is made.
-/

namespace Switchboard

/-- What sends make of a loopback transport. -/
structure Loopback.Served (before after : Loopback) : Prop where
  protocol : after.protocol = before.protocol
  fault : after.fault = before.fault
  delay : after.delay = before.delay
  panicking : after.panicking = before.panicking
  closed : after.closed = before.closed
  calls : before.calls ≤ after.calls
  sent : before.sent <+: after.sent

namespace Loopback.Served

theorem refl (transport : Loopback) : Served transport transport :=
  ⟨rfl, rfl, rfl, rfl, rfl, Nat.le_refl _, List.prefix_refl _⟩

theorem trans {first second third : Loopback} (hfirst : Served first second)
    (hsecond : Served second third) : Served first third where
  protocol := hsecond.protocol.trans hfirst.protocol
  fault := hsecond.fault.trans hfirst.fault
  delay := hsecond.delay.trans hfirst.delay
  panicking := hsecond.panicking.trans hfirst.panicking
  closed := hsecond.closed.trans hfirst.closed
  calls := Nat.le_trans hfirst.calls hsecond.calls
  sent := hfirst.sent.trans hsecond.sent

theorem arrive (transport : Loopback) : Served transport transport.arrive.2 :=
  ⟨rfl, rfl, rfl, rfl, rfl, Nat.le_succ _, List.prefix_refl _⟩

theorem comeThrough (transport : Loopback) (messageId : String) (request : Request) :
    Served transport (transport.comeThrough messageId request).2 := by
  simp only [Loopback.comeThrough]
  split
  · exact refl transport
  · exact ⟨rfl, rfl, rfl, rfl, rfl, Nat.le_refl _, List.prefix_append _ _⟩

end Loopback.Served

/-- What sends make of a transport. -/
inductive Transport.Served : Transport → Transport → Prop
  | loopback {before after : Loopback} (hserved : before.Served after) :
      Served (.loopback before) (.loopback after)
  | peer {before after : Peer} (hprotocol : after.protocol = before.protocol)
      (hanswer : after.answer = before.answer) (hclosing : after.closing = before.closing)
      (hseen : before.seen <+: after.seen) : Served (.peer before) (.peer after)

namespace Transport.Served

theorem refl (transport : Transport) : Served transport transport := by
  cases transport with
  | loopback transport => exact .loopback (.refl transport)
  | peer peer => exact .peer rfl rfl rfl (List.prefix_refl _)

theorem trans {first second third : Transport} (hfirst : Served first second)
    (hsecond : Served second third) : Served first third := by
  cases hfirst with
  | loopback hbefore =>
      cases hsecond with
      | loopback hafter => exact .loopback (hbefore.trans hafter)
  | peer hprotocol hanswer hclosing hseen =>
      cases hsecond with
      | peer hprotocol' hanswer' hclosing' hseen' =>
          exact .peer (hprotocol'.trans hprotocol) (hanswer'.trans hanswer)
            (hclosing'.trans hclosing) (hseen.trans hseen')

end Transport.Served

namespace World

/-- Every family is served by the transport it had, after some sends perhaps. -/
def Served (world next : World) : Prop :=
  ∀ family, Option.Rel Transport.Served (Entries.find? family world.transports)
    (Entries.find? family next.transports)

namespace Served

theorem of_transports_eq {world next : World} (h : next.transports = world.transports) :
    Served world next := by
  intro family
  rw [h]
  cases Entries.find? family world.transports with
  | none => exact .none
  | some transport => exact .some (.refl transport)

theorem refl (world : World) : Served world world :=
  of_transports_eq rfl

theorem trans {first second third : World} (hfirst : Served first second)
    (hsecond : Served second third) : Served first third := by
  intro family
  have hbefore := hfirst family
  have hafter := hsecond family
  generalize Entries.find? family first.transports = transport at hbefore ⊢
  generalize Entries.find? family second.transports = transport at hbefore hafter
  generalize Entries.find? family third.transports = transport at hafter ⊢
  cases hbefore with
  | none => exact hafter
  | some hserved =>
      cases hafter with
      | some hserved' => exact .some (hserved.trans hserved')

theorem setTransport {world : World} {family : String} {transport after : Transport}
    (hfind : Entries.find? family world.transports = some transport)
    (hserved : transport.Served after) : Served world (world.setTransport family after) := by
  intro other
  have hset : Entries.find? other (world.setTransport family after).transports =
      if family = other then some after else Entries.find? other world.transports :=
    Entries.find?_bind family other after world.transports
  rw [hset]
  by_cases hother : family = other
  · subst hother
    rw [hfind, if_pos rfl]
    exact .some hserved
  · rw [if_neg hother]
    exact refl world other

end Served

theorem transport_eq_ok_iff {world : World} {family : String} {transport : Transport} :
    world.transport family = .ok transport ↔
      Entries.find? family world.transports = some transport := by
  rw [World.transport]
  cases Entries.find? family world.transports <;> simp

theorem find?_of_transport {world : World} {family : String} {transport : Transport}
    (h : world.transport family = .ok transport) :
    Entries.find? family world.transports = some transport :=
  transport_eq_ok_iff.1 h

/-- A change to the transport of a family changes the one that is found. -/
theorem find?_updateTransport_self (world : World) (family : String)
    (change : Transport → Transport) :
    Entries.find? family (world.updateTransport family change).transports =
      (Entries.find? family world.transports).map change := by
  simp only [updateTransport]
  split
  · next transport hfound =>
    have hset := Entries.find?_bind family family (change transport) world.transports
    rw [if_pos rfl] at hset
    rw [hfound]
    exact hset
  · next hnone => rw [hnone, Option.map_none]

/-- What is done to one transport is nothing to those of other families. -/
theorem find?_updateTransport {family other : String} (hother : family ≠ other) (world : World)
    (change : Transport → Transport) :
    Entries.find? other (world.updateTransport family change).transports =
      Entries.find? other world.transports := by
  simp only [updateTransport]
  split
  · next transport _ =>
    have hset := Entries.find?_bind family other (change transport) world.transports
    rw [if_neg hother] at hset
    exact hset
  · rfl

theorem served_comeThrough {world : World} {family : String} {transport : Loopback}
    {found : Loopback} (hfind : Entries.find? family world.transports = some (.loopback found))
    (hserved : found.Served transport) (request : Request) :
    Served world (world.comeThrough family transport request).2 := by
  have hthrough := hserved.trans (.comeThrough transport world.nextMessageId request)
  simp only [comeThrough]
  split
  · next reply after heq =>
    rw [heq] at hthrough
    have hset := Served.setTransport hfind (.loopback hthrough)
    exact hset.trans (.of_transports_eq rfl)
  · next ending after _ heq =>
    rw [heq] at hthrough
    exact Served.setTransport hfind (.loopback hthrough)

theorem served_land (world : World) (flight : Flight) :
    Served world (world.land flight).2 := by
  simp only [land]
  split
  · split
    · exact .refl world
    · next transport _ hfind =>
      exact served_comeThrough (find?_of_transport hfind) (.refl transport) _
    · exact .refl world
    · exact .refl world
  · exact .refl world

theorem served_takeOff (world : World) (flight : Flight) :
    Served world (world.takeOff flight).2 := by
  simp only [takeOff]
  split
  · exact served_land world flight
  · exact .refl world

theorem served_launch (world : World) (limit : Millis) (family : String) (request : Request) :
    Served world (world.launch limit family request).2 := by
  simp only [launch]
  split
  · exact .refl world
  · next transport htransport =>
    have hfind := find?_of_transport htransport
    have harrive := Loopback.Served.arrive transport
    split
    · next heq =>
      rw [heq] at harrive
      exact .setTransport hfind (.loopback harrive)
    · next heq =>
      rw [heq] at harrive
      exact (Served.setTransport hfind (.loopback harrive)).trans (served_takeOff _ _)
    · next heq =>
      rw [heq] at harrive
      exact served_comeThrough hfind harrive request
  · next peer htransport =>
    have hseen : Transport.Served (.peer peer)
        (.peer { peer with seen := peer.seen ++ [request] }) :=
      .peer rfl rfl rfl (List.prefix_append _ _)
    have hset := Served.setTransport (find?_of_transport htransport) hseen
    split
    · exact hset
    · exact hset.trans (served_takeOff _ _)

theorem Change.served {world next : World} (hchange : Change world next) :
    Served world next := by
  cases hchange with
  | note | emit | store | complete => exact .of_transports_eq rfl
  | launch limit family request => exact served_launch world limit family request
  | land flight => exact served_land world flight

theorem Changes.served {world next : World} (hchanges : Changes world next) :
    Served world next := by
  induction hchanges with
  | refl => exact .refl _
  | tail _ hchange ih => exact ih.trans hchange.served

theorem served_step (world : World) (task : Task) : Served world (task.step world).2 := by
  rcases task.step_cases world with
    ⟨_, _, _, hchanges, -, -⟩ | ⟨_, before, outcome, hchanges, hnext⟩
  · exact hchanges.served
  · rw [hnext]
    exact hchanges.served.trans (.of_transports_eq rfl)

theorem Lapse.served {world next : World} (hlapse : Lapse world next) : Served world next := by
  cases hlapse with
  | pass => exact .of_transports_eq rfl
  | step before task after htasks =>
      exact (served_step world task).trans (.of_transports_eq rfl)

theorem Move.served {world next : World} (hmove : Move world next) : Served world next := by
  cases hmove with
  | quiet hchange => exact hchange.served
  | lapse hlapse => exact hlapse.served

theorem Moves.served {world next : World} (hmoves : Moves world next) : Served world next := by
  induction hmoves with
  | refl => exact .refl _
  | tail _ hmove ih => exact ih.trans hmove.served

end World

end Switchboard
