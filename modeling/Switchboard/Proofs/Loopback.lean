import Switchboard.Jms
import Switchboard.Proofs.Transports

/-!
A send meets a loopback transport.

On arrival the counter goes on by one, whatever becomes of the send.  When the send comes through,
on arrival or when its flight lands, it is recorded at the end of the log; every other end leaves
the log alone.  A closed transport turns every send away.
-/

namespace Switchboard

/-- How a send ended that found the transport in one state and left it in another. -/
inductive Loopback.Ends (before after : Loopback) : SendEnd → Prop
  | accepted (reply : Reply) (record : RecordedSend) (haccepted : reply.accepted = true)
      (hsent : after.sent = before.sent ++ [record]) : Ends before after (.reply reply)
  | failed (fault : TransportFault) (hsent : after.sent = before.sent) :
      Ends before after (.fault fault)
  | panicked (hsent : after.sent = before.sent) : Ends before after .panicked

/-- A flight of a send through a loopback transport for `net.jms:send`. -/
structure Flight.IsLooped (flight : Flight) : Prop where
  family : flight.family = Jms.family
  foreseen : flight.foreseen = none

/-- How a send arrived that found the transport in one state and left it in another. -/
inductive Loopback.Receives (before after : Loopback) : Launch → Prop
  | settled {ending : SendEnd} (hends : before.Ends after ending)
      (hclosed : before.closed = true → ending = .fault .closed) :
      Receives before after (.settled ending)
  | flying {flight : Flight} (hflight : flight.IsLooped) (hsent : after.sent = before.sent)
      (hopen : before.closed = false) : Receives before after (.flying flight)

theorem Loopback.comeThrough_ends (transport : Loopback) (messageId : String)
    (request : Request) :
    transport.Ends (transport.comeThrough messageId request).2
        (transport.comeThrough messageId request).1 ∧
      (transport.comeThrough messageId request).2.calls = transport.calls := by
  simp only [Loopback.comeThrough]
  split
  · exact ⟨.failed _ rfl, rfl⟩
  · exact ⟨.accepted _ _ rfl rfl, rfl⟩

/-- The transport after one more arrival. -/
def Loopback.counted (transport : Loopback) : Loopback :=
  { transport with calls := transport.calls + 1 }

theorem Loopback.Ends.of_counted {transport after : Loopback} {ending : SendEnd}
    (h : transport.counted.Ends after ending) : transport.Ends after ending := by
  cases h with
  | accepted reply record haccepted hsent => exact .accepted reply record haccepted hsent
  | failed fault hsent => exact .failed fault hsent
  | panicked hsent => exact .panicked hsent

theorem Loopback.Receives.of_counted {transport after : Loopback} {launch : Launch}
    (h : transport.counted.Receives after launch) : transport.Receives after launch := by
  cases h with
  | settled hends hclosed => exact .settled hends.of_counted hclosed
  | flying hflight hsent hopen => exact .flying hflight hsent hopen

/-- Only a closed transport answers that it is closed, and it answers nothing else. -/
theorem Loopback.arrive_cases (transport : Loopback) :
    (transport.closed = true ∧
        transport.arrive = (.turnedAway (.fault .closed), transport.counted)) ∨
      (transport.closed = false ∧ (transport.arrive = (.turnedAway .panicked, transport.counted) ∨
        (∃ delay, transport.arrive = (.waiting delay, transport.counted)) ∨
          transport.arrive = (.admitted, transport.counted))) := by
  simp only [Loopback.arrive, Loopback.counted]
  cases transport.closed with
  | true => exact .inl ⟨rfl, rfl⟩
  | false =>
      refine .inr ⟨rfl, ?_⟩
      cases transport.panicking with
      | true => exact .inl rfl
      | false =>
          right
          rcases transport.delay with _ | _ | delay
          · exact .inr rfl
          · exact .inr rfl
          · exact .inl ⟨delay + 1, rfl⟩

namespace World

/-- The loopback transport that serves the connectors of `net.jms:send`, where there is one. -/
def loopback (world : World) : Loopback :=
  match Entries.find? Jms.family world.transports with
  | some (.loopback transport) => transport
  | _ => .ofProtocol Jms.family

/-- The connectors of `net.jms:send` are served by a loopback transport. -/
def IsLooped (world : World) : Prop :=
  Entries.find? Jms.family world.transports = some (.loopback world.loopback)

variable {world next : World}

theorem looped_of_find {transport : Loopback}
    (h : Entries.find? Jms.family world.transports = some (.loopback transport)) :
    world.IsLooped ∧ world.loopback = transport := by
  have hloopback : world.loopback = transport := by
    simp only [loopback]
    rw [h]
  refine ⟨?_, hloopback⟩
  simp only [IsLooped]
  rw [hloopback]
  exact h

theorem IsLooped.transport (h : world.IsLooped) :
    world.transport Jms.family = .ok (.loopback world.loopback) := by
  simp only [World.transport]
  rw [h]

theorem IsLooped.setTransport (world : World) (transport : Loopback) :
    (world.setTransport Jms.family (.loopback transport)).IsLooped ∧
      (world.setTransport Jms.family (.loopback transport)).loopback = transport := by
  apply looped_of_find
  have hset := Entries.find?_bind Jms.family Jms.family (.loopback transport) world.transports
  rw [if_pos rfl] at hset
  exact hset

/-- Where a loopback transport serves it goes on serving, and its settings stay. -/
theorem Served.looped (hserved : world.Served next) (h : world.IsLooped) :
    next.IsLooped ∧ world.loopback.Served next.loopback := by
  have hrel := hserved Jms.family
  rw [h] at hrel
  generalize hafter : Entries.find? Jms.family next.transports = found at hrel
  cases hrel with
  | some htransport =>
      cases htransport with
      | loopback hkept =>
          obtain ⟨hnext, hloopback⟩ := looped_of_find hafter
          rw [hloopback]
          exact ⟨hnext, hkept⟩

theorem loopback_congr (h : next.transports = world.transports) :
    next.loopback = world.loopback := by
  simp only [loopback]
  rw [h]

theorem IsLooped.congr (hlooped : world.IsLooped) (h : next.transports = world.transports) :
    next.IsLooped := by
  simp only [IsLooped]
  rw [loopback_congr h, h]
  exact hlooped

theorem comeThrough_eq (world : World) (transport : Loopback) (request : Request) :
    (world.comeThrough Jms.family transport request).1 =
        (transport.comeThrough world.nextMessageId request).1 ∧
      (world.comeThrough Jms.family transport request).2.loopback =
        (transport.comeThrough world.nextMessageId request).2 := by
  have hset (after : Loopback) : (world.setTransport Jms.family (.loopback after)).loopback =
      after := (IsLooped.setTransport world after).2
  simp only [comeThrough]
  rcases transport.comeThrough world.nextMessageId request with ⟨_ | _ | _, after⟩
  · exact ⟨rfl, (loopback_congr rfl).trans (hset after)⟩
  · exact ⟨rfl, hset after⟩
  · exact ⟨rfl, hset after⟩

theorem comeThrough_ends (world : World) (transport : Loopback) (request : Request) :
    transport.Ends (world.comeThrough Jms.family transport request).2.loopback
        (world.comeThrough Jms.family transport request).1 ∧
      (world.comeThrough Jms.family transport request).2.loopback.calls = transport.calls := by
  obtain ⟨hending, hloopback⟩ := comeThrough_eq world transport request
  rw [hending, hloopback]
  exact transport.comeThrough_ends world.nextMessageId request

theorem land_ends (h : world.IsLooped) {flight : Flight} (hflight : flight.IsLooped) :
    world.loopback.Ends (world.land flight).2.loopback (world.land flight).1 ∧
      (world.land flight).2.loopback.calls = world.loopback.calls := by
  simp only [land]
  rw [hflight.foreseen, hflight.family, h.transport]
  by_cases htime : flight.inTime world.now = true
  · rw [if_pos htime]
    exact comeThrough_ends world world.loopback flight.request
  · rw [if_neg htime]
    exact ⟨.failed _ rfl, rfl⟩

theorem takeOff_receives (h : world.IsLooped) {flight : Flight} (hflight : flight.IsLooped)
    (hopen : world.loopback.closed = false) :
    world.loopback.Receives (world.takeOff flight).2.loopback (world.takeOff flight).1 ∧
      (world.takeOff flight).2.loopback.calls = world.loopback.calls := by
  simp only [takeOff]
  by_cases hdue : flight.due ≤ world.now
  · rw [if_pos hdue]
    obtain ⟨hends, hcalls⟩ := land_ends h hflight
    refine ⟨.settled hends ?_, hcalls⟩
    intro hclosed
    rw [hopen] at hclosed
    cases hclosed
  · rw [if_neg hdue]
    exact ⟨.flying hflight rfl hopen, rfl⟩

/-- A send that reaches its transport is counted. -/
theorem launch_receives (h : world.IsLooped) (limit : Millis) (request : Request) :
    world.loopback.Receives (world.launch limit Jms.family request).2.loopback
        (world.launch limit Jms.family request).1 ∧
      (world.launch limit Jms.family request).2.loopback.calls = world.loopback.calls + 1 := by
  obtain ⟨hlooped, hcounted⟩ := IsLooped.setTransport world world.loopback.counted
  simp only [launch]
  rw [h.transport]
  rcases world.loopback.arrive_cases with
    ⟨hclosed, harrive⟩ | ⟨hopen, harrive | ⟨delay, harrive⟩ | harrive⟩
  · dsimp only
    rw [harrive]
    dsimp only
    rw [hcounted]
    exact ⟨.settled (.failed _ rfl) fun _ => rfl, rfl⟩
  · dsimp only
    rw [harrive]
    dsimp only
    rw [hcounted]
    exact ⟨.settled (.panicked rfl) fun hclosed => absurd hclosed (by rw [hopen]; decide), rfl⟩
  · dsimp only
    rw [harrive]
    dsimp only
    have hflight : Flight.IsLooped ⟨Jms.family, request, limit, world.now + limit,
        some (world.now + delay), none⟩ := ⟨rfl, rfl⟩
    obtain ⟨hreceives, hcalls⟩ := takeOff_receives hlooped hflight (by rw [hcounted]; exact hopen)
    rw [hcounted] at hreceives hcalls
    exact ⟨hreceives.of_counted, hcalls⟩
  · dsimp only
    rw [harrive]
    dsimp only
    obtain ⟨hends, hcalls⟩ := comeThrough_ends world world.loopback.counted request
    exact ⟨.settled hends.of_counted fun hclosed => absurd hclosed (by rw [hopen]; decide), hcalls⟩

end World

end Switchboard
