import Switchboard.Transport.Loopback

/-!
Transports.

A transport is a loopback, or a peer outside the library that is known by its behaviour only: how
it answers a request after those that came before, how long that takes, and how it shuts down.
-/

namespace Switchboard

/-- How a peer answers one request: after a while, or never. -/
structure PeerAnswer where
  delay : Option Millis
  ending : SendEnd

/-- How a peer shuts down: after a while, or never, and whether it succeeds. -/
structure PeerClosing where
  delay : Option Millis
  succeeds : Bool

/-- A transport known by its behaviour. -/
structure Peer where
  protocol : String
  /-- Requests that arrived so far, oldest first. -/
  seen : List Request
  answer : List Request → Request → PeerAnswer
  closing : PeerClosing

/-- Any transport. -/
inductive Transport where
  | loopback (transport : Loopback)
  | peer (peer : Peer)

namespace Transport

/-- The protocol family that the transport serves. -/
def protocol : Transport → String
  | loopback transport => transport.protocol
  | peer transport => transport.protocol

/-- Number of requests that arrived. -/
def calls : Transport → Nat
  | loopback transport => transport.calls
  | peer transport => transport.seen.length

/-- Whether shutting the transport down succeeds within `limit`. -/
def closesWithin (limit : Millis) : Transport → Bool
  | loopback _ => true
  | peer transport =>
      match transport.closing.delay with
      | some delay => delay ≤ limit && transport.closing.succeeds
      | none => false

/-- How long the shutdown is waited for. -/
def closingTime (limit : Millis) : Transport → Millis
  | loopback _ => 0
  | peer transport => min (transport.closing.delay.getD limit) limit

/-- The transport after its shutdown was asked for. -/
def afterClosing : Transport → Transport
  | loopback transport => loopback transport.close
  | peer transport => peer transport

end Transport

end Switchboard
