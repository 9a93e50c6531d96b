import Switchboard.Envelope

/-!
A transport that keeps what it is given.

Every send that comes through is recorded in order.  The transport can be told to fail, to stall,
or to panic, and it can be closed for good.  A send meets the transport twice: on arrival, where it
is counted and may be turned away or told to wait, and again when it goes through, where it may
fail or be recorded.  What was changed while it waited counts only in the second meeting.
-/

namespace Switchboard

/-- A send as the transport saw it. -/
structure RecordedSend where
  messageId : String
  envelope : Envelope
  properties : Dict String
deriving DecidableEq

/-- The state of a loopback transport. -/
structure Loopback where
  protocol : String
  /-- Sends that came through, oldest first. -/
  sent : List RecordedSend
  /-- Number of arrivals. -/
  calls : Nat
  /-- What every send fails with. -/
  fault : Option TransportFault
  /-- How long every send waits first. -/
  delay : Option Millis
  panicking : Bool
  closed : Bool

/-- What becomes of a send on arrival. -/
inductive Arrival where
  | turnedAway (ending : SendEnd)
  | waiting (delay : Millis)
  | admitted
deriving DecidableEq

namespace Loopback

def ofProtocol (protocol : String) : Loopback :=
  ⟨protocol, [], 0, none, none, false, false⟩

def failWith (transport : Loopback) (fault : TransportFault) : Loopback :=
  { transport with fault := some fault }

def recover (transport : Loopback) : Loopback :=
  { transport with fault := none }

def stall (transport : Loopback) (delay : Millis) : Loopback :=
  { transport with delay := some delay }

def panicOnSend (transport : Loopback) : Loopback :=
  { transport with panicking := true }

def close (transport : Loopback) : Loopback :=
  { transport with closed := true }

/-- A send comes through, under this message identity unless the transport is told to fail. -/
def comeThrough (transport : Loopback) (messageId : String) (request : Request) :
    SendEnd × Loopback :=
  match transport.fault with
  | some fault => (.fault fault, transport)
  | none =>
      (.reply (.accept messageId),
        { transport with
          sent := transport.sent ++ [⟨messageId, request.envelope, request.properties⟩] })

/-- A send arrives.  A closed transport turns it away, a panicking one panics, a stalling one lets
it wait, and any other admits it at once. -/
def arrive (transport : Loopback) : Arrival × Loopback :=
  let counted := { transport with calls := transport.calls + 1 }
  let arrival :=
    if transport.closed then .turnedAway (.fault .closed)
    else if transport.panicking then .turnedAway .panicked
    else
      match transport.delay with
      | some (delay + 1) => .waiting (delay + 1)
      | _ => .admitted
  (arrival, counted)

end Loopback

end Switchboard
