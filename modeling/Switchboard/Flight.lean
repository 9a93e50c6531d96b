import Switchboard.Envelope

/-!
Sends under way.

A send that its transport lets wait is in flight: the transport will look at it again at some
moment, or never, and there is a deadline.  From whichever comes first the flight may land.  When it
lands the transport is asked first: if its moment has come it has the word, and otherwise the send
timed out and leaves no trace.
-/

namespace Switchboard

/-- A send that its transport lets wait. -/
structure Flight where
  family : String
  request : Request
  limit : Millis
  deadline : Millis
  /-- When the transport looks at the send again. -/
  wake : Option Millis
  /-- How the send will end, when the transport knew on arrival. -/
  foreseen : Option SendEnd

namespace Flight

/-- The moment from which a flight may land. -/
def due (flight : Flight) : Millis :=
  match flight.wake with
  | some time => min time flight.deadline
  | none => flight.deadline

/-- Whether the transport has the word when the flight lands now. -/
def inTime (flight : Flight) (now : Millis) : Bool :=
  match flight.wake with
  | some time => time ≤ now
  | none => false

end Flight

end Switchboard
