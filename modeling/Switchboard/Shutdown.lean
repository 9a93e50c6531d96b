import Switchboard.Schedule

/-!
Shutting the transports down.
-/

namespace Switchboard.World

/-- Shut these transports down one after the other, each within `limit`, and collect the families
that did not make it. -/
def closeAll (world : World) (limit : Millis) : Entries Transport → List String × World
  | [] => ([], world)
  | (family, transport) :: rest =>
      let closed := (world.note (.closing family)).updateTransport family Transport.afterClosing
      let waited := closed.waitUntil (world.now + transport.closingTime limit)
      let (left, world) := waited.closeAll limit rest
      (if transport.closesWithin limit then left else family :: left, world)

/-- Shut every transport down, in increasing order of their families.  One that fails does not
spare the others. -/
def shutdown (world : World) (limit : Millis) : Except EngineFault Unit × World :=
  match world.closeAll limit (Entries.sorted world.transports) with
  | ([], world) => (.ok (), world)
  | (families, world) => (.error (.transportsLeftOpen families), world)

end Switchboard.World
