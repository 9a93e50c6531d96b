import Switchboard.World

/-!
Sending a request.

A send is launched when it reaches its transport.  It is settled at once, or it is in flight until
it lands.
-/

namespace Switchboard

/-- What a launch leads to. -/
inductive Launch where
  | settled (ending : SendEnd)
  | flying (flight : Flight)

namespace World

/-- The identity under which the next message is accepted. -/
def nextMessageId (world : World) : String :=
  "ID:" ++ (Identity.mk Identity.deliveries world.nextSend).text

/-- A request comes through a loopback transport.  When it is recorded and a reply is wanted, its
envelope goes back to the listener. -/
def comeThrough (world : World) (family : String) (transport : Loopback) (request : Request) :
    SendEnd × World :=
  match transport.comeThrough world.nextMessageId request with
  | (.reply reply, transport) =>
      (.reply reply,
        { world.setTransport family (.loopback transport) with
          nextSend := world.nextSend + 1
          replies := if request.wantsReply then world.replies ++ [request.envelope]
            else world.replies })
  | (ending, transport) => (ending, world.setTransport family (.loopback transport))

/-- A flight lands. -/
def land (world : World) (flight : Flight) : SendEnd × World :=
  if flight.inTime world.now then
    match flight.foreseen, world.transport flight.family with
    | some ending, _ => (ending, world)
    | none, .ok (.loopback transport) =>
        world.comeThrough flight.family transport flight.request
    | none, .ok (.peer _) => (.fault (.unavailable flight.family), world)
    | none, .error fault => (.fault fault, world)
  else (.fault (.timeout flight.limit), world)

/-- A send is in flight, unless it is due at once: then it lands at once. -/
def takeOff (world : World) (flight : Flight) : Launch × World :=
  if flight.due ≤ world.now then
    let (ending, world) := world.land flight
    (.settled ending, world)
  else (.flying flight, world)

/-- A request reaches the transport of a family. -/
def launch (world : World) (limit : Millis) (family : String) (request : Request) :
    Launch × World :=
  let flight (wake : Option Millis) (foreseen : Option SendEnd) : Flight :=
    ⟨family, request, limit, world.now + limit, wake, foreseen⟩
  match world.transport family with
  | .error fault => (.settled (.fault fault), world)
  | .ok (.loopback transport) =>
      match transport.arrive with
      | (.turnedAway ending, transport) =>
          (.settled ending, world.setTransport family (.loopback transport))
      | (.waiting delay, transport) =>
          (world.setTransport family (.loopback transport)).takeOff
            (flight (some (world.now + delay)) none)
      | (.admitted, transport) =>
          let (ending, world) := world.comeThrough family transport request
          (.settled ending, world)
  | .ok (.peer peer) =>
      let answer := peer.answer peer.seen request
      let world := world.setTransport family (.peer { peer with seen := peer.seen ++ [request] })
      match answer.delay with
      | some 0 => (.settled answer.ending, world)
      | delay =>
          world.takeOff (flight (delay.map fun delay => world.now + delay) (some answer.ending))

end World

end Switchboard
