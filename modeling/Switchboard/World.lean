import Switchboard.Diagnostic.Broadcast
import Switchboard.Diagnostic
import Switchboard.Error
import Switchboard.Task
import Switchboard.Transport

/-!
Everything that changes while an engine runs.

A world holds the messages, the declared connectors, the transports, the diagnostics emitted so far
and the broadcast that spreads them, the clock, the tasks that have not come to their end, and what
callbacks were given.  Its journal lists
every call handed to the dispatcher and every piece of native code that was entered, in order.
Everything in a world is data, so two runs can be compared and any moment can be looked at.
-/

namespace Switchboard

/-- Something the journal keeps. -/
inductive Event where
  | invoked (mode : CallMode) (name : String) (arguments : List Value)
  | executed (name : String) (arguments : List Value)
  | validated (name : String) (arguments : List Value)
  | prepared (name : String) (arguments : List Value)
  | completed (name : String) (reply : Reply)
  | closing (family : String)

/-- The piece of native code that was entered: the name of the call, followed for an action by the
part of it. -/
def Event.entered? : Event → Option String
  | .invoked _ _ _ => none
  | .executed name _ => some name
  | .validated name _ => some (name ++ "#validate")
  | .prepared name _ => some (name ++ "#prepare")
  | .completed name _ => some (name ++ "#complete")
  | .closing _ => none

/-- A callback that fired: whose it was, the context handed back, and the outcome. -/
structure Delivery where
  ticket : Nat
  context : Context
  outcome : Except Failure (Option Value)

/-- The state of a running engine. -/
structure World where
  store : Store
  /-- Declared connectors by name, in the order of declaration. -/
  connectors : Entries Connector
  /-- Transports by family, in the order of registration. -/
  transports : Entries Transport
  /-- Records emitted so far, oldest first. -/
  diagnostics : List Diagnostic
  broadcast : Broadcast Diagnostic
  /-- Calls and native code entered so far, oldest first. -/
  journal : List Event
  /-- Tasks that have not come to their end, oldest first. -/
  tasks : List Task
  /-- Callbacks that fired, oldest first. -/
  deliveries : List Delivery
  /-- Envelopes that came back to listeners, oldest first. -/
  replies : List Envelope
  /-- Time since the start. -/
  now : Millis
  /-- Serial numbers handed out so far, by what they were handed out for. -/
  nextConnector : Nat
  nextSend : Nat
  nextCompletion : Nat
  nextTrace : Nat

namespace World

/-- A world in which nothing has happened yet. -/
def start (broadcast : Broadcast Diagnostic) : World where
  store := .empty
  connectors := []
  transports := []
  diagnostics := []
  broadcast := broadcast
  journal := []
  tasks := []
  deliveries := []
  replies := []
  now := 0
  nextConnector := 0
  nextSend := 0
  nextCompletion := 0
  nextTrace := 0

/-- Emit a record: it is kept, and spread to everyone who listens. -/
def emit (world : World) (record : Diagnostic) : World :=
  { world with
    diagnostics := world.diagnostics ++ [record]
    broadcast := world.broadcast.send record }

/-- Emit the record of a failure. -/
def report (world : World) (failure : Failure) : World :=
  world.emit (.ofFailure failure)

/-- Enter something in the journal. -/
def note (world : World) (event : Event) : World :=
  { world with journal := world.journal ++ [event] }

def withStore (world : World) (store : Store) : World :=
  { world with store }

/-- A callback fires. -/
def deliver (world : World) (ticket : Nat) (context : Context)
    (outcome : Except Failure (Option Value)) : World :=
  { world with deliveries := world.deliveries ++ [⟨ticket, context, outcome⟩] }

/-- The deliveries of one callback. -/
def deliveriesOf (world : World) (ticket : Nat) : List Delivery :=
  world.deliveries.filter fun delivery => delivery.ticket == ticket

/-- Leave a task behind. -/
def spawn (world : World) (task : Task) : World :=
  { world with tasks := world.tasks ++ [task] }

/-- A new connector, not declared under its name. -/
def newConnector (world : World) (name family : String) (properties : Dict String) :
    Connector × World :=
  (⟨world.nextConnector, name, family, properties⟩,
    { world with nextConnector := world.nextConnector + 1 })

/-- A handle for a send that is about to start. -/
def newCompletion (world : World) (action : String) : Completion × World :=
  (⟨⟨Identity.completions, world.nextCompletion⟩, action⟩,
    { world with nextCompletion := world.nextCompletion + 1 })

/-- A context without bindings under a fresh trace name. -/
def blankContext (world : World) : Context × World :=
  let identity : Identity := ⟨Identity.traces, world.nextTrace⟩
  (.ofTrace s!"trace-{world.now / 1000}-{identity.plainText}",
    { world with nextTrace := world.nextTrace + 1 })

/-- Let time pass, but never backwards. -/
def advanceTo (world : World) (time : Millis) : World :=
  { world with now := max world.now time }

/-! ## Connectors and transports -/

/-- Declare a connector under a name that is still free. -/
def declare (world : World) (name family : String) (properties : Dict String) :
    Except EngineFault (Connector × World) :=
  match Entries.find? name world.connectors with
  | some _ => .error (.duplicateConnector name)
  | none =>
      let (connector, world) := world.newConnector name family properties
      .ok (connector,
        { world with connectors := Entries.bind name connector world.connectors })

/-- Declare connectors in turn.  The first name that is taken ends it; what was declared before
stays. -/
def declareAll (world : World) :
    Entries ConnectorConfig → Except EngineFault Unit × World
  | [] => (.ok (), world)
  | (name, connector) :: rest =>
      match world.declare name connector.family connector.properties with
      | .error fault => (.error fault, world)
      | .ok (_, world) => world.declareAll rest

/-- The connector declared under a name. -/
def connector (world : World) (name : String) : Checked Connector :=
  match Entries.find? name world.connectors with
  | some connector => .ok connector
  | none => .error (.unknownConnector name)

/-- The declared connectors in increasing order of their names. -/
def connectorsByName (world : World) : List Connector :=
  (Entries.sorted world.connectors).map Prod.snd

/-- A fresh context in which every declared connector is bound under its name. -/
def newContext (world : World) : Context × World :=
  let (context, world) := world.blankContext
  (world.connectorsByName.foldl
    (fun context connector => context.set connector.name (.connector connector)) context, world)

/-- Add a transport whose family is not served yet. -/
def registerTransport (world : World) (transport : Transport) : Except EngineFault World :=
  match Entries.find? transport.protocol world.transports with
  | some _ => .error (.duplicateTransport transport.protocol)
  | none =>
      .ok { world with
        transports := Entries.bind transport.protocol transport world.transports }

/-- The transport that serves a family. -/
def transport (world : World) (family : String) : Except TransportFault Transport :=
  match Entries.find? family world.transports with
  | some transport => .ok transport
  | none => .error (.unavailable family)

/-- Replace the transport that serves a family. -/
def setTransport (world : World) (family : String) (transport : Transport) : World :=
  { world with transports := Entries.bind family transport world.transports }

/-- Change the transport that serves a family, if there is one. -/
def updateTransport (world : World) (family : String) (change : Transport → Transport) : World :=
  match Entries.find? family world.transports with
  | some transport => world.setTransport family (change transport)
  | none => world

end World

end Switchboard
