import Switchboard.Library.Basic

/-!
`net.jms:send`, the action that sends a message to a destination.

The kind of the outbound message is chosen by name.  Text and bytes messages carry a string, map
messages a map, object messages JSON, and generic messages the body that the message came with.
The payload is used when one is set, and otherwise the body, as far as it is of a fitting kind; an
object message without payload carries the headers.
-/

namespace Switchboard.Jms

/-- The family of the connectors that the action sends through. -/
def family : String := "jms"

/-- The property that holds the kind of the message. -/
def messageTypeProperty : String := "JMS_MESSAGE_TYPE"

/-- The property that holds the destination. -/
def destinationProperty : String := "JMS_DESTINATION"

def spec : NativeSpec where
  package := "net.jms"
  name := "send"
  params := [("connector", "connector"), ("destinationName", "string"), ("msgType", "string"),
    ("m", "message")]
  returns := some "boolean"
  isPublic := true

/-- The qualified name of the action. -/
def action : String := spec.qualifiedName.text

/-- The body of a message that carries a string.  Bytes count as such where `bytesToo` says so. -/
def stringBody (kind : MessageKind) (bytesToo : Bool) (message : Message) :
    Checked EnvelopeBody :=
  match message.payload, message.native with
  | some (.string text), _ => .ok (.text text)
  | some _, _ => .error (.payloadKindMismatch kind "a string payload must be set")
  | none, .text text => .ok (.text text)
  | none, native =>
      match native, bytesToo with
      | .bytes data, true => .ok (.native (.bytes data))
      | other, _ =>
          let accepted := if bytesToo then "text or bytes" else "text"
          .error (.payloadKindMismatch kind
            ("either a string payload must be set or a received " ++ accepted ++
              " message passed, not " ++ other.describe))

/-- The body of a message that carries a map: every value as it is displayed. -/
def mapBody (message : Message) : Checked EnvelopeBody :=
  match message.payload, message.native with
  | some (.map entries), _ =>
      .ok (.map (Dict.ofPairs (entries.map fun (name, value) => (name, value.text))))
  | some _, _ => .error (.payloadKindMismatch .map "the map data must be set")
  | none, .map entries => .ok (.map entries)
  | none, other =>
      .error (.payloadKindMismatch .map
        ("either the map data must be set or a received map message passed, not " ++
          other.describe))

/-- The headers as a JSON object with sorted names. -/
def headersJson (headers : Dict String) : Json :=
  .object (Entries.sorted (headers.entries.map fun (name, value) => (name, .string value)))

/-- The body of a message that carries JSON. -/
def objectBody (message : Message) : Checked EnvelopeBody :=
  match message.payload with
  | some payload => payload.toJson.map fun json => .object json.text
  | none => .ok (.object (headersJson message.headers).text)

/-- The body of an outbound message of this kind. -/
def body (message : Message) : MessageKind → Checked EnvelopeBody
  | .text => stringBody .text false message
  | .bytes => stringBody .bytes true message
  | .object => objectBody message
  | .map => mapBody message
  | .generic => .ok (.native message.native)

/-- The request that sends a message. -/
def request (destination : String) (kind : MessageKind) (message : Message) :
    Checked Request := do
  let body ← body message kind
  let sending := Request.ofEnvelope ⟨kind, body, message.headers⟩
  return (sending.withProperty messageTypeProperty kind.name).withProperty
    destinationProperty destination

/-- The destination must not be blank. -/
def validate (arguments : List Value) : Checked Unit := do
  let destination ←
    match arguments[1]? with
    | some value => value.asString
    | none => .ok ""
  if Text.isBlank destination then
    .error (.validationFailure action "destination name is empty")
  else .ok ()

/-- The request for a call with these arguments. -/
def prepare (store : Store) : List Value → Checked Request
  | [_, destination, kind, message] => do
      let destination ← destination.asString
      let kind ← kind.asString
      let id ← message.asMessage
      request destination (.ofName kind) (store.read id)
  | arguments => .error (.arityMismatch action spec.params.length arguments.length)

/-- Whether the message was accepted. -/
def complete (reply : Reply) : Checked (Option Value) :=
  .ok (some (.boolean reply.accepted))

/-- `net.jms:send(connector, destinationName, msgType, m) -> boolean`. -/
def send : Action where
  spec
  family
  modes := .both
  validate store arguments := ⟨.ofChecked (validate arguments), store⟩
  prepare store _ arguments := ⟨.ofChecked (prepare store arguments), store⟩
  complete store reply := ⟨.ofChecked (complete reply), store⟩

end Switchboard.Jms
