import Switchboard.Message

/-!
What travels between a connector action and a transport.

An action asks for a `Request` to be sent; the transport answers with a `Reply`.  The properties of
a request are those of the connector, overridden and extended by those of the action.
-/

namespace Switchboard

/-- The body of an outbound message.  An object is JSON text. -/
inductive EnvelopeBody where
  | text (text : String)
  | map (entries : Dict String)
  | object (json : String)
  | native (body : NativeBody)
deriving DecidableEq

/-- An outbound message. -/
structure Envelope where
  kind : MessageKind
  body : EnvelopeBody
  headers : Dict String
deriving DecidableEq

/-- What an action asks to be sent.  When a reply is wanted, the transport hands the envelope that
comes back to the listener. -/
structure Request where
  envelope : Envelope
  properties : Dict String
  wantsReply : Bool
deriving DecidableEq

namespace Request

/-- A request without properties that wants no reply. -/
def ofEnvelope (envelope : Envelope) : Request :=
  ⟨envelope, Dict.empty, false⟩

def withProperty (request : Request) (name value : String) : Request :=
  { request with properties := request.properties.bind name value }

end Request

/-- Connector properties first, then the action's, which win where both have a name. -/
def mergeProperties (connector action : Dict String) : Dict String :=
  connector.union action

/-- A transport's answer. -/
structure Reply where
  accepted : Bool
  messageId : Option String
  body : Option NativeBody
deriving DecidableEq

namespace Reply

/-- The answer of nobody. -/
def blank : Reply := ⟨false, none, none⟩

/-- A message was taken over under this identity. -/
def accept (messageId : String) : Reply := ⟨true, some messageId, none⟩

end Reply

/-- How a send ends. -/
inductive SendEnd where
  | reply (reply : Reply)
  | fault (fault : TransportFault)
  | panicked
deriving DecidableEq

end Switchboard
