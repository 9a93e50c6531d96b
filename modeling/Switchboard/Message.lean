import Switchboard.Value

/-!
Messages and the store that holds them.

A message has a header map and a payload, which programs change in place, and the body and origin
that it came with, which never change.  Programs hold message identities; a `Store` says what each
identity holds now.  An identity that was never handed out holds the blank message, so that reading
and writing never fail and touch nothing but the message they are given.
-/

namespace Switchboard

/-- The body that a message arrived with. -/
inductive NativeBody where
  | empty
  | text (text : String)
  | bytes (data : List UInt8)
  | map (entries : Dict String)
  | object (data : List UInt8)
deriving DecidableEq

/-- One word for the kind of body. -/
def NativeBody.describe : NativeBody → String
  | .empty => "empty"
  | .text _ => "text"
  | .bytes _ => "bytes"
  | .map _ => "map"
  | .object _ => "object"

/-- Whether a message was received or built by the program. -/
inductive Origin where
  | network
  | program
deriving DecidableEq, Repr

def Origin.label : Origin → String
  | .network => "Network"
  | .program => "Program"

/-- What a message identity holds. -/
structure Message where
  origin : Origin
  headers : Dict String
  payload : Option Value
  native : NativeBody

namespace Message

/-- A message without headers, payload or body, built by the program. -/
def blank : Message := ⟨.program, Dict.empty, none, .empty⟩

instance : Inhabited Message := ⟨blank⟩

/-- A message built around a payload. -/
def ofPayload (payload : Value) : Message := { blank with payload := some payload }

/-- A message that came from a transport. -/
def received (native : NativeBody) (headers : Dict String) : Message :=
  ⟨.network, headers, none, native⟩

def header? (message : Message) (name : String) : Option String :=
  message.headers.find? name

def setHeader (message : Message) (name value : String) : Message :=
  { message with headers := message.headers.bind name value }

def removeHeader (message : Message) (name : String) : Message :=
  { message with headers := message.headers.drop name }

def setPayload (message : Message) (payload : Value) : Message :=
  { message with payload := some payload }

end Message

/-- What every message holds, and what natives remember between calls under names of their own. -/
structure Store where
  messages : MessageId → Message
  /-- Serial number of the next message. -/
  next : Nat
  memory : Entries Value

namespace Store

def empty : Store := ⟨fun _ => .blank, 0, []⟩

/-- What a message holds. -/
def read (store : Store) (id : MessageId) : Message :=
  store.messages id

/-- Replace what one message holds. -/
def write (store : Store) (id : MessageId) (message : Message) : Store :=
  { store with messages := fun other => if other = id then message else store.messages other }

/-- Change what one message holds. -/
def update (store : Store) (id : MessageId) (change : Message → Message) : Store :=
  store.write id (change (store.read id))

/-- A fresh identity that holds `message`. -/
def create (store : Store) (message : Message) : MessageId × Store :=
  (⟨store.next⟩, { store.write ⟨store.next⟩ message with next := store.next + 1 })

@[simp] theorem read_write (store : Store) (id other : MessageId) (message : Message) :
    (store.write id message).read other = if other = id then message else store.read other := rfl

@[simp] theorem read_update (store : Store) (id other : MessageId) (change : Message → Message) :
    (store.update id change).read other =
      if other = id then change (store.read id) else store.read other := rfl

theorem read_create (store : Store) (message : Message) (other : MessageId) :
    (store.create message).2.read other =
      if other = (store.create message).1 then message else store.read other := rfl

end Store

end Switchboard
