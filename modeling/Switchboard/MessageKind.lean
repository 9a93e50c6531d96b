import Switchboard.Text.Blank

/-!
The kinds of outbound messages.  A kind is chosen by name, in any letter case; every other name
means a generic message.
-/

namespace Switchboard

/-- What an outbound message carries. -/
inductive MessageKind where
  | text
  | bytes
  | object
  | map
  | generic
deriving DecidableEq, Repr

namespace MessageKind

/-- The canonical name. -/
def name : MessageKind → String
  | text => "TextMessage"
  | bytes => "BytesMessage"
  | object => "ObjectMessage"
  | map => "MapMessage"
  | generic => "Message"

/-- The short name that serialised records use. -/
def label : MessageKind → String
  | text => "Text"
  | bytes => "Bytes"
  | object => "Object"
  | map => "Map"
  | generic => "Generic"

/-- The kind of this name. -/
def ofName (text : String) : MessageKind :=
  match Text.asciiLower text with
  | "textmessage" => .text
  | "bytesmessage" => .bytes
  | "objectmessage" => .object
  | "mapmessage" => .map
  | _ => .generic

theorem ofName_name (kind : MessageKind) : ofName kind.name = kind := by
  cases kind <;> decide +kernel

end MessageKind

end Switchboard
