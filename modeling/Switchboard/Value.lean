import Switchboard.Failure
import Switchboard.Json

/-!
Values.

Numbers, truth values, strings and maps are values in the usual sense.  A message and a connector
are identities: two of them are equal exactly when they are the same one, whatever they hold.  A
message's contents live in a `Store` and change there; a connector is fixed when it is declared.

Maps keep the order of their entries, but equality does not look at it.  It asks for the same
number of entries and, for each entry on the left, an equal value under that name on the right.
Floats compare as numbers, so a value that holds a `NaN` differs from itself.
-/

namespace Switchboard

/-- Identities are numbered within their realm and shown in the usual grouped form. -/
structure Identity where
  realm : Nat
  serial : Nat
deriving DecidableEq, Repr

namespace Identity

/-- The last `count` hexadecimal digits of a number. -/
def hexDigits : Nat → Nat → List Char
  | 0, _ => []
  | count + 1, n => hexDigits count (n / 16) ++ [Nat.digitChar (n % 16)]

/-- Groups of 8, 4, 4, 4 and 12 digits. -/
def text (identity : Identity) : String :=
  String.ofList (hexDigits 8 identity.realm ++ "-0000-4000-8000-".toList ++
    hexDigits 12 identity.serial)

/-- The same digits without separators. -/
def plainText (identity : Identity) : String :=
  String.ofList (hexDigits 8 identity.realm ++ "000040008000".toList ++
    hexDigits 12 identity.serial)

def messages : Nat := 1
def deliveries : Nat := 2
def completions : Nat := 3
def traces : Nat := 4

end Identity

/-- The identity of a message. -/
structure MessageId where
  serial : Nat
deriving DecidableEq, Repr

/-- The shown form of a message identity. -/
def MessageId.text (id : MessageId) : String :=
  (Identity.mk Identity.messages id.serial).text

/-- A configured connector: an identity with a name, a protocol family and fixed properties. -/
structure Connector where
  serial : Nat
  name : String
  family : String
  properties : Dict String
deriving DecidableEq

/-- The values of the language. -/
inductive Value where
  | integer (n : Int64)
  | float (x : Float)
  | boolean (b : Bool)
  | string (text : String)
  | map (entries : List (String × Value))
  | message (id : MessageId)
  | connector (connector : Connector)

namespace Value

instance : Inhabited Value := ⟨.boolean false⟩

/-- The value of a literal. -/
def ofLiteral : Literal → Value
  | .integer n => .integer n
  | .float x => .float x
  | .string text => .string text
  | .boolean b => .boolean b

/-- The map of these entries: a repeated name keeps its first place and takes the last value. -/
def ofPairs (pairs : Entries Value) : Value :=
  .map (Entries.bindAll [] pairs)

/-- The tag of a value. -/
def type : Value → ValueType
  | .integer _ => .integer
  | .float _ => .float
  | .boolean _ => .boolean
  | .string _ => .string
  | .map _ => .map
  | .message _ => .message
  | .connector _ => .connector

/-- The complaint of an accessor that was given another kind of value. -/
def mismatch {A : Type} (value : Value) (expected : ValueType) : Checked A :=
  .error (.typeMismatch expected value.type)

def asInteger : Value → Checked Int64
  | .integer n => .ok n
  | value => value.mismatch .integer

def asFloat : Value → Checked Float
  | .float x => .ok x
  | value => value.mismatch .float

def asBoolean : Value → Checked Bool
  | .boolean b => .ok b
  | value => value.mismatch .boolean

def asString : Value → Checked String
  | .string text => .ok text
  | value => value.mismatch .string

def asMap : Value → Checked (Entries Value)
  | .map entries => .ok entries
  | value => value.mismatch .map

def asMessage : Value → Checked MessageId
  | .message id => .ok id
  | value => value.mismatch .message

def asConnector : Value → Checked Connector
  | .connector handle => .ok handle
  | value => value.mismatch .connector

mutual

/-- Equality of values: by contents, and by identity for messages and connectors. -/
def same : Value → Value → Bool
  | .integer m, .integer n => m == n
  | .float x, .float y => x == y
  | .boolean a, .boolean b => a == b
  | .string s, .string t => s == t
  | .map left, .map right => left.length == right.length && within left right
  | .message a, .message b => a == b
  | .connector a, .connector b => a.serial == b.serial
  | _, _ => false

/-- Every entry has an equal value under its name in `right`. -/
def within : List (String × Value) → List (String × Value) → Bool
  | [], _ => true
  | (name, value) :: rest, right =>
      (match Entries.find? name right with
        | some other => same value other
        | none => false) && within rest right

end

mutual

/-- The displayed form.  Strings are bare, also inside maps. -/
def text : Value → String
  | .integer n => String.ofList (Decimal.integerText n.toInt)
  | .float x => Decimal.displayFloat x
  | .boolean b => if b then "true" else "false"
  | .string text => text
  | .map entries => "\x7b" ++ entriesText entries ++ "\x7d"
  | .message id => "message(" ++ id.text ++ ")"
  | .connector handle => "connector(" ++ handle.family ++ ":" ++ handle.name ++ ")"

/-- The entries of a map as `name: value`, separated by commas. -/
def entriesText : List (String × Value) → String
  | [] => ""
  | [(name, value)] => name ++ ": " ++ text value
  | (name, value) :: rest => name ++ ": " ++ text value ++ ", " ++ entriesText rest

end

mutual

/-- The JSON form of a value that holds no message and no connector.  Floats that are no numbers
become `null`, and the entries of every map are sorted by name. -/
def toJson : Value → Checked Json
  | .integer n => .ok (.integer n.toInt)
  | .float x => .ok (if x.isFinite then .real x else .null)
  | .boolean b => .ok (.boolean b)
  | .string text => .ok (.string text)
  | .map entries =>
      match entriesToJson entries with
      | .ok entries => .ok (.object (Entries.sorted entries))
      | .error fault => .error fault
  | value => value.mismatch .map

/-- The JSON forms of the entries of a map, or the fault of the first that has none. -/
def entriesToJson : List (String × Value) → Checked (List (String × Json))
  | [] => .ok []
  | (name, value) :: rest =>
      match toJson value with
      | .error fault => .error fault
      | .ok json =>
          match entriesToJson rest with
          | .ok others => .ok ((name, json) :: others)
          | .error fault => .error fault

end

example : same (ofPairs [("a", .integer 1), ("b", .integer 2)])
    (ofPairs [("b", .integer 2), ("a", .integer 1)]) = true := by decide

example : (ofPairs [("k", .integer 1), ("l", .string "x")]).text = "\x7bk: 1, l: x\x7d" := by
  decide +kernel

end Value

end Switchboard
