import Switchboard.Text.Blank

/-!
The tags of values.

Descriptors declare parameters and results by these names.  Two tags have a second spelling, and
letter case does not matter when a name is looked up.
-/

namespace Switchboard

/-- What kind of value a value is. -/
inductive ValueType where
  | integer
  | float
  | boolean
  | string
  | map
  | message
  | connector
deriving DecidableEq, Repr

namespace ValueType

/-- Every tag once. -/
def all : List ValueType :=
  [integer, float, boolean, string, map, message, connector]

/-- The name under which a tag is shown. -/
def name : ValueType → String
  | integer => "int"
  | float => "float"
  | boolean => "boolean"
  | string => "string"
  | map => "map"
  | message => "message"
  | connector => "connector"

/-- The capitalised name that serialised descriptors use. -/
def label : ValueType → String
  | integer => "Integer"
  | float => "Float"
  | boolean => "Boolean"
  | string => "String"
  | map => "Map"
  | message => "Message"
  | connector => "Connector"

/-- The spellings accepted for a tag. -/
def spellings : ValueType → List String
  | integer => ["int", "integer"]
  | boolean => ["boolean", "bool"]
  | tag => [tag.name]

/-- The tag spelled so, in any letter case. -/
def ofName? (text : String) : Option ValueType :=
  all.find? fun tag => tag.spellings.contains (Text.asciiLower text)

example : ofName? "INTEGER" = some integer := by decide +kernel
example : ofName? "xml" = none := by decide +kernel

end ValueType

end Switchboard
