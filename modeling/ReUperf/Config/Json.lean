import ReUperf.Lib.Text

/-!
# JSON documents

The values of a parsed document, as far as the configuration parser looks at them. An object
lists its members in the order of their keys, one for each key, as the JSON library's map
iterates them.
-/

namespace ReUperf

/-- A JSON value. -/
inductive Json
  /-- The null value. -/
  | null
  /-- A boolean. -/
  | bool (value : Bool)
  /-- A number without fraction or exponent. -/
  | int (value : Int)
  /-- Any other number; its value is never read. -/
  | float
  /-- A string. -/
  | string (value : Bytes)
  /-- An array. -/
  | array (elements : List Json)
  /-- An object. -/
  | object (members : List (Bytes × Json))

namespace Json

/-- The member of an object. -/
def find (json : Json) (name : String) : Option Json :=
  match json with
  | object members => (members.find? fun member => member.1 = Bytes.ascii name).map (·.2)
  | _ => none

/-- A 64-bit integer narrowed to `int`. -/
def toInt32 (value : Int) : Int := (value + 2147483648) % 4294967296 - 2147483648

/-- The members of an object. -/
def members? : Json → Option (List (Bytes × Json))
  | object members => some members
  | _ => none

/-- The elements of an array. -/
def elements? : Json → Option (List Json)
  | array elements => some elements
  | _ => none

/-- An integer, narrowed to `int`. -/
def int? : Json → Option Int
  | int value => some (toInt32 value)
  | _ => none

/-- A string. -/
def string? : Json → Option Bytes
  | string value => some value
  | _ => none

/-- A boolean. -/
def bool? : Json → Option Bool
  | bool value => some value
  | _ => none

/-- The boolean member of an object. -/
def boolAt (json : Json) (name : String) : Option Bool := (json.find name).bind bool?

/-- The integer member of an object, narrowed to `int`. -/
def intAt (json : Json) (name : String) : Option Int := (json.find name).bind int?

/-- The string member of an object. -/
def stringAt (json : Json) (name : String) : Option Bytes := (json.find name).bind string?

end Json

end ReUperf
