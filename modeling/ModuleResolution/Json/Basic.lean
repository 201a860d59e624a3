import ModuleResolution.Association
import ModuleResolution.Binary64

/-!
# JSON values

Values keep the order of an object's fields, the exact value of an integer, and a real number as
the bits of its binary64 form.
-/

namespace ModuleResolution

/-- A JSON value. -/
inductive Json where
  | null
  | bool (value : Bool)
  | integer (value : Int)
  | real (bits : UInt64)
  | string (value : Text)
  | array (items : List Json)
  | object (fields : List (Text × Json))
  deriving Repr, Inhabited

namespace Json

/-- The fields of an object. -/
abbrev Fields := List (Text × Json)

def isObject : Json -> Bool
  | .object _ => true
  | _ => false

/-- Does the value count as true?  Null, false, zero, the number that is no number and the empty
text do not; every array and object does. -/
def isTruthy : Json -> Bool
  | .null => false
  | .bool value => value
  | .integer value => value != 0
  | .real bits => !Binary64.isZeroOrNan bits
  | .string value => !value.isEmpty
  | .array _ => true
  | .object _ => true

def string? : Json -> Option Text
  | .string value => some value
  | _ => none

end Json

end ModuleResolution
