import Setters.Binary64
import Setters.Text.Quoted

/-!
# JSON values

A JSON document as a value. The members of an object are kept in the order of the text, and a
repeated key is kept as often as it stands there.
-/

namespace Setters

namespace Json

/-- A number: an integer that fits 64 bits, or a floating-point number. -/
inductive Number where
  | integer (value : Int)
  | real (value : Binary64)
deriving DecidableEq

end Json

inductive Json where
  | null
  | boolean (value : Bool)
  | number (value : Json.Number)
  | string (value : String)
  | array (items : List Json)
  | object (members : List (String × Json))
deriving Inhabited

end Setters
