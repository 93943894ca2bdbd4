/-!
# JSON values

Results are handed on as JSON values. The members of an object keep their order.
-/

namespace ActionString

/-- A JSON value. -/
inductive Json where
  | null
  | bool (value : Bool)
  | integer (value : Nat)
  | float (value : Float)
  | string (value : String)
  | array (items : List Json)
  | object (members : List (String × Json))

end ActionString
