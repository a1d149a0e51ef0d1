import Sshdt.Lib.Table
import Sshdt.Lib.Text

/-
  JSON values with the readers of `serde_json::Value`.

  A number is kept by what `as_u64` reads off it: negative
  and fractional numbers have no such value.

  Key definitions include:
    * `Json`
    * `Json.get`
    * `Json.asArray`
    * `Json.asU64`
    * `Json.asStr`
-/

------------------------------------------------------------
-- Values
------------------------------------------------------------

/- `serde_json::Value`. -/
inductive Json where
  | null
  | bool (b : Bool)
  | number (asU64 : Option UInt64)
  | string (text : Text)
  | array (items : List Json)
  | object (members : List (Text × Json))

namespace Json

/- `Value::get` with a member name. -/
def get
    (value : Json)
    (name : Text) : Option Json :=
  match value with
  | .object members => Table.get members name
  | _ => none

/- `Value::as_array`. -/
def asArray : Json → Option (List Json)
  | .array items => some items
  | _ => none

/- `Value::as_u64`. -/
def asU64 : Json → Option UInt64
  | .number n => n
  | _ => none

/- `Value::as_str`. -/
def asStr : Json → Option Text
  | .string text => some text
  | _ => none

end Json
