import Hypertemplate.Decimal.Shortest

/-!
# JSON values

Integers that fit 64 bits, signed or unsigned, are kept exactly; every other number is a binary
floating-point number. The fields of an object are sorted by name and their names are distinct;
`Value.ofFields` builds such an object from any list, the last value of a name winning.
-/

namespace Hypertemplate.Json

open Hypertemplate.Decimal

inductive Number where
  | integer (n : Int)
  | real (x : Binary)
  deriving DecidableEq, Repr, Inhabited

/-- A JSON value. -/
inductive Value where
  | null
  | bool (b : Bool)
  | number (n : Number)
  | string (s : String)
  | array (items : List Value)
  | object (fields : List (String × Value))
  deriving Inhabited

/-- Zero of either sign. -/
def Number.isZero : Number → Bool
  | .integer n => n == 0
  | .real x => x.isZero

/-- Put a value under a name into fields sorted by name, replacing the one that is there. -/
def insertField (name : String) (v : Value) : List (String × Value) → List (String × Value)
  | [] => [(name, v)]
  | (k, w) :: rest =>
    if name < k then (name, v) :: (k, w) :: rest
    else if name = k then (name, v) :: rest
    else (k, w) :: insertField name v rest

/-- The object with the given fields; a later value of a name replaces an earlier one. -/
def Value.ofFields (fields : List (String × Value)) : Value :=
  .object (fields.foldl (fun acc (k, v) => insertField k v acc) [])

/-- The value under a name in a list of fields. -/
def field? (name : String) (fields : List (String × Value)) : Option Value :=
  (fields.find? (·.1 == name)).map (·.2)

/-- The field of an object; other values have none. -/
def Value.get? (name : String) : Value → Option Value
  | .object fields => field? name fields
  | _ => none

end Hypertemplate.Json
