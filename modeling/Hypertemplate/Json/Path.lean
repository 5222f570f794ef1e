import Hypertemplate.Json.Value
import Hypertemplate.Text.Blank

/-!
# Dotted paths into JSON values

A path is a text of segments between dots. On an object a segment names a field, on an array it is the
decimal index of an item, and nothing leads into another value. `Value.lookup` walks all segments; the
empty path has one empty segment.
-/

namespace Hypertemplate.Json

open Hypertemplate.Text

/-- The index that a segment denotes: decimal digits, possibly after one plus sign, below 2^64. -/
def index? (segment : String) : Option Nat :=
  let digits := match segment.toList with
    | '+' :: rest => rest
    | cs => cs
  if digits.isEmpty || !digits.all Char.isDigit then none
  else
    let n := digits.foldl (fun acc d => acc * 10 + (d.toNat - '0'.toNat)) 0
    if n < Nat.pow 2 64 then some n else none

/-- The value one segment away. -/
def Value.step? (v : Value) (segment : String) : Option Value :=
  match v with
  | .object fields => field? segment fields
  | .array items => (index? segment).bind (items[·]?)
  | _ => none

/-- The value at the end of a list of segments. -/
def Value.follow? (v : Value) (segments : List String) : Option Value :=
  segments.foldlM Value.step? v

/-- The value at a dotted path. -/
def Value.lookup (v : Value) (path : String) : Option Value :=
  v.follow? (splitOnChar '.' path)

end Hypertemplate.Json
