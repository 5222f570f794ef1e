import Hypertemplate.Json.Path
import Hypertemplate.Proofs.Text.Pieces

/-!
# Paths to the values inside of a value

From a value one gets to every value inside of it by steps, each through the name of a field or the index of an
item. The texts of the steps, joined with dots, are a path at which the value is found, unless a name has a dot in
it (`paths_address_values`), and a path goes on where another one ends (`lookup_append`).
-/

namespace Hypertemplate.Json

open Text

/-- A step into a value: through the name of a field or the index of an item. -/
inductive PathStep where
  | field (name : String)
  | item (index : Nat)
  deriving DecidableEq, Repr

namespace PathStep

/-- The segment of a path for a step: the name, or the index in decimal digits. -/
def segment : PathStep → String
  | field name => name
  | item index => toString index

/-- A step that a segment can be written for: a name without a dot, or an index of 64 bits. -/
def Plain : PathStep → Prop
  | field name => '.' ∉ name.toList
  | item index => index < 2 ^ 64

end PathStep

/-- The path for a list of steps. -/
def pathOf (steps : List PathStep) : String := ".".intercalate (steps.map PathStep.segment)

/-- Steps lead from a value to a value inside of it: a name to the one value that has it in an object, an index to
the item there is at this place of an array. -/
inductive Value.Reaches : Value → List PathStep → Value → Prop
  | here (v : Value) : Reaches v [] v
  | field {fields : List (String × Value)} {name : String} {u w : Value} {steps : List PathStep}
      (hu : ∀ u', (name, u') ∈ fields ↔ u' = u) (h : Reaches u steps w) :
      Reaches (.object fields) (.field name :: steps) w
  | item {items : List Value} {index : Nat} {u w : Value} {steps : List PathStep}
      (hu : items[index]? = some u) (h : Reaches u steps w) :
      Reaches (.array items) (.item index :: steps) w

variable {u v w : Value} {steps : List PathStep} {name : String}

/-! ## Single steps -/

/-- An index is read back from its decimal digits. -/
theorem index?_toString {n : Nat} (h : n < 2 ^ 64) : index? (toString n) = some n := by
  have hdigits : ∀ c ∈ Nat.toDigits 10 n, c.isDigit = true := fun c hc =>
    Nat.isDigit_of_mem_toDigits (by decide) (by decide) hc
  have hvalue : (Nat.toDigits 10 n).foldl (fun acc d => acc * 10 + (d.toNat - '0'.toNat)) 0 = n := by
    have hread := Nat.ofDigitChars_ten_toDigits (n := n)
    rw [Nat.ofDigitChars_eq_foldl] at hread
    simpa only [Nat.mul_comm] using hread
  -- The first digit is no sign, so that all of them are read.
  have hsign : ∀ rest, Nat.toDigits 10 n ≠ '+' :: rest := by
    intro rest he
    have hplus := hdigits '+' (by simp [he])
    exact absurd hplus (by decide)
  unfold index?
  have htext : (toString n).toList = Nat.toDigits 10 n := Nat.toList_repr
  rw [htext]
  split
  · next rest he => exact absurd he (hsign rest)
  · have hall : (Nat.toDigits 10 n).all Char.isDigit = true := List.all_eq_true.mpr hdigits
    have hne : (Nat.toDigits 10 n).isEmpty = false := by simp [Nat.toDigits_ne_nil]
    simp only [hne, hall, Bool.not_true, Bool.or_false, Bool.false_eq_true, if_false, hvalue]
    exact if_pos h

theorem field?_eq_of_mem_iff {fields : List (String × Value)} (h : ∀ u', (name, u') ∈ fields ↔ u' = u) :
    field? name fields = some u := by
  rw [field?, Option.map_eq_some_iff]
  cases hfind : fields.find? (·.1 == name) with
  | none => exact absurd (beq_self_eq_true name) (List.find?_eq_none.mp hfind (name, u) ((h u).mpr rfl))
  | some f =>
    obtain ⟨k, u'⟩ := f
    obtain rfl : k = name := by simpa using List.find?_some hfind
    exact ⟨_, rfl, (h u').mp (List.mem_of_find?_eq_some hfind)⟩

/-! ## Paths -/

theorem PathStep.Plain.not_mem_segment {s : PathStep} (h : s.Plain) : '.' ∉ s.segment.toList := by
  cases s with
  | field name => exact h
  | item index =>
    intro hdot
    have hdigit : '.'.isDigit = true := Nat.isDigit_of_mem_toDigits (by decide) (by decide) (Nat.toList_repr ▸ hdot)
    exact absurd hdigit (by decide)

/-- The segments of the path for some steps are the segments of the steps. -/
theorem lookup_pathOf (hne : steps ≠ []) (hplain : ∀ s ∈ steps, s.Plain) :
    v.lookup (pathOf steps) = v.follow? (steps.map PathStep.segment) := by
  rw [Value.lookup, pathOf, splitOnChar_intercalate (by rfl) (by simpa using hne)]
  intro segment hsegment
  obtain ⟨s, hs, rfl⟩ := List.mem_map.mp hsegment
  exact (hplain s hs).not_mem_segment

theorem Value.Reaches.follow?_eq (h : v.Reaches steps w) (hplain : ∀ s ∈ steps, s.Plain) :
    v.follow? (steps.map PathStep.segment) = some w := by
  induction h with
  | here v => rfl
  | field hu _ ih =>
    rw [List.map_cons, Value.follow?, List.foldlM_cons]
    rw [show (Value.object _).step? (PathStep.segment (.field _)) = _ from field?_eq_of_mem_iff hu]
    exact ih fun s hs => hplain s (List.mem_cons_of_mem _ hs)
  | item hu _ ih =>
    have hindex := index?_toString (hplain (.item _) List.mem_cons_self)
    rw [List.map_cons, Value.follow?, List.foldlM_cons, Value.step?, PathStep.segment, hindex, Option.bind_some, hu]
    exact ih fun s hs => hplain s (List.mem_cons_of_mem _ hs)

theorem lookup_append (v : Value) (p q : String) :
    v.lookup (p ++ "." ++ q) = (v.lookup p).bind fun u => u.lookup q := by
  rw [Value.lookup, splitOnChar_append (by rfl), Value.follow?, List.foldlM_append]
  rfl

/-- Every value inside of another one is found at the path for the steps that lead to it, if no step goes through a
name with a dot in it; and a path that goes on behind another one is followed from where the other one leads. -/
theorem paths_address_values :
    (∀ (v w : Value) (steps : List PathStep), steps ≠ [] → (∀ s ∈ steps, s.Plain) → v.Reaches steps w →
      v.lookup (pathOf steps) = some w) ∧
    ∀ (v : Value) (p q : String), v.lookup (p ++ "." ++ q) = (v.lookup p).bind fun u => u.lookup q := by
  refine ⟨fun v w steps hne hplain h => ?_, lookup_append⟩
  rw [lookup_pathOf hne hplain]
  exact h.follow?_eq hplain

/-- Through an empty name, into an array, and through a name that looks like an index. -/
theorem paths_address_values_numeric_name :
    let inner : Value := .object [("0", .bool true)]
    let v : Value := .object [("", .array [.null, inner])]
    let steps : List PathStep := [.field "", .item 1, .field "0"]
    steps ≠ [] ∧ (∀ s ∈ steps, s.Plain) ∧ v.Reaches steps (.bool true) ∧
      pathOf steps = ".1.0" ∧ v.lookup ".1.0" = some (.bool true) := by
  intro inner v steps
  have hne : steps ≠ [] := by simp [steps]
  have hplain : ∀ s ∈ steps, s.Plain := by simp [steps, PathStep.Plain]
  have hinner : inner.Reaches [.field "0"] (.bool true) := .field (by simp) (.here _)
  have hitems : (Value.array [.null, inner]).Reaches [.item 1, .field "0"] (.bool true) := .item rfl hinner
  have hreach : v.Reaches steps (.bool true) := .field (by simp) hitems
  have hpath : pathOf steps = ".1.0" := by decide +kernel
  exact ⟨hne, hplain, hreach, hpath, hpath ▸ paths_address_values.1 v _ steps hne hplain hreach⟩

end Hypertemplate.Json
