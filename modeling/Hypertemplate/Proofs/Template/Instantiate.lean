import Hypertemplate.Proofs.Document.Tree
import Hypertemplate.Proofs.Template.Tokens
import Hypertemplate.Template.Render

/-!
# Filling a tree

`Tree.instantiate` fills a tree from an item by recursion on the tree, without places and without order of
changes. It is what rendering is measured against. Rendering works in two passes, so that the recursion is
cut in two as well: texts first (`Tree.substituteChild`), repeated elements then (`Tree.repeatChild`).
-/

namespace Hypertemplate

open Json

namespace Tree

variable {marker : String} {item : Value}

/-! ## Filling at once -/

mutual
/-- What a child becomes: a text is substituted if `ownText`, an element is repeated in a container if its
marker names an array of the item, and is filled otherwise. Everything else stays. -/
def fillChild (marker : String) (ownText : Bool) (item : Value) : Tree → Tree
  | .node k content children =>
    match k with
    | .text s => .node (.text (if ownText then Template.substitute s item else s)) content children
    | .element e =>
      match Document.valueOf? marker e.attributes with
      | none => .node k content (fillChildren marker true item children)
      | some key =>
        match item.lookup key with
        | some (.array entries) =>
          .node (.element { name := "div" }) none
            (entries.map fun entry => .node k content (fillChildren marker true entry children))
        | _ => .node k content (fillChildren marker false item children)
    | _ => .node k content children

def fillChildren (marker : String) (ownText : Bool) (item : Value) : List Tree → List Tree
  | [] => []
  | t :: ts => fillChild marker ownText item t :: fillChildren marker ownText item ts
end

theorem length_fillChildren (marker : String) (ownText : Bool) (item : Value) (ts : List Tree) :
    (fillChildren marker ownText item ts).length = ts.length := by
  induction ts with
  | nil => rfl
  | cons t rest ih => rw [fillChildren, List.length_cons, ih, List.length_cons]

/-- Fill a tree from an item; the top of the tree is not repeated. -/
def instantiate (marker : String) (item : Value) : Tree → Tree
  | .node k content children => .node k content (fillChildren marker true item children)

/-! ## Filling in two passes -/

mutual
/-- The first pass: texts are substituted, except below elements that will be repeated. -/
def substituteChild (marker : String) (ownText : Bool) (item : Value) : Tree → Tree
  | .node k content children =>
    match k with
    | .text s => .node (.text (if ownText then Template.substitute s item else s)) content children
    | .element e =>
      match Document.valueOf? marker e.attributes with
      | none => .node k content (substituteChildren marker true item children)
      | some key =>
        match item.lookup key with
        | some (.array _) => .node k content children
        | _ => .node k content (substituteChildren marker false item children)
    | _ => .node k content children

def substituteChildren (marker : String) (ownText : Bool) (item : Value) : List Tree → List Tree
  | [] => []
  | t :: ts => substituteChild marker ownText item t :: substituteChildren marker ownText item ts
end

mutual
/-- The second pass: elements whose marker names an array are repeated. -/
def repeatChild (marker : String) (item : Value) : Tree → Tree
  | .node k content children =>
    match k with
    | .element e =>
      match Document.valueOf? marker e.attributes with
      | none => .node k content (repeatChildren marker item children)
      | some key =>
        match item.lookup key with
        | some (.array entries) =>
          .node (.element { name := "div" }) none
            (entries.map fun entry => instantiate marker entry (.node k content children))
        | _ => .node k content (repeatChildren marker item children)
    | _ => .node k content children

def repeatChildren (marker : String) (item : Value) : List Tree → List Tree
  | [] => []
  | t :: ts => repeatChild marker item t :: repeatChildren marker item ts
end

theorem substituteChildren_eq_map (ownText : Bool) (ts : List Tree) :
    substituteChildren marker ownText item ts = ts.map (substituteChild marker ownText item) := by
  induction ts with
  | nil => rfl
  | cons t rest ih => rw [substituteChildren, ih, List.map_cons]

theorem repeatChildren_eq_map (ts : List Tree) :
    repeatChildren marker item ts = ts.map (repeatChild marker item) := by
  induction ts with
  | nil => rfl
  | cons t rest ih => rw [repeatChildren, ih, List.map_cons]

mutual
/-- Both passes together fill a child. -/
theorem repeatChild_substituteChild (ownText : Bool) : ∀ t : Tree,
    repeatChild marker item (substituteChild marker ownText item t) = fillChild marker ownText item t
  | .node k content children => by
    cases k with
    | element e =>
      rw [substituteChild, fillChild]
      cases hm : Document.valueOf? marker e.attributes with
      | none =>
        simp only [repeatChild, hm]
        rw [repeatChildren_substituteChildren]
      | some key =>
        cases hv : item.lookup key with
        | none =>
          simp only [repeatChild, hm, hv]
          rw [repeatChildren_substituteChildren]
        | some v =>
          cases v with
          | array entries =>
            simp only [repeatChild, hm, hv]
            rfl
          | _ =>
            simp only [repeatChild, hm, hv]
            rw [repeatChildren_substituteChildren]
    | _ => rfl

theorem repeatChildren_substituteChildren (ownText : Bool) : ∀ ts : List Tree,
    repeatChildren marker item (substituteChildren marker ownText item ts) =
      fillChildren marker ownText item ts
  | [] => rfl
  | t :: ts => by
    rw [substituteChildren, repeatChildren, fillChildren, repeatChild_substituteChild,
      repeatChildren_substituteChildren]
end

end Tree

/-! ## How deep values are nested -/

namespace Json

theorem nesting_le_itemsNesting {v : Value} {items : List Value} (h : v ∈ items) :
    v.nesting ≤ itemsNesting items := by
  induction items with
  | nil => cases h
  | cons w rest ih =>
    rw [itemsNesting]
    rcases List.mem_cons.mp h with rfl | h
    · exact Nat.le_max_left _ _
    · exact Nat.le_trans (ih h) (Nat.le_max_right _ _)

theorem nesting_le_fieldsNesting {k : String} {v : Value} {fields : List (String × Value)}
    (h : (k, v) ∈ fields) : v.nesting ≤ fieldsNesting fields := by
  induction fields with
  | nil => cases h
  | cons f rest ih =>
    obtain ⟨k', w⟩ := f
    rw [fieldsNesting]
    rcases List.mem_cons.mp h with he | h
    · obtain ⟨-, rfl⟩ := Prod.mk.inj he
      exact Nat.le_max_left _ _
    · exact Nat.le_trans (ih h) (Nat.le_max_right _ _)

theorem nesting_step?_le {v w : Value} {segment : String} (h : v.step? segment = some w) :
    w.nesting ≤ v.nesting := by
  cases v with
  | object fields =>
    obtain ⟨⟨k, u⟩, hf, rfl⟩ := Option.map_eq_some_iff.mp h
    exact Nat.le_succ_of_le (nesting_le_fieldsNesting (List.mem_of_find?_eq_some hf))
  | array items =>
    obtain ⟨n, -, hn⟩ := Option.bind_eq_some_iff.mp h
    exact Nat.le_succ_of_le (nesting_le_itemsNesting (List.mem_of_getElem? hn))
  | _ => cases h

/-- Nothing inside of a value is nested deeper than the value. -/
theorem nesting_lookup_le {v w : Value} {path : String} (h : v.lookup path = some w) :
    w.nesting ≤ v.nesting := by
  have key : ∀ (segments : List String) (v : Value), v.follow? segments = some w →
      w.nesting ≤ v.nesting := by
    intro segments
    induction segments with
    | nil =>
      intro v h
      obtain rfl : v = w := by simpa [Value.follow?] using h
      exact Nat.le_refl _
    | cons segment rest ih =>
      intro v h
      rw [Value.follow?, List.foldlM_cons] at h
      obtain ⟨u, hu, hw⟩ := Option.bind_eq_some_iff.mp h
      exact Nat.le_trans (ih u hw) (nesting_step?_le hu)
  exact key _ v h

/-- The entries of an array inside of a value are nested less deep than the value. -/
theorem nesting_lt_of_lookup {v entry : Value} {path : String} {entries : List Value}
    (h : v.lookup path = some (.array entries)) (he : entry ∈ entries) : entry.nesting < v.nesting :=
  Nat.lt_of_lt_of_le (Nat.lt_succ_of_le (nesting_le_itemsNesting he)) (nesting_lookup_le h)

end Json

end Hypertemplate
