import Hypertemplate.Proofs.Template.Fragment

/-!
# Data does not change the structure

What a template renders to has the structure that the template and the arrays and objects of the data give it;
the scalars of the data end up in texts. Two values with the same `shape` differ in scalars alone, two trees
with the same `outline` differ in texts alone, and `data_keeps_outline` leads from one to the other.
-/

namespace Hypertemplate

namespace Json

/-! ## Values without their scalars -/

mutual
/-- A value with null in the place of every scalar. -/
def Value.shape : Value → Value
  | .array items => .array (itemsShape items)
  | .object fields => .object (fieldsShape fields)
  | .null | .bool _ | .number _ | .string _ => .null

def itemsShape : List Value → List Value
  | [] => []
  | v :: rest => v.shape :: itemsShape rest

def fieldsShape : List (String × Value) → List (String × Value)
  | [] => []
  | (k, v) :: rest => (k, v.shape) :: fieldsShape rest
end

theorem itemsShape_eq_map (items : List Value) : itemsShape items = items.map Value.shape := by
  induction items with
  | nil => rfl
  | cons v rest ih => rw [itemsShape, ih, List.map_cons]

theorem field?_fieldsShape (name : String) (fields : List (String × Value)) :
    field? name (fieldsShape fields) = (field? name fields).map Value.shape := by
  induction fields with
  | nil => rfl
  | cons f rest ih =>
    obtain ⟨k, v⟩ := f
    simp only [field?, fieldsShape, List.find?_cons] at ih ⊢
    cases hk : k == name with
    | true => rfl
    | false => exact ih

theorem step?_shape (v : Value) (segment : String) :
    v.shape.step? segment = (v.step? segment).map Value.shape := by
  cases v with
  | object fields => exact field?_fieldsShape segment fields
  | array items =>
    simp only [Value.shape, Value.step?, itemsShape_eq_map]
    cases index? segment with
    | none => rfl
    | some n => exact List.getElem?_map
  | _ => rfl

/-- Whether a path leads somewhere, and to what kind of value, is seen without the scalars. -/
theorem lookup_shape (v : Value) (path : String) :
    v.shape.lookup path = (v.lookup path).map Value.shape := by
  have key : ∀ (segments : List String) (v : Value),
      v.shape.follow? segments = (v.follow? segments).map Value.shape := by
    intro segments
    induction segments with
    | nil => exact fun _ => rfl
    | cons segment rest ih =>
      intro v
      simp only [Value.follow?, List.foldlM_cons] at ih ⊢
      rw [step?_shape]
      cases v.step? segment with
      | none => rfl
      | some u => exact ih u
  exact key _ v

end Json

/-! ## Trees without the contents of their texts -/

/-- What a node is, without the contents of a text. -/
def Kind.outline : Kind → Kind
  | .text _ => .text ""
  | k => k

namespace Tree

variable {marker : String} {item : Json.Value}

mutual
/-- A tree without the contents of its texts. A template's content is left as it is. -/
def outline : Tree → Tree
  | .node k content children => .node k.outline content (outlines children)

def outlines : List Tree → List Tree
  | [] => []
  | t :: ts => t.outline :: outlines ts
end

theorem outlines_eq_map (ts : List Tree) : outlines ts = ts.map outline := by
  induction ts with
  | nil => rfl
  | cons t rest ih => rw [outlines, ih, List.map_cons]

theorem children_outline (t : Tree) : t.outline.children = t.children.map outline := by
  obtain ⟨k, content, children⟩ := t
  exact outlines_eq_map children

mutual
/-- What a child becomes has the same outline if the item loses its scalars. -/
theorem outline_fillChild_shape (ownText : Bool) (item : Json.Value) : ∀ t : Tree,
    (fillChild marker ownText item.shape t).outline = (fillChild marker ownText item t).outline
  | .node k content children => by
    cases k with
    | element e =>
      simp only [fillChild]
      cases hm : Document.valueOf? marker e.attributes with
      | none =>
        simp only [outline]
        rw [outlines_fillChildren_shape]
      | some key =>
        -- A path leads to an array in both, or in none of them.
        simp only [Json.lookup_shape]
        cases item.lookup key with
        | none =>
          simp only [Option.map_none, outline]
          rw [outlines_fillChildren_shape]
        | some v =>
          cases v with
          | array entries =>
            have hcopies : ∀ entry ∈ entries,
                outline (.node (.element e) content (fillChildren marker true entry.shape children)) =
                  outline (.node (.element e) content (fillChildren marker true entry children)) := by
              intro entry _
              simp only [outline]
              rw [outlines_fillChildren_shape]
            simp only [Option.map_some, Json.Value.shape, Json.itemsShape_eq_map, outline, outlines_eq_map,
              List.map_map]
            congr 1
            exact List.map_congr_left hcopies
          | _ =>
            simp only [Option.map_some, Json.Value.shape, outline]
            rw [outlines_fillChildren_shape]
    | _ => rfl

theorem outlines_fillChildren_shape (ownText : Bool) (item : Json.Value) : ∀ ts : List Tree,
    outlines (fillChildren marker ownText item.shape ts) = outlines (fillChildren marker ownText item ts)
  | [] => rfl
  | t :: ts => by
    rw [fillChildren, fillChildren, outlines, outlines, outline_fillChild_shape,
      outlines_fillChildren_shape]
end

theorem outline_instantiate_shape (t : Tree) :
    (t.instantiate marker item.shape).outline = (t.instantiate marker item).outline := by
  obtain ⟨k, content, children⟩ := t
  simp only [instantiate, outline]
  rw [outlines_fillChildren_shape]

end Tree

namespace Document

open Json

variable {d : Document} {template : NodeId} {marker : String}

theorem renderItems_shape (data : Value) : renderItems data.shape = (renderItems data).map Value.shape := by
  cases data with
  | array items => exact itemsShape_eq_map items
  | _ => rfl

/-- The filled trees of all items have the outlines that the items without their scalars give them. -/
theorem outlines_renderItems_shape (t : Tree) (data : Value) :
    Tree.outlines ((renderItems data.shape).flatMap fun item => (t.instantiate marker item).children) =
      Tree.outlines ((renderItems data).flatMap fun item => (t.instantiate marker item).children) := by
  rw [renderItems_shape, Tree.outlines_eq_map, Tree.outlines_eq_map, List.map_flatMap, List.map_flatMap,
    List.flatMap_map]
  congr 1
  funext item
  rw [← Tree.children_outline, ← Tree.children_outline, Tree.outline_instantiate_shape]

/-- If two data values differ in scalars alone, a template of a sound document renders with both of them
to the same number of items, and to fragments whose trees differ in the contents of texts alone. -/
theorem data_keeps_outline (h : d.Sound) (ht : d.tagName? template = some "template") (marker : String)
    {data other : Value} (hshape : data.shape = other.shape) :
    ∃ count f₁ d₁ f₂ d₂,
      d.renderFragment marker template data = some ((f₁, count), d₁) ∧
      d.renderFragment marker template other = some ((f₂, count), d₂) ∧
      (d₁.tree f₁).outline = (d₂.tree f₂).outline := by
  obtain ⟨content, hc⟩ : ∃ content, d.content? template = some content := by
    obtain ⟨e, he, hname⟩ := Option.map_eq_some_iff.mp ht
    obtain ⟨content, hcontent⟩ := Option.isSome_iff_exists.mp (h.content_of_template he hname)
    exact ⟨content, by simp [content?, he, hcontent]⟩
  obtain ⟨f₁, d₁, hrender₁, g₁⟩ := growing_renderFragment h hc marker data
  obtain ⟨f₂, d₂, hrender₂, g₂⟩ := growing_renderFragment h hc marker other
  have hcount : (renderItems other).length = (renderItems data).length := by
    rw [← List.length_map (f := Value.shape), ← renderItems_shape, ← hshape, renderItems_shape,
      List.length_map]
  refine ⟨_, f₁, d₁, f₂, d₂, hrender₁, by rw [hrender₂, hcount], ?_⟩
  rw [g₁.tree_eq, g₂.tree_eq]
  simp only [Tree.outline]
  rw [← outlines_renderItems_shape, hshape, outlines_renderItems_shape]

/-- Markup in the data against nothing and a number, through a template that repeats an element. -/
theorem data_keeps_outline_markup :
    let d := Document.parse "<template><p data-nested-array=xs><i>${a}</i></p>${t}</template>"
    let data : Value := .object
      [("t", .string "<script>"), ("xs", .array [.object [("a", .string "</p>")], .null])]
    let other : Value := .object
      [("t", .null), ("xs", .array [.object [("a", .number (.integer 1))], .bool true])]
    d.Sound ∧ d.tagName? 4 = some "template" ∧ data.shape = other.shape ∧
      ∃ count f₁ d₁ f₂ d₂,
        d.renderFragment "data-nested-array" 4 data = some ((f₁, count), d₁) ∧
        d.renderFragment "data-nested-array" 4 other = some ((f₂, count), d₂) ∧
        (d₁.tree f₁).outline = (d₂.tree f₂).outline := by
  intro d data other
  have hw : d.Sound := (wellFormed_parse _).sound
  have ht : d.tagName? 4 = some "template" := by decide +kernel
  have hshape : data.shape = other.shape := rfl
  exact ⟨hw, ht, hshape, data_keeps_outline hw ht "data-nested-array" hshape⟩

end Document

end Hypertemplate
