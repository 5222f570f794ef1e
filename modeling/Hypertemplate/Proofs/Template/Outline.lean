import Hypertemplate.Proofs.Template.Structure

/-!
# Rendering without the contents of texts

`d.outline` is a document with every text emptied. Every operation that rendering is made of can be done on the
outline as well as on the document: whether a text is taken out or emptied first makes no difference. So the
outline of the page is decided by the outline of the document and the shape of the data (`outline_render`).
-/

namespace Hypertemplate

open Json

/-- A node without the contents of a text. -/
def Node.outline (n : Node) : Node := { n with kind := n.kind.outline }

namespace Document

/-- A document without the contents of its texts. -/
def outline (d : Document) : Document := { d with nodes := d.nodes.map Node.outline }

variable {d : Document} {i : NodeId}

/-! ## Reading -/

@[simp]
theorem node_outline (d : Document) (i : NodeId) : d.outline.node i = (d.node i).outline := by
  by_cases hi : i < d.nodes.size
  · simp [node, outline, Array.getD, hi]
  · simp [node, outline, Array.getD, hi, Node.outline, Node.vacant, Kind.outline]

@[simp]
theorem kind_outline (d : Document) (i : NodeId) : d.outline.kind i = (d.kind i).outline := by
  rw [kind_eq, node_outline]
  rfl

@[simp]
theorem parent_outline (d : Document) (i : NodeId) : d.outline.parent i = d.parent i := by
  rw [parent_eq, node_outline]
  rfl

@[simp]
theorem children_outline (d : Document) (i : NodeId) : d.outline.children i = d.children i := by
  rw [children_eq, node_outline]
  rfl

@[simp]
theorem isLive_outline (d : Document) (i : NodeId) : d.outline.isLive i = d.isLive i := by
  rw [isLive_eq, node_outline]
  rfl

@[simp]
theorem content?_outline (d : Document) (i : NodeId) : d.outline.content? i = d.content? i := by
  rw [content?_eq, content?_eq, ← kind_eq, ← kind_eq, kind_outline]
  cases d.kind i <;> rfl

@[simp]
theorem isPinned_outline (d : Document) (i : NodeId) : d.outline.isPinned i = d.isPinned i := rfl

@[simp]
theorem size_outline (d : Document) : d.outline.nodes.size = d.nodes.size := Array.size_map

/-! ## Writing -/

theorem outline_setNode (d : Document) (i : NodeId) (n : Node) :
    (d.setNode i n).outline = d.outline.setNode i n.outline := by
  simp [outline, setNode, Array.map_setIfInBounds]

theorem outline_modifyNode {f : Node → Node} (h : ∀ n, (f n).outline = f n.outline) (d : Document)
    (i : NodeId) : (d.modifyNode i f).outline = d.outline.modifyNode i f := by
  rw [modifyNode, modifyNode, outline_setNode, node_outline, h]

theorem outline_setParent (d : Document) (i : NodeId) (p : Option NodeId) :
    (d.setParent i p).outline = d.outline.setParent i p := by
  apply outline_modifyNode
  exact fun _ => rfl

theorem outline_setChildren (d : Document) (i : NodeId) (cs : List NodeId) :
    (d.setChildren i cs).outline = d.outline.setChildren i cs := by
  apply outline_modifyNode
  exact fun _ => rfl

/-- Steps that can be done on outlines can be done one after the other. -/
theorem outline_foldl {α β : Type} {step : Document → α → Document} {step' : Document → β → Document}
    (f : α → β) (h : ∀ d a, (step d a).outline = step' d.outline (f a)) (as : List α) :
    ∀ d : Document, (as.foldl step d).outline = (as.map f).foldl step' d.outline := by
  induction as with
  | nil => exact fun _ => rfl
  | cons a rest ih =>
    intro d
    rw [List.foldl_cons, List.map_cons, List.foldl_cons, ih, h]

theorem outline_foldl_same {α : Type} {step step' : Document → α → Document}
    (h : ∀ d a, (step d a).outline = step' d.outline a) (as : List α) (d : Document) :
    (as.foldl step d).outline = as.foldl step' d.outline := by
  have hmap := outline_foldl id h as d
  rwa [List.map_id] at hmap

theorem outline_setParents (is : List NodeId) (p : Option NodeId) (d : Document) :
    (d.setParents is p).outline = d.outline.setParents is p :=
  outline_foldl_same (fun d i => outline_setParent d i p) is d

theorem allocate_outline (d : Document) (k : Kind) :
    d.outline.allocate k.outline = ((d.allocate k).1, (d.allocate k).2.outline) := by
  have hfree : d.outline.free = d.free := rfl
  unfold allocate
  rw [hfree]
  cases d.free with
  | nil => simp [outline, Node.outline]
  | cons i rest =>
    have hset := outline_setNode { d with free := rest } i { kind := k }
    simp only [hset]
    rfl

/-! ## Links -/

theorem outline_detach (d : Document) (i : NodeId) : (d.detach i).outline = d.outline.detach i := by
  unfold detach
  rw [parent_outline]
  cases d.parent i with
  | none => rfl
  | some p =>
    rw [← outline_setParent]
    apply outline_modifyNode
    exact fun _ => rfl

theorem clearChildren_outline (d : Document) (i : NodeId) :
    d.outline.clearChildren i = ((d.clearChildren i).1, (d.clearChildren i).2.outline) := by
  unfold clearChildren
  simp only [children_outline, outline_setParents, outline_setChildren]

theorem takeInsertables_outline (d : Document) (i : NodeId) :
    d.outline.takeInsertables i = ((d.takeInsertables i).1, (d.takeInsertables i).2.outline) := by
  unfold takeInsertables
  rw [kind_outline]
  cases d.kind i with
  | fragment => exact clearChildren_outline d i
  | _ => simp only [Kind.outline, outline_detach]

theorem outline_adopt (d : Document) (p c : NodeId) : (d.adopt p c).outline = d.outline.adopt p c := by
  unfold adopt
  rw [← outline_setParent]
  apply outline_modifyNode
  exact fun _ => rfl

theorem outline_appendChild (d : Document) (p c : NodeId) :
    (d.appendChild p c).outline = d.outline.appendChild p c := by
  unfold appendChild
  rw [takeInsertables_outline]
  exact outline_foldl_same (fun d i => outline_adopt d p i) _ _

theorem outline_replaceWith (d : Document) (i r : NodeId) :
    (d.replaceWith i r).outline = d.outline.replaceWith i r := by
  unfold replaceWith
  rw [parent_outline]
  cases d.parent i with
  | none => rfl
  | some p =>
    simp only [takeInsertables_outline, children_outline]
    split
    · simp only [outline_setParent, outline_setChildren, outline_setParents]
    · rfl

/-! ## Copies -/

theorem copyKind_outline {copy : Document → NodeId → NodeId × Document}
    (h : ∀ d i, copy d.outline i = ((copy d i).1, (copy d i).2.outline)) (d : Document) (k : Kind) :
    copyKind copy d.outline k.outline =
      ((copyKind copy d k).1.outline, (copyKind copy d k).2.outline) := by
  cases k with
  | element e =>
    simp only [copyKind, Kind.outline]
    cases e.content with
    | none => rfl
    | some c => simp only [h]
  | _ => rfl

theorem copyDeep_outline (n : Nat) : ∀ (d : Document) (i : NodeId),
    copyDeep n d.outline i = ((copyDeep n d i).1, (copyDeep n d i).2.outline) := by
  induction n with
  | zero =>
    intro d i
    rw [copyDeep, copyDeep, kind_outline, allocate_outline]
  | succ n ih =>
    intro d i
    have hstep : ∀ (copy : NodeId) (d : Document) (c : NodeId),
        ((copyDeep n d c).2.adopt copy (copyDeep n d c).1).outline =
          (copyDeep n d.outline c).2.adopt copy (copyDeep n d.outline c).1 := by
      intro copy d c
      rw [outline_adopt, ih]
    simp only [copyDeep, kind_outline, children_outline, copyKind_outline ih, allocate_outline]
    congr 1
    exact (outline_foldl_same (hstep _) _ _).symm

theorem cloneNode_outline (d : Document) (i : NodeId) :
    d.outline.cloneNode i true = ((d.cloneNode i true).1, (d.cloneNode i true).2.outline) := by
  unfold cloneNode
  simp only [size_outline, if_true]
  exact copyDeep_outline _ d i

theorem createElement_outline (d : Document) (name : String) :
    d.outline.createElement name = ((d.createElement name).1, (d.createElement name).2.outline) := by
  have hfragment : ∀ d : Document, d.outline.allocate .fragment =
      ((d.allocate .fragment).1, (d.allocate .fragment).2.outline) := fun d => allocate_outline d .fragment
  have helement : ∀ (d : Document) (e : ElementData), d.outline.allocate (.element e) =
      ((d.allocate (.element e)).1, (d.allocate (.element e)).2.outline) :=
    fun d e => allocate_outline d (.element e)
  unfold createElement createFragment
  simp only [hfragment, helement]
  split
  · rfl
  · rfl

/-! ## Giving back -/

theorem outline_vacate (d : Document) (i : NodeId) : (d.vacate i).outline = d.outline.vacate i := by
  have hset := outline_setNode d i .vacant
  have hvacant : Node.vacant.outline = .vacant := rfl
  rw [hvacant] at hset
  unfold vacate
  rw [← hset]
  rfl

theorem outline_releaseAll (d : Document) (pending : List NodeId) :
    (d.releaseAll pending).outline = d.outline.releaseAll pending := by
  fun_induction releaseAll d pending with
  | case1 d => rw [releaseAll]
  | case2 d i rest hl hp ih =>
    rw [ih, outline_setParent, releaseAll.eq_def (d.outline)]
    simp [hl, hp]
  | case3 d i rest hl hp ih =>
    rw [ih, outline_vacate, releaseAll.eq_def (d.outline)]
    simp [hl, hp]
  | case4 d i rest hl ih =>
    rw [ih, releaseAll.eq_def d.outline (i :: rest)]
    simp [hl]

theorem outline_release (d : Document) (i : NodeId) : (d.release i).outline = d.outline.release i := by
  unfold release
  split
  · rfl
  · rw [outline_releaseAll, outline_detach]

/-! ## Filling -/

/-- A plan with the shapes of the entries to repeat for. -/
def FillPlan.shape (plan : FillPlan) : FillPlan :=
  ⟨plan.texts, plan.repeats.map fun r => (r.1, r.2.map Value.shape)⟩

theorem planChild_outline {item : Value} {marker : String} {n : Nat} (own : Bool) (c : NodeId)
    (h : ∀ own, d.outline.planBelow item.shape marker n own c = (d.planBelow item marker n own c).shape) :
    d.outline.planChild item.shape marker n own c = (d.planChild item marker n own c).shape := by
  unfold planChild
  rw [kind_outline]
  cases d.kind c with
  | element e =>
    simp only [Kind.outline, lookup_shape]
    split
    · exact h true
    · next key _ =>
      cases item.lookup key with
      | none => exact h false
      | some v =>
        cases v with
        | array entries => simp [Value.shape, itemsShape_eq_map, FillPlan.shape]
        | _ => exact h false
  | _ => rfl

theorem planBelow_outline (item : Value) (marker : String) (n : Nat) : ∀ own i,
    d.outline.planBelow item.shape marker n own i = (d.planBelow item marker n own i).shape := by
  induction n with
  | zero => exact fun _ _ => rfl
  | succ n ih =>
    intro own i
    have hchild : ∀ c, d.outline.planChild item.shape marker n own c =
        (d.planChild item marker n own c).shape := fun c => planChild_outline own c fun own => ih own c
    rw [planBelow_succ, planBelow_succ, children_outline]
    simp only [hchild, FillPlan.shape, List.map_flatMap]

theorem fillPlan_outline (d : Document) (item : Value) (marker : String) (i : NodeId) :
    d.outline.fillPlan item.shape marker i = (d.fillPlan item marker i).shape := by
  unfold fillPlan
  rw [size_outline, planBelow_outline]

theorem setNode_node (d : Document) (i : NodeId) : d.setNode i (d.node i) = d := by
  unfold setNode node
  by_cases hi : i < d.nodes.size
  · simp [Array.getD, hi, Array.setIfInBounds]
  · simp [Array.setIfInBounds, hi]

/-- Putting another text in the place of a text does not change the outline. -/
theorem outline_setText (d : Document) (i : NodeId) (t : String) : (d.setText i t).outline = d.outline := by
  have hsame := setNode_node d.outline i
  unfold setText
  rw [modifyNode, outline_setNode]
  split
  · next t hk =>
    conv_rhs => rw [← hsame]
    congr 1
    rw [node_outline, Node.outline, Node.outline, hk]
    rfl
  · rw [← node_outline, hsame]

theorem outline_substituteText (d : Document) (item : Value) (i : NodeId) :
    (d.substituteText item i).outline = d.outline := by
  unfold substituteText
  split
  · exact outline_setText d i _
  · rfl

/-- An empty text has no placeholders. -/
theorem substituteText_outline (d : Document) (item : Value) (i : NodeId) :
    d.outline.substituteText item i = d.outline := by
  unfold substituteText text?
  rw [kind_outline]
  cases d.kind i <;> rfl

theorem outline_substituteTexts (item item' : Value) (is : List NodeId) (d : Document) :
    (is.foldl (fun d i => d.substituteText item i) d).outline =
      is.foldl (fun d i => d.substituteText item' i) d.outline := by
  apply outline_foldl_same
  intro d i
  rw [outline_substituteText, substituteText_outline]

theorem outline_repeatElement {fill : Document → NodeId → Value → Document}
    (h : ∀ d i item, (fill d i item).outline = fill d.outline i item.shape) (d : Document)
    (element : NodeId) (entries : List Value) :
    (d.repeatElement fill element entries).outline =
      d.outline.repeatElement fill element (entries.map Value.shape) := by
  unfold repeatElement
  simp only [createElement_outline, outline_release, outline_replaceWith]
  congr 2
  apply outline_foldl
  intro d entry
  simp only [cloneNode_outline, outline_appendChild, h]

theorem outline_fillWithin (marker : String) (levels : Nat) : ∀ (d : Document) (i : NodeId) (item : Value),
    (fillWithin marker levels d i item).outline = fillWithin marker levels d.outline i item.shape := by
  induction levels with
  | zero =>
    intro d i item
    rw [fillWithin, fillWithin, fillPlan_outline]
    exact outline_substituteTexts item item.shape _ d
  | succ levels ih =>
    intro d i item
    rw [fillWithin, fillWithin, fillPlan_outline]
    simp only [FillPlan.shape]
    rw [← outline_substituteTexts item item.shape]
    apply outline_foldl
    exact fun d r => outline_repeatElement ih d r.1 r.2

/-! ## Rendering -/

mutual
theorem nesting_shape : ∀ v : Value, v.shape.nesting = v.nesting
  | .array items => by rw [Value.shape, Value.nesting, Value.nesting, itemsNesting_itemsShape]
  | .object fields => by rw [Value.shape, Value.nesting, Value.nesting, fieldsNesting_fieldsShape]
  | .null | .bool _ | .number _ | .string _ => rfl

theorem itemsNesting_itemsShape : ∀ items : List Value, itemsNesting (itemsShape items) = itemsNesting items
  | [] => rfl
  | v :: rest => by
    rw [itemsShape, itemsNesting, itemsNesting, nesting_shape, itemsNesting_itemsShape]

theorem fieldsNesting_fieldsShape : ∀ fields : List (String × Value),
    fieldsNesting (fieldsShape fields) = fieldsNesting fields
  | [] => rfl
  | (_, v) :: rest => by
    rw [fieldsShape, fieldsNesting, fieldsNesting, nesting_shape, fieldsNesting_fieldsShape]
end

theorem outline_fill (d : Document) (marker : String) (i : NodeId) (item : Value) :
    (d.fill marker i item).outline = d.outline.fill marker i item.shape := by
  unfold fill
  rw [outline_fillWithin, nesting_shape]

theorem renderFragment_outline (d : Document) (marker : String) (template : NodeId) (data : Value) :
    d.outline.renderFragment marker template data.shape =
      (d.renderFragment marker template data).map fun r => (r.1, r.2.outline) := by
  unfold renderFragment
  rw [content?_outline, Option.map_map]
  apply Option.map_congr
  intro content _
  have hfragment : d.outline.createFragment = (d.createFragment.1, d.createFragment.2.outline) :=
    allocate_outline d .fragment
  simp only [hfragment, renderItems_shape, List.length_map, Function.comp_apply, Prod.mk.injEq, true_and]
  refine (outline_foldl Value.shape (fun d item => ?_) (renderItems data) _).symm
  simp only [outline_release, outline_appendChild, outline_fill, cloneNode_outline]

theorem outline_applyAction (d : Document) (action : Action) (target fragment : NodeId) :
    (d.applyAction action target fragment).outline = d.outline.applyAction action target fragment := by
  unfold applyAction
  rw [outline_release]
  congr 1
  cases action with
  | append => exact outline_appendChild d target fragment
  | swap =>
    simp only [parent_outline]
    split
    · rw [outline_release, outline_replaceWith]
    · rfl
  | update =>
    simp only [clearChildren_outline, outline_appendChild]
    congr 1
    exact outline_foldl_same outline_release _ _

/-- Rendering the shape of the data on the outline of a document gives the outline of the rendered page. -/
theorem outline_render (d : Document) (marker : String) (template : NodeId) (data : Value)
    (target : NodeId) (action : Action) :
    d.outline.render marker template data.shape target action =
      ((d.render marker template data target action).1,
        (d.render marker template data target action).2.outline) := by
  unfold render
  rw [renderFragment_outline]
  cases d.renderFragment marker template data with
  | none => rfl
  | some r => simp only [Option.map_some, outline_applyAction]

end Document

end Hypertemplate
