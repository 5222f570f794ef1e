import Hypertemplate.Proofs.Document.Preorder
import Hypertemplate.Proofs.Document.Tree

/-!
# Texts and form values of trees

The text below a node and the value of a form control depend on the tree of the node alone
(`Sound.textContent_eq`, `Sound.value?_eq`). A select looks for its option among all nodes below it:
the walk over them follows their preorder, which goes over the parts of the tree in order
(`Sound.map_tree_descendants`).
-/

namespace Hypertemplate

open Hypertemplate.Text

/-- The value of a form control from what is below it: its text, its value as an option, and the value of the
option that it shows. -/
def ElementData.valueFrom (e : ElementData) (text option : String) (chosen : Option String) : Option String :=
  if !Document.hasFormValue e.name then none
  else if e.enteredValue.isSome then e.enteredValue
  else some (match e.name with
    | "textarea" => text
    | "option" => option
    | "select" => chosen.getD ""
    | _ => (Document.valueOf? "value" e.attributes).getD "")

namespace Tree

/-! ## Texts -/

mutual
/-- The text of all texts in a tree, one after the other. Comments and template contents have none. -/
def text : Tree → String
  | .node k _ children =>
    match k with
    | .text t => t
    | .comment _ => ""
    | _ => textList children

/-- The text of trees one after the other. -/
def textList : List Tree → String
  | [] => ""
  | t :: ts => t.text ++ textList ts
end

/-! ## Parts -/

mutual
/-- A tree and the trees below it in document order, without template contents. -/
def parts : Tree → List Tree
  | .node k content children => .node k content children :: partsList children

/-- The parts of trees one after the other. -/
def partsList : List Tree → List Tree
  | [] => []
  | t :: ts => t.parts ++ partsList ts
end

/-! ## Form values -/

/-- The element at the top of a tree. -/
def element? (t : Tree) : Option ElementData :=
  match t.kind with
  | .element e => some e
  | _ => none

/-- The value of an option. -/
def optionValue (t : Tree) (e : ElementData) : String :=
  e.enteredValue.getD ((Document.valueOf? "value" e.attributes).getD (trim t.text))

/-- The options below the top of a tree. -/
def options (t : Tree) : List (Tree × ElementData) :=
  (partsList t.children).filterMap fun s =>
    s.element?.bind fun e => if e.name = "option" then some (s, e) else none

/-- The option that a select shows: the first that is marked, else the first. -/
def chosenOption? (t : Tree) : Option (Tree × ElementData) :=
  (t.options.find? fun (_, e) => (Document.valueOf? "selected" e.attributes).isSome) <|> t.options.head?

/-- The value of the form control at the top of a tree. -/
def value? (t : Tree) : Option String :=
  t.element?.bind fun e =>
    e.valueFrom t.text (t.optionValue e) (t.chosenOption?.map fun (s, e) => s.optionValue e)

end Tree

namespace Document

variable {d : Document} {i : NodeId}

/-! ## What is read off the tree -/

theorem value?_eq_valueFrom (d : Document) (i : NodeId) :
    d.value? i = (d.element? i).bind fun e => e.valueFrom (d.textContent i) (d.optionValue i e)
      ((d.chosenOption? i).map fun (n, e) => d.optionValue n e) := by
  unfold value?
  cases d.element? i <;> rfl

theorem join_textBelow {f : NodeId → String} {is : List NodeId} (h : ∀ i ∈ is, f i = (d.tree i).text) :
    String.join (is.map f) = Tree.textList (is.map d.tree) := by
  induction is with
  | nil => rfl
  | cons i rest ih =>
    rw [List.map_cons, String.join_cons, h i (by simp), ih fun j hj => h j (by simp [hj])]
    rfl

/-- Lists of nodes one after the other go over the parts of trees, if each of them does. -/
theorem map_tree_flatMap {f : NodeId → List NodeId} {is : List NodeId}
    (h : ∀ i ∈ is, (f i).map d.tree = (d.tree i).parts) :
    (is.flatMap f).map d.tree = Tree.partsList (is.map d.tree) := by
  induction is with
  | nil => rfl
  | cons i rest ih =>
    rw [List.flatMap_cons, List.map_append, h i (by simp), ih fun j hj => h j (by simp [hj])]
    rfl

namespace Sound

variable (h : d.Sound)

include h

theorem textBelow_eq (i : NodeId) : ∀ n, d.rank i < n → d.textBelow n i = (d.tree i).text := by
  refine h.induction_within (motive := fun n i => d.textBelow n i = (d.tree i).text) (fun p n ih => ?_) i
  have hchildren : String.join ((d.children p).map (d.textBelow n)) =
      Tree.textList ((d.children p).map d.tree) :=
    join_textBelow fun c hc => ih c (owns_iff.mpr (Or.inl hc))
  rw [h.tree_eq, textBelow]
  cases hk : d.kind p with
  | document | fragment | element e => exact hchildren
  | text t | comment t => rfl

theorem textContent_eq (i : NodeId) : d.textContent i = (d.tree i).text :=
  h.textBelow_eq i _ (Nat.lt_succ_of_le (rank_le_size d i))

theorem parts_tree (i : NodeId) :
    (d.tree i).parts = d.tree i :: Tree.partsList ((d.children i).map d.tree) := by
  rw [h.tree_eq]
  rfl

/-- The preorder of a node goes over the parts of its tree. -/
theorem map_tree_listing (i : NodeId) : (d.listing i).map d.tree = (d.tree i).parts := by
  refine h.induction (motive := fun i => (d.listing i).map d.tree = (d.tree i).parts) i fun p ih => ?_
  rw [h.listing_eq, List.map_cons, h.parts_tree, map_tree_flatMap fun c hc => ih c (owns_iff.mpr (Or.inl hc))]

/-- The nodes below a node, in document order. -/
theorem map_tree_descendants (i : NodeId) :
    (d.descendants i).map d.tree = Tree.partsList (d.tree i).children := by
  rw [h.descendants_eq, h.children_tree, map_tree_flatMap fun c _ => h.map_tree_listing c]

theorem element?_tree (i : NodeId) :
    (d.tree i).element? = (d.element? i).map fun e => { e with content := none } := by
  rw [Tree.element?, h.kind_tree, element?]
  cases d.kind i <;> rfl

theorem optionValue_eq (i : NodeId) (e : ElementData) :
    d.optionValue i e = (d.tree i).optionValue { e with content := none } := by
  rw [optionValue, Tree.optionValue, h.textContent_eq]

/-- A select shows the same option. -/
theorem chosenOption?_eq (i : NodeId) : (d.tree i).chosenOption? =
    (d.chosenOption? i).map fun (n, e) => (d.tree n, { e with content := none }) := by
  have hoptions : (d.tree i).options = ((d.descendants i).filterMap fun n =>
      (d.element? n).bind fun e => if e.name = "option" then some (n, e) else none).map
        fun (n, e) => (d.tree n, { e with content := none }) := by
    rw [Tree.options, ← h.map_tree_descendants, List.filterMap_map, List.map_filterMap]
    congr 1
    funext n
    rw [Function.comp_apply, h.element?_tree]
    cases d.element? n with
    | none => rfl
    | some e => by_cases hn : e.name = "option" <;> simp [hn]
  rw [Tree.chosenOption?, hoptions, List.find?_map, List.head?_map]
  unfold chosenOption?
  dsimp only [Function.comp_def]
  generalize List.filterMap _ (d.descendants i) = options
  cases options.find? _ <;> rfl

/-- The value of a form control is read off the tree. -/
theorem value?_eq (i : NodeId) : d.value? i = (d.tree i).value? := by
  have hchosen : ((d.chosenOption? i).map fun (n, e) => d.optionValue n e) =
      (d.tree i).chosenOption?.map fun (s, e) => s.optionValue e := by
    rw [h.chosenOption?_eq, Option.map_map]
    exact Option.map_congr fun x _ => h.optionValue_eq x.1 x.2
  rw [value?_eq_valueFrom, Tree.value?, h.element?_tree, hchosen, h.textContent_eq]
  cases d.element? i with
  | none => rfl
  | some e =>
    rw [Option.bind_some, Option.map_some, Option.bind_some, h.optionValue_eq]
    rfl

end Sound

end Document

end Hypertemplate
