import Hypertemplate.Document.Release
import Hypertemplate.Document.Walk

/-!
# Nodes after a change

What the primitive changes of a document do to the node at each place. Everything that is proved about
documents looks at them through `node`, so that the table itself is not opened again. A change that keeps
a vacant node vacant needs no bound on its place: outside of the table nothing is changed and a vacant node
is read.
-/

namespace Hypertemplate.Document

/-! ## Reading outside of the table -/

theorem node_of_size_le {d : Document} {i : NodeId} (h : d.nodes.size ≤ i) : d.node i = .vacant := by
  simp [node, h]

theorem isLive_eq (d : Document) (i : NodeId) : d.isLive i = (d.node i).live := rfl

theorem parent_eq (d : Document) (i : NodeId) : d.parent i = (d.node i).parent := rfl

theorem children_eq (d : Document) (i : NodeId) : d.children i = (d.node i).children := rfl

theorem kind_eq (d : Document) (i : NodeId) : d.kind i = (d.node i).kind := rfl

/-- What the kind of a node says about a template's content. -/
def contentOf? : Kind → Option NodeId
  | .element e => e.content
  | _ => none

theorem content?_eq (d : Document) (i : NodeId) : d.content? i = contentOf? (d.node i).kind := by
  unfold content? element? kind contentOf?
  cases (d.node i).kind <;> rfl

theorem element?_eq_some_iff {d : Document} {i : NodeId} {e : ElementData} :
    d.element? i = some e ↔ (d.node i).kind = .element e := by
  unfold element? kind
  cases (d.node i).kind <;> simp

/-! ## Changing one place -/

theorem node_setNode {d : Document} {i : NodeId} (h : i < d.nodes.size) (n : Node) (j : NodeId) :
    (d.setNode i n).node j = if j = i then n else d.node j := by
  by_cases hj : j = i
  · subst hj
    simp [node, setNode, h]
  · simp [node, setNode, Array.getD_eq_getD_getElem?, Ne.symm hj, hj]

theorem node_setNode_of_ne {d : Document} {i j : NodeId} (hj : i ≠ j) (n : Node) :
    (d.setNode j n).node i = d.node i := by
  simp [node, setNode, Array.getD_eq_getD_getElem?, Ne.symm hj]

/-- A change of one node, read at a place of the table. -/
theorem node_modifyNode_of_lt {d : Document} {j : NodeId} (hj : j < d.nodes.size) (i : NodeId)
    (f : Node → Node) :
    (d.modifyNode i f).node j = if j = i then f (d.node i) else d.node j := by
  by_cases hji : j = i
  · subst hji
    exact node_setNode hj _ j
  · rw [if_neg hji]
    exact node_setNode_of_ne hji _

/-- A change of one node; outside of the table it has to keep the vacant node. -/
theorem node_modifyNode {d : Document} {i : NodeId} {f : Node → Node}
    (h : d.isLive i = true ∨ f .vacant = .vacant) (j : NodeId) :
    (d.modifyNode i f).node j = if j = i then f (d.node i) else d.node j := by
  by_cases hi : i < d.nodes.size
  · exact node_setNode hi _ j
  · have hv : f .vacant = .vacant := by
      rcases h with h | h
      · exact absurd (lt_size_of_isLive h) hi
      · exact h
    have hsame : d.modifyNode i f = d := by
      simp [modifyNode, setNode, Array.setIfInBounds, hi]
    have hout : d.node i = .vacant := node_of_size_le (Nat.le_of_not_lt hi)
    rw [hsame, hout, hv]
    split
    · next hj => rw [hj, hout]
    · rfl

theorem node_setParent {d : Document} {i : NodeId} {p : Option NodeId}
    (h : d.isLive i = true ∨ p = none) (j : NodeId) :
    (d.setParent i p).node j = if j = i then { d.node i with parent := p } else d.node j := by
  refine node_modifyNode (h.imp_right ?_) j
  rintro rfl
  rfl

theorem node_setChildren {d : Document} {i : NodeId} {cs : List NodeId}
    (h : d.isLive i = true ∨ cs = []) (j : NodeId) :
    (d.setChildren i cs).node j = if j = i then { d.node i with children := cs } else d.node j := by
  refine node_modifyNode (h.imp_right ?_) j
  rintro rfl
  rfl

/-! ## What a change of nodes leaves alone -/

/-- The table has the same size, and the same places are given back and pinned. -/
structure SameFrame (d d' : Document) : Prop where
  size_eq : d'.nodes.size = d.nodes.size
  free_eq : d'.free = d.free
  pinned_eq : d'.pinned = d.pinned

theorem SameFrame.rfl {d : Document} : SameFrame d d := ⟨Eq.refl _, Eq.refl _, Eq.refl _⟩

theorem SameFrame.trans {d d' d'' : Document} (h : SameFrame d d') (h' : SameFrame d' d'') :
    SameFrame d d'' :=
  ⟨h'.size_eq.trans h.size_eq, h'.free_eq.trans h.free_eq, h'.pinned_eq.trans h.pinned_eq⟩

theorem sameFrame_modifyNode (d : Document) (i : NodeId) (f : Node → Node) :
    SameFrame d (d.modifyNode i f) := by
  constructor <;> simp [modifyNode, setNode]

theorem sameFrame_setParent (d : Document) (i : NodeId) (p : Option NodeId) :
    SameFrame d (d.setParent i p) :=
  sameFrame_modifyNode d i _

theorem sameFrame_setChildren (d : Document) (i : NodeId) (cs : List NodeId) :
    SameFrame d (d.setChildren i cs) :=
  sameFrame_modifyNode d i _

theorem sameFrame_setParents (is : List NodeId) (p : Option NodeId) (d : Document) :
    SameFrame d (d.setParents is p) := by
  induction is generalizing d with
  | nil => exact SameFrame.rfl
  | cons i rest ih => exact (sameFrame_setParent d i p).trans (ih (d.setParent i p))

theorem node_setParents_of_lt {j : NodeId} (p : Option NodeId) (is : List NodeId) :
    ∀ {d : Document}, j < d.nodes.size →
      (d.setParents is p).node j = if j ∈ is then { d.node j with parent := p } else d.node j := by
  induction is with
  | nil => simp [setParents]
  | cons i rest ih =>
    intro d hj
    change ((d.setParent i p).setParents rest p).node j = _
    rw [ih ((sameFrame_setParent d i p).size_eq ▸ hj), setParent, node_modifyNode_of_lt hj]
    by_cases hji : j = i
    · subst hji
      simp
    · simp [hji]

theorem node_setParents {p : Option NodeId} {is : List NodeId} {d : Document}
    (h : (∀ i ∈ is, d.isLive i = true) ∨ p = none) (j : NodeId) :
    (d.setParents is p).node j = if j ∈ is then { d.node j with parent := p } else d.node j := by
  by_cases hj : j < d.nodes.size
  · exact node_setParents_of_lt p is hj
  · have hout := Nat.le_of_not_lt hj
    rw [node_of_size_le hout, node_of_size_le ((sameFrame_setParents is p d).size_eq ▸ hout)]
    split
    · next hmem =>
      rcases h with h | rfl
      · exact absurd (lt_size_of_isLive (h j hmem)) hj
      · rfl
    · rfl

/-! ## New nodes -/

/-- A new node takes a place that is not live; the other places are as before. -/
theorem node_allocate (d : Document) (k : Kind) (hfree : ∀ i ∈ d.free, i < d.nodes.size)
    (j : NodeId) :
    (d.allocate k).2.node j = if j = (d.allocate k).1 then { kind := k } else d.node j := by
  unfold allocate
  cases hf : d.free with
  | cons i rest =>
    have hi : i < d.nodes.size := hfree i (by simp [hf])
    have hset : ∀ m : Node, (({ d with free := rest } : Document).setNode i m).node j =
        if j = i then m else d.node j :=
      fun m => node_setNode (d := { d with free := rest }) hi m j
    exact hset _
  | nil =>
    by_cases hj : j = d.nodes.size
    · subst hj
      simp [node]
    · simp [node, Array.getD_eq_getD_getElem?, Array.getElem?_push, hj]

theorem pinned_allocate (d : Document) (k : Kind) : (d.allocate k).2.pinned = d.pinned := by
  unfold allocate
  split <;> rfl

end Hypertemplate.Document
