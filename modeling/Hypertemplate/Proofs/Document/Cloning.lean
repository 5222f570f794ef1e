import Hypertemplate.Proofs.Document.Copies
import Hypertemplate.Proofs.Document.Printing
import Hypertemplate.Proofs.Document.Table
import Hypertemplate.Proofs.Document.Values
import Hypertemplate.Proofs.Html.Settle

/-!
# What a copy has in common with the original

A copy and its original have one tree and no node in common (`cloneNode_copies`). What is read off the tree is
the same for both: the markup, the text and the form value (`Alike`). A shallow copy has no children, but a copy
of a template's content all the same.
-/

namespace Hypertemplate.Document

variable {d d' : Document} {c i j : NodeId}

/-- `c` looks in `d'` like `i` does in `d`: names, attributes, texts, comments, entered values and template
contents are the same all the way down, and so is what is read off them. -/
structure Alike (d : Document) (i : NodeId) (d' : Document) (c : NodeId) : Prop where
  tree_eq : d'.tree c = d.tree i
  outerHtml_eq : d'.outerHtml c = d.outerHtml i
  textContent_eq : d'.textContent c = d.textContent i
  value_eq : d'.value? c = d.value? i

/-- Nodes with the same tree look the same. -/
theorem Sound.alike (h : d.Sound) (h' : d'.Sound) (htree : d'.tree c = d.tree i) : Alike d i d' c where
  tree_eq := htree
  outerHtml_eq := by rw [← String.toList_inj, h.toList_outerHtml, h'.toList_outerHtml, htree]
  textContent_eq := by rw [h.textContent_eq, h'.textContent_eq, htree]
  value_eq := by rw [h.value?_eq, h'.value?_eq, htree]

/-- `c` was made apart from `i`: it has no owner, all that is below it is new and not below `i`, and the nodes
that were there are as they were. -/
structure MadeApart (d : Document) (i c : NodeId) (d' : Document) : Prop where
  sound : d'.Sound
  orphan : d'.Orphan c
  parent_eq : d'.parent c = none
  fresh : ∀ j, d'.Under c j → d.isLive j = false
  disjoint : ∀ j, d'.Under c j → ¬ d'.Under i j
  node_eq : ∀ j, d.isLive j = true → d'.node j = d.node j

theorem Made.madeApart (m : Made d c d') (h : d.Sound) (hi : d.isLive i = true) : MadeApart d i c d' where
  sound := m.sound
  orphan := m.orphan
  parent_eq := m.sound.parent_of_orphan m.orphan
  fresh := by
    intro j hj
    by_contra hl
    rw [Bool.not_eq_false] at hl
    exact m.not_under h hl hj
  disjoint := by
    intro j hj hij
    have hl := h.live_of_under hi ((m.ext.under_iff h hi).mp hij)
    exact m.not_under h hl hj
  node_eq _ hj := m.ext.node_eq hj

/-- A deep copy of a node looks like the node; a shallow copy looks like it but for the children. In both
everything is new, also in a template's content. -/
theorem cloneNode_copies (h : d.Sound) (hi : d.isLive i = true) :
    (MadeApart d i (d.cloneNode i true).1 (d.cloneNode i true).2 ∧
      Alike d i (d.cloneNode i true).2 (d.cloneNode i true).1) ∧
    MadeApart d i (d.cloneNode i false).1 (d.cloneNode i false).2 ∧
      (d.cloneNode i false).2.children (d.cloneNode i false).1 = [] ∧
      ((d.cloneNode i false).2.kind (d.cloneNode i false).1).plain = (d.kind i).plain ∧
      ((d.cloneNode i false).2.content? (d.cloneNode i false).1).map (d.cloneNode i false).2.tree =
        (d.content? i).map d.tree := by
  constructor
  · have k := copied_cloneNode h hi
    have a := k.toMade.madeApart h hi
    exact ⟨a, h.alike a.sound k.tree_eq⟩
  · have g := growing_cloneNode_shallow h i
    exact ⟨g.made.madeApart h hi, List.map_eq_nil_iff.mp g.trees_eq, g.kind_eq, g.content_eq⟩

/-- The copies of a template have a content of their own. -/
theorem cloneNode_copies_template :
    let d := Document.parse "<div><template><b title=x>a</b></template>c</div>"
    d.Sound ∧ d.isLive 6 = true ∧ d.content? 6 = some 5 ∧
      Alike d 6 (d.cloneNode 6 true).2 (d.cloneNode 6 true).1 ∧
      ∃ f, (d.cloneNode 6 false).2.content? (d.cloneNode 6 false).1 = some f ∧ f ≠ 5 ∧
        (d.cloneNode 6 false).2.tree f = d.tree 5 := by
  intro d
  have h : d.Sound := (wellFormed_parse _).sound
  obtain ⟨hl, hc, hfragment⟩ : d.isLive 6 = true ∧ d.content? 6 = some 5 ∧ d.isLive 5 = true := by
    decide +kernel
  obtain ⟨⟨-, hdeep⟩, hshallow, -, -, hcontent⟩ := cloneNode_copies h hl
  rw [hc, Option.map_some, Option.map_eq_some_iff] at hcontent
  obtain ⟨f, hf, htree⟩ := hcontent
  refine ⟨h, hl, hc, hdeep, f, hf, ?_, htree⟩
  rintro rfl
  rw [hshallow.fresh 5 (Under.of_owns (owns_iff.mpr (Or.inr hf)))] at hfragment
  cases hfragment

end Hypertemplate.Document
