import Hypertemplate.Proofs.Document.Printing
import Hypertemplate.Proofs.Document.Releasing
import Hypertemplate.Template.Render

/-!
# What the markup is read off

The markup of a sound document depends on the tree of the root and on the document type alone
(`toHtml_eq_of_tree_eq`). Rendering does not change the document type.
-/

namespace Hypertemplate.Document

open Json

variable {d d' : Document} {i j : NodeId}

/-! ## Markup of trees -/

theorem toHtml_eq_of_tree_eq (h : d.Sound) (h' : d'.Sound)
    (htree : d.tree root = d'.tree root) (hdoctype : d.doctype = d'.doctype) : d.toHtml = d'.toHtml := by
  rw [← String.toList_inj, h.toList_toHtml, h'.toList_toHtml, htree, hdoctype]

theorem tagName?_eq_of_plain_eq (h : (d.kind i).plain = (d'.kind j).plain) : d.tagName? i = d'.tagName? j := by
  unfold tagName? element?
  cases hi : d.kind i <;> cases hj : d'.kind j <;> rw [hi, hj] at h <;> simp_all [Kind.plain]

theorem innerHtml_eq_of_tree_eq (h : d.Sound) (h' : d'.Sound) (htree : d.tree i = d'.tree i) :
    d.innerHtml i = d'.innerHtml i := by
  have htag : d.tagName? i = d'.tagName? i := by
    apply tagName?_eq_of_plain_eq
    rw [← h.kind_tree, ← h'.kind_tree, htree]
  rw [← String.toList_inj, h.toList_innerHtml, h'.toList_innerHtml, htree, htag]

/-! ## The document type -/

theorem doctype_setParents (is : List NodeId) (p : Option NodeId) (d : Document) :
    (d.setParents is p).doctype = d.doctype := by
  induction is generalizing d with
  | nil => rfl
  | cons i rest ih => exact ih _

theorem doctype_foldl {α : Type} {step : Document → α → Document} (as : List α)
    (hstep : ∀ d a, (step d a).doctype = d.doctype) : ∀ d, (as.foldl step d).doctype = d.doctype := by
  induction as with
  | nil => exact fun _ => rfl
  | cons a rest ih => exact fun d => (ih _).trans (hstep d a)

theorem doctype_allocate (d : Document) (k : Kind) : (d.allocate k).2.doctype = d.doctype := by
  unfold allocate
  split <;> rfl

theorem doctype_detach (d : Document) (i : NodeId) : (d.detach i).doctype = d.doctype := by
  unfold detach
  split <;> rfl

theorem doctype_clearChildren (d : Document) (i : NodeId) :
    (d.clearChildren i).2.doctype = d.doctype :=
  doctype_setParents _ _ _

theorem doctype_takeInsertables (d : Document) (i : NodeId) :
    (d.takeInsertables i).2.doctype = d.doctype := by
  unfold takeInsertables
  split
  · exact doctype_clearChildren d i
  · exact doctype_detach d i

theorem doctype_adopt (d : Document) (p c : NodeId) : (d.adopt p c).doctype = d.doctype := rfl

theorem doctype_appendChild (d : Document) (p c : NodeId) : (d.appendChild p c).doctype = d.doctype := by
  rw [appendChild_eq]
  exact (doctype_foldl _ (fun d i => doctype_adopt d p i) _).trans (doctype_takeInsertables d c)

theorem doctype_replaceWith (d : Document) (i r : NodeId) : (d.replaceWith i r).doctype = d.doctype := by
  cases hp : d.parent i with
  | none => rw [replaceWith_of_parent_eq_none hp]
  | some p =>
    rw [replaceWith_eq hp]
    split
    · exact (doctype_setParents _ _ _).trans (doctype_takeInsertables d r)
    · exact doctype_takeInsertables d r

theorem doctype_releaseAll (d : Document) (pending : List NodeId) :
    (d.releaseAll pending).doctype = d.doctype := by
  fun_induction releaseAll d pending with
  | case1 d => rfl
  | case2 d i rest _ _ ih => exact ih
  | case3 d i rest _ _ ih => exact ih
  | case4 d i rest _ ih => exact ih

theorem doctype_release (d : Document) (i : NodeId) : (d.release i).doctype = d.doctype := by
  unfold release
  split
  · rfl
  · exact (doctype_releaseAll _ _).trans (doctype_detach d i)

theorem doctype_copyDeep (n : Nat) : ∀ (d : Document) (i : NodeId),
    (copyDeep n d i).2.doctype = d.doctype := by
  induction n with
  | zero => exact fun d i => doctype_allocate d _
  | succ n ih =>
    intro d i
    have hkind : (copyKind (copyDeep n) d (d.kind i)).2.doctype = d.doctype := by
      unfold copyKind
      split
      · split
        · exact ih d _
        · rfl
      · rfl
    refine (doctype_foldl _ (fun d c => ?_) _).trans ((doctype_allocate _ _).trans hkind)
    exact ih d c

theorem doctype_cloneNode (d : Document) (i : NodeId) : (d.cloneNode i true).2.doctype = d.doctype :=
  doctype_copyDeep _ d i

theorem doctype_createElement (d : Document) (name : String) :
    (d.createElement name).2.doctype = d.doctype := by
  by_cases hn : name.map Char.toLower = "template"
  · rw [createElement_template hn]
    exact (doctype_allocate _ _).trans (doctype_allocate d _)
  · rw [createElement_other hn]
    exact doctype_allocate d _

theorem doctype_substituteText (d : Document) (item : Value) (i : NodeId) :
    (d.substituteText item i).doctype = d.doctype := by
  unfold substituteText
  split <;> rfl

theorem doctype_fillWithin (marker : String) (levels : Nat) : ∀ (d : Document) (i : NodeId) (item : Value),
    (fillWithin marker levels d i item).doctype = d.doctype := by
  induction levels with
  | zero => exact fun d i item => doctype_foldl _ (fun d t => doctype_substituteText d item t) d
  | succ levels ih =>
    intro d i item
    refine (doctype_foldl _ (fun d r => ?_) _).trans
      (doctype_foldl _ (fun d t => doctype_substituteText d item t) d)
    refine (doctype_release _ _).trans ((doctype_replaceWith _ _ _).trans ?_)
    refine (doctype_foldl _ (fun d entry => ?_) _).trans (doctype_createElement d "div")
    exact (doctype_appendChild _ _ _).trans ((ih _ _ _).trans (doctype_cloneNode d _))

theorem doctype_applyAction (d : Document) (action : Action) (target fragment : NodeId) :
    (d.applyAction action target fragment).doctype = d.doctype := by
  cases action with
  | append => exact (doctype_release _ _).trans (doctype_appendChild d _ _)
  | swap =>
    unfold applyAction
    dsimp only
    split
    · exact (doctype_release _ _).trans ((doctype_release _ _).trans (doctype_replaceWith d _ _))
    · exact doctype_release d _
  | update =>
    exact (doctype_release _ _).trans ((doctype_appendChild _ _ _).trans
      ((doctype_foldl _ (fun d i => doctype_release d i) _).trans (doctype_clearChildren d _)))

theorem doctype_render (d : Document) (marker : String) (template : NodeId) (data : Value)
    (target : NodeId) (action : Action) :
    (d.render marker template data target action).2.doctype = d.doctype := by
  unfold render renderFragment
  cases d.content? template with
  | none => rfl
  | some content =>
    refine (doctype_applyAction _ _ _ _).trans ?_
    refine (doctype_foldl _ (fun d item => ?_) _).trans (doctype_allocate d .fragment)
    exact (doctype_release _ _).trans ((doctype_appendChild _ _ _).trans
      ((doctype_fillWithin _ _ _ _ _).trans (doctype_cloneNode d _)))

end Hypertemplate.Document
