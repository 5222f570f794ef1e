import Hypertemplate.Proofs.Document.Markup
import Hypertemplate.Proofs.Template.Outline
import Hypertemplate.Proofs.Template.Patches

/-!
# Data does not become markup

The angle brackets of tags and comments do not depend on the data, and written text has none but where it is
written as it is. So data can only bring brackets into a page through text right below `script` and `style`,
and through none if no such text has a placeholder (`count_toHtml_render`).
-/

namespace Hypertemplate

open Json

/-- Only the text that markup writes as it is. -/
def Writing.verbatim : Writing where
  text raw t := if raw then t else ""
  comment _ := ""
  startTag _ _ := ""
  endTag _ := ""

/-- Markup without the texts. -/
def Writing.bare : Writing where
  text _ _ := ""
  comment := Writing.html.comment
  startTag := Writing.html.startTag
  endTag := Writing.html.endTag

namespace Writing

@[simp] theorem verbatim_text (raw : Bool) (t : String) : verbatim.text raw t = if raw then t else "" := rfl

@[simp] theorem verbatim_comment (t : String) : verbatim.comment t = "" := rfl

@[simp] theorem verbatim_startTag (name : String) (attributes : List (String × String)) :
    verbatim.startTag name attributes = "" := rfl

@[simp] theorem verbatim_endTag (name : String) : verbatim.endTag name = "" := rfl

@[simp] theorem bare_text (raw : Bool) (t : String) : bare.text raw t = "" := rfl

@[simp] theorem bare_comment : bare.comment = html.comment := rfl

@[simp] theorem bare_startTag : bare.startTag = html.startTag := rfl

@[simp] theorem bare_endTag : bare.endTag = html.endTag := rfl

end Writing

namespace Document

variable {d d' : Document} {i p target template : NodeId} {c : Char}

/-- The text of a page that its markup has as it is. -/
def verbatimText (d : Document) : String :=
  String.join ((d.children root).map (d.write .verbatim d.depthBound false))

theorem WellFormed.toList_verbatimText (h : d.WellFormed) :
    d.verbatimText.toList = Tree.writeList .verbatim false (d.tree root).children := by
  rw [verbatimText, h.children_tree]
  exact toList_join_write fun c _ =>
    h.toList_write .verbatim c _ false (Nat.lt_succ_of_le (rank_le_size d c))

/-! ## Brackets in markup -/

theorem count_join {f g h : NodeId → String} (hf : ∀ i, (f i).toList.count c =
    (g i).toList.count c + (h i).toList.count c) (is : List NodeId) :
    (String.join (is.map f)).toList.count c =
      (String.join (is.map g)).toList.count c + (String.join (is.map h)).toList.count c := by
  induction is with
  | nil => rfl
  | cons i rest ih =>
    simp only [String.toList_join, List.map_cons, List.flatMap_cons, List.count_append] at ih ⊢
    rw [hf, ih]
    omega

theorem count_escapeText (hc : c = '<' ∨ c = '>') (t : String) : (escapeText t).toList.count c = 0 := by
  rw [List.count_eq_zero, escapeText, String.toList_ofList]
  intro hmem
  obtain ⟨a, -, ha⟩ := List.mem_flatMap.mp hmem
  obtain ⟨hlt, hgt⟩ := ne_of_mem_escapeTextChar ha
  exact hc.elim hlt hgt

/-- A bracket of markup is one of a tag, of a comment or of text that is written as it is. -/
theorem count_write_html (hc : c = '<' ∨ c = '>') (d : Document) (n : Nat) : ∀ raw i,
    (d.write .html n raw i).toList.count c =
      (d.write .bare n raw i).toList.count c + (d.write .verbatim n raw i).toList.count c := by
  induction n with
  | zero => exact fun _ _ => rfl
  | succ n ih =>
    intro raw i
    have hcontent : ∀ content : Option NodeId,
        ((content.map (d.write .html n false)).getD "").toList.count c =
          ((content.map (d.write .bare n false)).getD "").toList.count c +
            ((content.map (d.write .verbatim n false)).getD "").toList.count c := by
      intro content
      cases content with
      | none => rfl
      | some i => exact ih false i
    simp only [write]
    cases d.kind i with
    | document | fragment => exact count_join (ih raw) _
    | text t =>
      cases raw with
      | true => simp [Writing.html]
      | false => simpa [Writing.html] using count_escapeText hc t
    | comment t => simp
    | element e =>
      have hchildren := count_join (ih (isRawText e.name)) (d.children i)
      have hrest := hcontent e.content
      cases hvoid : isVoid e.name with
      | true => simp [hvoid]
      | false =>
        simp only [hvoid, Bool.false_eq_true, if_false, String.toList_append, List.count_append, hchildren,
          hrest, Writing.bare_startTag, Writing.bare_endTag, Writing.verbatim_startTag,
          Writing.verbatim_endTag, String.toList_empty, List.count_nil]
        omega

/-- Markup without the texts does not depend on the texts. -/
theorem write_bare_outline (d : Document) (n : Nat) : ∀ raw i,
    d.outline.write .bare n raw i = d.write .bare n raw i := by
  induction n with
  | zero => exact fun _ _ => rfl
  | succ n ih =>
    intro raw i
    have hsame : d.outline.write .bare n = d.write .bare n := funext fun raw => funext fun i => ih raw i
    simp only [write, kind_outline, children_outline, hsame]
    cases d.kind i <;> rfl

theorem count_toHtml (hc : c = '<' ∨ c = '>') (d : Document) : d.toHtml.toList.count c =
    ((d.doctype.map fun name => "<!DOCTYPE " ++ name ++ ">").getD "").toList.count c +
      (String.join ((d.children root).map (d.write .bare d.depthBound false))).toList.count c +
      d.verbatimText.toList.count c := by
  have hsame : d.markup d.depthBound false = d.write .html d.depthBound false :=
    funext fun i => markup_eq_write d _ false i
  rw [toHtml, hsame, String.toList_append, List.count_append,
    count_join (count_write_html hc d d.depthBound false), verbatimText]
  omega

/-- Pages with the same outline differ in brackets by those of the text that is written as it is. -/
theorem count_toHtml_of_outline_eq (hc : c = '<' ∨ c = '>') (h : d.outline = d'.outline) :
    d.toHtml.toList.count c + d'.verbatimText.toList.count c =
      d'.toHtml.toList.count c + d.verbatimText.toList.count c := by
  have hdoctype : d.doctype = d'.doctype := by
    show d.outline.doctype = d'.outline.doctype
    rw [h]
  have hchildren : d.children root = d'.children root := by
    rw [← children_outline d, ← children_outline d', h]
  have hbound : d.depthBound = d'.depthBound := by
    rw [depthBound, depthBound, ← size_outline d, ← size_outline d', h]
  have hbare : d.write .bare d'.depthBound false = d'.write .bare d'.depthBound false := by
    funext i
    rw [← write_bare_outline d, ← write_bare_outline d', h]
  rw [count_toHtml hc d, count_toHtml hc d', hdoctype, hchildren, hbound, hbare]
  omega

end Document

/-! ## Text that is written as it is -/

/-- Whether text right below a node is written as it is. -/
def Kind.rawBelow (raw : Bool) : Kind → Bool
  | .document | .fragment => raw
  | .element e => Document.isRawText e.name
  | .text _ | .comment _ => false

theorem Kind.rawBelow_plain (raw : Bool) (k : Kind) : k.plain.rawBelow raw = k.rawBelow raw := by
  cases k <;> rfl

namespace Tree

variable {marker : String} {item : Value} {raw : Bool} {w : Writing}

theorem writeList_append (w : Writing) (raw : Bool) (ts us : List Tree) :
    writeList w raw (ts ++ us) = writeList w raw ts ++ writeList w raw us := by
  simp only [writeList_eq_flatMap, List.flatMap_append]

/-- What is written of a tree depends on what is written of the parts of the tree. -/
theorem write_congr {k : Kind} {content content' : Option Tree} {ts us : List Tree}
    (hcontent : writeContent w content = writeContent w content')
    (hts : writeList w (k.rawBelow raw) ts = writeList w (k.rawBelow raw) us) :
    write w raw (.node k content ts) = write w raw (.node k content' us) := by
  cases k with
  | document | fragment => exact hts
  | text t | comment t => rfl
  | element e =>
    simp only [Kind.rawBelow] at hts
    rw [write, write, hcontent, hts]

theorem writeList_map_congr {α : Type} {f g : α → Tree} {as : List α}
    (h : ∀ a ∈ as, (f a).write w raw = (g a).write w raw) :
    writeList w raw (as.map f) = writeList w raw (as.map g) := by
  rw [writeList_eq_flatMap, writeList_eq_flatMap, List.flatMap_map, List.flatMap_map, List.flatMap_def,
    List.flatMap_def]
  congr 1
  exact List.map_congr_left h

mutual
/-- No text of a tree that is written as it is has a placeholder to fill. -/
def settled (raw : Bool) : Tree → Bool
  | .node k _ children =>
    match k with
    | .text t => !(raw && Template.hasPlaceholder t)
    | .element e => settledList (Document.isRawText e.name) children
    | _ => true

def settledList (raw : Bool) : List Tree → Bool
  | [] => true
  | t :: ts => t.settled raw && settledList raw ts
end

mutual
/-- If text that is written as it is has no placeholders, filling a tree leaves it as it is. -/
theorem write_fillChild_shape (raw ownText : Bool) (item : Value) : ∀ t : Tree, t.settled raw = true →
    (fillChild marker ownText item.shape t).write .verbatim raw =
      (fillChild marker ownText item t).write .verbatim raw
  | .node k content children => by
    intro hset
    cases k with
    | text s =>
      cases raw with
      | false => rfl
      | true =>
        have hnone : Template.hasPlaceholder s = false := by simpa [settled] using hset
        simp only [fillChild, Template.substitute_of_not_hasPlaceholder hnone]
    | element e =>
      have hbelow : settledList (Document.isRawText e.name) children = true := hset
      simp only [fillChild]
      cases hm : Document.valueOf? marker e.attributes with
      | none =>
        apply write_congr rfl
        exact writeList_fillChildren_shape _ true item children hbelow
      | some key =>
        simp only [Json.lookup_shape]
        have hfill : ∀ item : Value, write .verbatim raw (.node (.element e) content
            (fillChildren marker false item.shape children)) =
              write .verbatim raw (.node (.element e) content (fillChildren marker false item children)) := by
          intro item
          apply write_congr rfl
          exact writeList_fillChildren_shape _ false item children hbelow
        cases item.lookup key with
        | none => exact hfill item
        | some v =>
          cases v with
          | array entries =>
            simp only [Option.map_some, Json.Value.shape, Json.itemsShape_eq_map, List.map_map]
            apply write_congr rfl
            apply writeList_map_congr
            intro entry _
            apply write_congr rfl
            exact writeList_fillChildren_shape _ true entry children hbelow
          | _ => exact hfill item
    | _ => rfl

theorem writeList_fillChildren_shape (raw ownText : Bool) (item : Value) : ∀ ts : List Tree,
    settledList raw ts = true → writeList .verbatim raw (fillChildren marker ownText item.shape ts) =
      writeList .verbatim raw (fillChildren marker ownText item ts)
  | [], _ => rfl
  | t :: ts, hset => by
    rw [settledList, Bool.and_eq_true] at hset
    rw [fillChildren, fillChildren, writeList, writeList, write_fillChild_shape raw ownText item t hset.1,
      writeList_fillChildren_shape raw ownText item ts hset.2]
end

theorem writeList_instantiate_shape {t : Tree} (hset : settledList raw t.children = true) (item : Value) :
    writeList .verbatim raw (t.instantiate marker item.shape).children =
      writeList .verbatim raw (t.instantiate marker item).children := by
  obtain ⟨k, content, children⟩ := t
  exact writeList_fillChildren_shape raw true item children hset

end Tree

namespace Document

variable {d d₁ d₂ : Document} {i p target template content : NodeId} {c : Char} {marker : String}
  {before out after : List NodeId} {trees₁ trees₂ : List Tree}

/-- Data with the same shape brings in the same text where text is written as it is. -/
theorem writeList_renderedTrees_shape {raw : Bool} (hc : d.content? template = some content)
    (hset : Tree.settledList raw (d.tree content).children = true) (data : Value) :
    Tree.writeList .verbatim raw (d.renderedTrees marker template data.shape) =
      Tree.writeList .verbatim raw (d.renderedTrees marker template data) := by
  simp only [renderedTrees, hc, Option.map_some, Option.getD_some, renderItems_shape, List.flatMap_map,
    Tree.writeList_eq_flatMap, List.flatMap_assoc]
  congr 1
  funext item
  rw [← Tree.writeList_eq_flatMap, ← Tree.writeList_eq_flatMap, Tree.writeList_instantiate_shape hset]

/-- A node whose text children are written as they are: one of the elements that are written so, or a document
put below one. -/
inductive WritesRaw (d : Document) : NodeId → Prop
  | element {i : NodeId} {e : ElementData} (he : d.kind i = .element e) (hraw : isRawText e.name = true) :
    WritesRaw d i
  | document {p i : NodeId} (hp : WritesRaw d p) (hc : i ∈ d.children p) (hk : d.kind i = .document) :
    WritesRaw d i

/-- If text below a node is written as it is, the node is one of those, provided that it is so for a document
that got it from above. -/
theorem WritesRaw.of_rawBelow {raw : Bool}
    (hraw : raw = true → d.kind i ≠ .fragment ∧ (d.kind i = .document → d.WritesRaw i))
    (hbelow : (d.kind i).rawBelow raw = true) : d.WritesRaw i := by
  cases hi : d.kind i with
  | element e =>
    rw [hi] at hbelow
    exact .element hi hbelow
  | document =>
    rw [hi] at hbelow
    exact (hraw hbelow).2 hi
  | fragment =>
    rw [hi] at hbelow
    exact absurd hi (hraw hbelow).1
  | text t | comment t =>
    rw [hi] at hbelow
    cases hbelow

/-! ## Where the new trees go -/

section TwoPlacings

variable (s₁ : Placed d p before out after trees₁ d₁) (s₂ : Placed d p before out after trees₂ d₂)
  (h : d.WellFormed)

include s₁ s₂ h

/-- The children of a node have the same text as it is if those have that stayed, and the new trees. -/
theorem Placed.writeList_children_eq {raw : Bool} (hi : d.isLive i = true) (ho : d.Outside out i)
    (hnode : ∀ c ∈ d.children i, c ∉ out →
      (d₁.tree c).write .verbatim raw = (d₂.tree c).write .verbatim raw)
    (htrees : i = p → Tree.writeList .verbatim raw trees₁ = Tree.writeList .verbatim raw trees₂) :
    Tree.writeList .verbatim raw (d₁.tree i).children =
      Tree.writeList .verbatim raw (d₂.tree i).children := by
  have hlist : ∀ cs : List NodeId, (∀ c ∈ cs, c ∈ d.children i ∧ c ∉ out) →
      Tree.writeList .verbatim raw (cs.map d₁.tree) = Tree.writeList .verbatim raw (cs.map d₂.tree) :=
    fun cs hcs => Tree.writeList_map_congr fun c hc => hnode c (hcs c hc).1 (hcs c hc).2
  by_cases hip : i = p
  · subst hip
    have hbefore := hlist before fun c hc => s₁.sibling_not_mem_out h (Or.inl hc)
    have hafter := hlist after fun c hc => s₁.sibling_not_mem_out h (Or.inr hc)
    rw [s₁.children_tree_self, s₂.children_tree_self]
    simp only [Tree.writeList_append, hbefore, hafter, htrees rfl]
  · rw [s₁.children_tree_of_outside hi hip ho, s₂.children_tree_of_outside hi hip ho]
    exact hlist _ fun c hc => ⟨hc, fun hout => hip
      (h.owns_unique (owns_iff.mpr (Or.inl hc)) (s₁.owns_of_mem_out c hout))⟩

/-- Two placings that differ in trees with the same text as it is leave nodes with the same text as it is. -/
theorem Placed.write_tree_eq (htrees : ∀ raw, (raw = true → d.WritesRaw p) →
      Tree.writeList .verbatim raw trees₁ = Tree.writeList .verbatim raw trees₂) (i : NodeId) :
    d.isLive i = true → d.Outside out i → ∀ raw,
      (raw = true → d.kind i ≠ .fragment ∧ (d.kind i = .document → d.WritesRaw i)) →
      (d₁.tree i).write .verbatim raw = (d₂.tree i).write .verbatim raw := by
  refine h.induction (motive := fun i => d.isLive i = true → d.Outside out i → ∀ raw,
    (raw = true → d.kind i ≠ .fragment ∧ (d.kind i = .document → d.WritesRaw i)) →
      (d₁.tree i).write .verbatim raw = (d₂.tree i).write .verbatim raw) i ?_
  intro q ih hq ho raw hraw
  have hbelow := WritesRaw.of_rawBelow hraw
  rw [s₁.tree_eq hq ho, s₂.tree_eq hq ho]
  apply Tree.write_congr
  · cases hc : d.content? q with
    | none => rfl
    | some c =>
      have hown : d.Owns q c := owns_iff.mpr (Or.inr hc)
      have hout : c ∉ out := s₁.content_not_mem_out h hc
      exact ih c hown (h.live_of_owns hown).2 (ho.owned h.sound hown hout) false (by simp)
  · rw [Kind.rawBelow_plain]
    apply s₁.writeList_children_eq s₂ h hq ho
    · intro c hc hout
      have hown : d.Owns q c := owns_iff.mpr (Or.inl hc)
      exact ih c hown (h.live_of_owns hown).2 (ho.owned h.sound hown hout) _ fun hr =>
        ⟨h.kind_of_child hc, .document (hbelow hr) hc⟩
    · rintro rfl
      exact htrees _ hbelow

/-- So they make pages with the same text as it is. -/
theorem Placed.verbatimText_eq (hr : d.Orphan root) (htrees : ∀ raw, (raw = true → d.WritesRaw p) →
      Tree.writeList .verbatim raw trees₁ = Tree.writeList .verbatim raw trees₂) :
    d₁.verbatimText = d₂.verbatimText := by
  have ho := s₁.outside_root hr
  rw [← String.toList_inj, s₁.wellFormed.toList_verbatimText, s₂.wellFormed.toList_verbatimText]
  apply s₁.writeList_children_eq s₂ h hr.live ho
  · intro c hc hout
    have hown : d.Owns root c := owns_iff.mpr (Or.inl hc)
    exact s₁.write_tree_eq s₂ h htrees c (h.live_of_owns hown).2 (ho.owned h.sound hown hout) false (by simp)
  · exact fun _ => htrees false (by simp)

end TwoPlacings

/-! ## Renderings -/

/-- No text of a template that comes to be written as it is has a placeholder: none right below an element
of the template that is written so, and none at the top of the template if the place it goes to is written
so. -/
def Shielded (d : Document) (template : NodeId) (action : Action) (target : NodeId) : Prop :=
  ∀ content, d.content? template = some content → ∀ raw,
    (raw = true → ∃ p, d.destination? action target = some p ∧ d.WritesRaw p) →
      Tree.settledList raw (d.tree content).children = true

/-- A child stands once among the children of a node. -/
theorem WellFormed.eq_of_children_eq {before' after' : List NodeId} (h : d.WellFormed)
    (hchildren : d.children p = before ++ [i] ++ after)
    (hchildren' : d.children p = before' ++ [i] ++ after') : before = before' ∧ after = after' := by
  have hnd := h.children_nodup p
  rw [hchildren, List.append_assoc, List.singleton_append, List.nodup_append, List.nodup_cons] at hnd
  obtain ⟨-, ⟨hafter, -⟩, hbefore⟩ := hnd
  rw [hchildren, List.append_assoc, List.append_assoc, List.singleton_append, List.singleton_append,
    List.append_cons_inj_of_notMem (fun hi => hbefore i hi i (by simp) rfl) hafter] at hchildren'
  exact ⟨hchildren'.1, hchildren'.2.2⟩

/-- Data with the same shape leaves the same text as it is. -/
theorem verbatimText_render_shape (h : d.WellFormed) (hr : d.Orphan root) (ht : d.isLive target = true)
    {action : Action} (hs : d.Shielded template action target) (data : Value) :
    (d.render marker template data.shape target action).2.verbatimText =
      (d.render marker template data target action).2.verbatimText := by
  cases hc : d.content? template with
  | none =>
    have hnone : ∀ data, d.renderFragment marker template data = none := by simp [renderFragment, hc]
    simp only [render, hnone]
  | some content =>
    have htrees : ∀ {p}, d.destination? action target = some p → ∀ raw, (raw = true → d.WritesRaw p) →
        Tree.writeList .verbatim raw (d.renderedTrees marker template data.shape) =
          Tree.writeList .verbatim raw (d.renderedTrees marker template data) := fun hp raw hraw =>
      writeList_renderedTrees_shape hc (hs content hc raw fun hr => ⟨_, hp, hraw hr⟩) data
    cases action with
    | append =>
      exact (placed_append h hr hc ht marker data.shape).verbatimText_eq
        (placed_append h hr hc ht marker data) h hr (htrees rfl)
    | update =>
      exact (placed_update h hr hc ht marker data.shape).verbatimText_eq
        (placed_update h hr hc ht marker data) h hr (htrees rfl)
    | swap =>
      cases hp : d.parent target with
      | none =>
        exact (placed_swap_detached h hr hc ht marker data.shape hp).verbatimText_eq
          (placed_swap_detached h hr hc ht marker data hp) h hr fun _ _ => rfl
      | some p =>
        obtain ⟨before, after, s₁⟩ := placed_swap h hr hc ht marker data.shape hp
        obtain ⟨before', after', s₂⟩ := placed_swap h hr hc ht marker data hp
        obtain ⟨rfl, rfl⟩ := h.eq_of_children_eq s₁.children_before s₂.children_before
        exact s₁.verbatimText_eq s₂ h hr (htrees hp)

/-- Two data values that differ in scalars alone bring the same brackets into a page but for the text that is
written as it is, and the same brackets in all if no such text has a placeholder. -/
theorem count_toHtml_render (d : Document) (marker : String) (template target : NodeId) (action : Action)
    {data other : Value} (hshape : data.shape = other.shape) {c : Char} (hc : c = '<' ∨ c = '>') :
    let page := fun value => (d.render marker template value target action).2
    (page data).toHtml.toList.count c + (page other).verbatimText.toList.count c =
        (page other).toHtml.toList.count c + (page data).verbatimText.toList.count c ∧
      (d.WellFormed → d.Orphan root → d.isLive target = true → d.Shielded template action target →
        (page data).toHtml.toList.count c = (page other).toHtml.toList.count c) := by
  intro page
  have hpage : ∀ value, d.outline.render marker template value.shape target action =
      ((d.render marker template value target action).1, (page value).outline) := fun value =>
    outline_render d marker template value target action
  have houtline : (page data).outline = (page other).outline := by
    have hdata := hpage data
    rw [hshape, hpage other] at hdata
    exact (Prod.mk.inj hdata).2.symm
  have hcount := count_toHtml_of_outline_eq hc houtline
  refine ⟨hcount, fun h hr ht hs => ?_⟩
  have hverbatim : (page data).verbatimText = (page other).verbatimText := by
    show (d.render marker template data target action).2.verbatimText = _
    rw [← verbatimText_render_shape h hr ht hs data, hshape, verbatimText_render_shape h hr ht hs other]
  rw [hverbatim] at hcount
  omega

/-- A bracket in the data for a paragraph, through a template with a script that has no placeholder. -/
theorem count_toHtml_render_paragraph :
    let d := Document.parse "<div></div><template><p>${x}</p><script>1 < 2</script></template>"
    let page := fun value => (d.render "data-nested-array" 6 value 4 .update).2
    let data : Value := .object [("x", .string "<b>")]
    let other : Value := .object [("x", .string "")]
    data.shape = other.shape ∧ d.WellFormed ∧ d.Orphan root ∧ d.isLive 4 = true ∧
      d.Shielded 6 .update 4 ∧ (page data).toHtml.toList.count '<' = (page other).toHtml.toList.count '<' := by
  intro d page data other
  have hshape : data.shape = other.shape := rfl
  have hw : d.WellFormed := wellFormed_parse _
  have hr : d.Orphan root := orphan_root_parse _
  obtain ⟨ht, hcontent, hdiv, hsettled⟩ : d.isLive 4 = true ∧ d.content? 6 = some 5 ∧
      d.kind 4 = .element { name := "div" } ∧ Tree.settledList false (d.tree 5).children = true := by
    decide +kernel
  have hraw : ¬ d.WritesRaw 4 := by
    intro hwrites
    cases hwrites with
    | element he hraw =>
      obtain rfl := Kind.element.inj (hdiv.symm.trans he)
      revert hraw
      decide
    | document _ _ hd =>
      rw [hdiv] at hd
      cases hd
  have hs : d.Shielded 6 .update 4 := by
    intro content hc raw hwrites
    obtain rfl : 5 = content := Option.some.inj (hcontent.symm.trans hc)
    cases raw with
    | false => exact hsettled
    | true =>
      obtain ⟨p, hp, hwrites⟩ := hwrites rfl
      obtain rfl : 4 = p := Option.some.inj hp
      exact absurd hwrites hraw
  exact ⟨hshape, hw, hr, ht, hs,
    (count_toHtml_render d "data-nested-array" 6 4 .update hshape (Or.inl rfl)).2 hw hr ht hs⟩

/-- After an update of a target of the page, the page is the old one with the new trees in the target. -/
theorem toList_toHtml_update (h : d.WellFormed) (hr : d.Orphan root)
    (hc : d.content? template = some content) (ht : d.isLive target = true) (hangs : d.Hangs root target)
    (hdoctype : d.doctype = none) (marker : String) (data : Value) :
    (d.render marker template data target .update).2.toHtml.toList =
      Tree.writeList .html false ((d.view (fun k => if k = target then
        some (.update, d.renderedTrees marker template data) else none) root).flatMap Tree.children) := by
  have s := placed_update h hr hc ht marker data
  have hseen : (d.render marker template data target .update).2.view (fun _ => none) root =
      d.view (fun k => if k = target then
        some (.update, d.renderedTrees marker template data) else none) root := by
    refine s.view_eq h hr hangs (by simp) (fun k hk _ => if_neg hk) ?_ root Hangs.refl (s.outside_root hr)
    rw [h.view_eq _ target]
    simp [patched]
  rw [s.wellFormed.view_of_none root fun _ _ => rfl] at hseen
  rw [s.wellFormed.toList_toHtml, doctype_render, hdoctype, ← hseen]
  simp

/-- The text of a script is written as it is, and with it a bracket of the data. -/
theorem script_takes_brackets :
    let d := Document.parse "<div></div><template><script>${x}</script></template>"
    let page := fun value => (d.render "data-nested-array" 6 value 4 .update).2
    let data : Value := .object [("x", .string "<")]
    let other : Value := .object [("x", .string "a")]
    d.WellFormed ∧ d.tagName? 6 = some "template" ∧ data.shape = other.shape ∧
      (page data).toHtml.toList.count '<' ≠ (page other).toHtml.toList.count '<' := by
  intro d page data other
  have hw : d.WellFormed := wellFormed_parse _
  obtain ⟨hc, ht, hconnected, hdoctype, htag⟩ : d.content? 6 = some 5 ∧ d.isLive 4 = true ∧
      d.isConnected 4 = true ∧ d.doctype = none ∧ d.tagName? 6 = some "template" := by
    decide +kernel
  have hhtml := toList_toHtml_update hw (orphan_root_parse _) hc ht (hangs_of_isConnected hw.sound hconnected).1
    hdoctype "data-nested-array"
  refine ⟨hw, htag, rfl, ?_⟩
  simp only [page, hhtml]
  decide +kernel

end Document

end Hypertemplate
