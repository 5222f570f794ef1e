import Hypertemplate.Proofs.Document.Releasing
import Hypertemplate.Proofs.Document.Relinking
import Hypertemplate.Proofs.Html.Settle

/-!
# Documents that edits lead to

`Edit` lists the operations that change a document. Every one keeps a document well formed, if its nodes are
live, nothing is put below itself, and a template's content is not given back while the template is there
(`WellFormed.perform`). So links stay consistent in all documents that are reached from the empty one or from
a page (`links_of_reachable`).
-/

namespace Hypertemplate

/-- A change of a document by its caller. -/
inductive Edit where
  | createElement (name : String)
  | createText (text : String)
  | createComment (text : String)
  | createFragment
  | append (parent child : NodeId)
  | replace (node replacement : NodeId)
  | detach (node : NodeId)
  | clear (node : NodeId)
  | clone (node : NodeId) (deep : Bool)
  | setText (node : NodeId) (text : String)
  | setAttribute (node : NodeId) (name value : String)
  | removeAttribute (node : NodeId) (name : String)
  | setValue (node : NodeId) (value : String)
  | setDoctype (name : String)
  | pin (node : NodeId)
  | release (node : NodeId)

namespace Document

variable {d d' : Document} {i j p c : NodeId}

/-- Perform an edit; the new node comes first if it makes one. -/
def perform (d : Document) : Edit → Option NodeId × Document
  | .createElement name => (d.createElement name).map some id
  | .createText text => (d.createText text).map some id
  | .createComment text => (d.createComment text).map some id
  | .createFragment => d.createFragment.map some id
  | .append parent child => (none, d.appendChild parent child)
  | .replace node replacement => (none, d.replaceWith node replacement)
  | .detach node => (none, d.detach node)
  | .clear node => (none, (d.clearChildren node).2)
  | .clone node deep => (d.cloneNode node deep).map some id
  | .setText node text => (none, d.setText node text)
  | .setAttribute node name value => (none, d.setAttribute node name value)
  | .removeAttribute node name => (none, d.removeAttribute node name)
  | .setValue node value => (none, d.setValue node value)
  | .setDoctype name => (none, d.setDoctype name)
  | .pin node => (none, d.pin node)
  | .release node => (none, d.release node)

/-- What a caller has to see to: nodes are live, no node goes below itself, and the content of a template that
is there is not released. -/
def Allows (d : Document) : Edit → Prop
  | .createElement _ | .createText _ | .createComment _ | .createFragment | .setDoctype _ => True
  | .append parent child =>
    d.isLive parent = true ∧ d.isLive child = true ∧ ¬ d.Under child parent
  | .replace node replacement =>
    d.isLive node = true ∧ d.isLive replacement = true ∧
      ∀ p, d.parent node = some p → ¬ d.Under replacement p
  | .detach node | .clear node | .clone node _ | .setText node _ | .setAttribute node _ _
  | .removeAttribute node _ | .setValue node _ | .pin node => d.isLive node = true
  | .release node => d.isLive node = true ∧ ∀ t, d.isLive t = true → d.content? t ≠ some node

/-- The documents that edits lead to, from the empty document or from a page. -/
inductive Reachable : Document → Prop
  | empty : Reachable .empty
  | parse (html : String) : Reachable (.parse html)
  | edit {d : Document} (e : Edit) (h : Reachable d) (ha : d.Allows e) : Reachable (d.perform e).2

/-! ## Every edit keeps a document well formed -/

theorem WellFormed.pin (h : d.WellFormed) (hi : d.isLive i = true) : (d.pin i).WellFormed := by
  unfold Document.pin
  split
  · exact h
  · exact
      { h with
        pinned_live := fun {j} hj => by
          rcases List.mem_cons.mp hj with rfl | hj
          · exact hi
          · exact h.pinned_live hj }

theorem WellFormed.replaceWith (h : d.WellFormed) (hr : d.isLive c = true)
    (hnot : ∀ p, d.parent i = some p → ¬ d.Under c p) : (d.replaceWith i c).WellFormed := by
  cases hp : d.parent i with
  | none => rwa [replaceWith_of_parent_eq_none hp]
  | some p => exact (relinked_replaceWith hp c).wellFormed h (h.sound.replaceWith hr hnot)

theorem WellFormed.detach (h : d.WellFormed) (i : NodeId) : (d.detach i).WellFormed :=
  (relinked_detach d root i).wellFormed h (h.sound.detach i)

theorem WellFormed.release (h : d.WellFormed) (hl : d.isLive i = true) (hc : ∀ p, d.content? p ≠ some i) :
    (d.release i).WellFormed := by
  unfold Document.release
  split
  · exact h
  · exact (released_releaseAll _ [i]).wellFormed (h.detach i) (orphan_detach h.sound hl hc)

/-- A node that is no longer live has no content. -/
theorem Sound.content_ne (h : d.Sound)
    (hc : ∀ t, d.isLive t = true → d.content? t ≠ some i) (t : NodeId) : d.content? t ≠ some i :=
  fun ht => hc t (h.live_of_owns (owns_iff.mpr (Or.inr ht))).1 ht

theorem WellFormed.perform (h : d.WellFormed) {e : Edit} (ha : d.Allows e) :
    (d.perform e).2.WellFormed := by
  cases e with
  | createElement name => exact (made_createElement h.sound name).wellFormed h
  | createText text => exact (made_createText h.sound text).wellFormed h
  | createComment text => exact (made_createComment h.sound text).wellFormed h
  | createFragment => exact (made_createFragment h.sound).wellFormed h
  | append parent child =>
    exact (relinked_appendChild d parent child).wellFormed h (h.appendChild ha.1 ha.2.1 ha.2.2)
  | replace node replacement => exact h.replaceWith ha.2.1 ha.2.2
  | detach node => exact h.detach node
  | clear node => exact h.clearChildren ha
  | clone node deep => exact (made_cloneNode h.sound ha deep).wellFormed h
  | setText node text => exact (relabelled_setText text).wellFormed h
  | setAttribute node name value => exact (relabelled_setAttribute name value).wellFormed h
  | removeAttribute node name => exact (relabelled_removeAttribute name).wellFormed h
  | setValue node value => exact (relabelled_setValue value).wellFormed h
  | setDoctype name => exact (Html.relabelled_setDoctype d name).wellFormed h
  | pin node => exact h.pin ha
  | release node => exact h.release ha.1 (h.sound.content_ne ha.2)

theorem Reachable.wellFormed (h : Reachable d) : d.WellFormed := by
  induction h with
  | empty => exact wellFormed_empty
  | parse html => exact wellFormed_parse html
  | edit e _ ha ih => exact ih.perform ha

/-! ## What this says about links -/

/-- In every document that edits lead to, children and parents agree, a child stands once among the children
of a live node, no node is below itself, fragments have no parent and are nobody's children, a template that
is there has a live fragment without parent as content that nothing else owns, and a place that was given
back has no links. -/
theorem links_of_reachable (h : Reachable d) :
    (∀ p c, c ∈ d.children p ↔ d.parent c = some p) ∧
    (∀ p c, c ∈ d.children p →
      (d.children p).count c = 1 ∧ d.isLive c = true ∧ d.isLive p = true) ∧
    (∀ i, ¬ Relation.TransGen d.Owns i i) ∧
    (∀ f, d.kind f = .fragment → d.parent f = none ∧ ∀ p, f ∉ d.children p) ∧
    (∀ t e, d.isLive t = true → d.element? t = some e → e.name = "template" →
      ∃ f, d.content? t = some f ∧ d.isLive f = true ∧ d.kind f = .fragment ∧ d.parent f = none ∧
        ∀ p, d.Owns p f → p = t) ∧
    (∀ i, i ∈ d.free ∨ d.isLive i = false →
      d.isLive i = false ∧ d.parent i = none ∧ d.children i = []) := by
  have hw := h.wellFormed
  refine ⟨fun p c => hw.child_iff, fun p c hc => ?_, hw.not_transGen_self, fun f hf => ?_,
    fun t e _ he hn => ?_, fun i hi => ?_⟩
  · have hl := hw.live_of_parent (hw.child_iff.mp hc)
    exact ⟨List.count_eq_one_of_mem (hw.children_nodup p) hc, hl⟩
  · exact ⟨hw.parent_of_fragment hf, fun p hc => hw.kind_of_child hc hf⟩
  · obtain ⟨f, hf⟩ := Option.isSome_iff_exists.mp (hw.content_of_template he hn)
    have hc : d.content? t = some f := by simp [content?, he, hf]
    have hk := hw.kind_of_content hc
    exact ⟨f, hc, hw.live_of_content hc, hk, hw.parent_of_fragment hk, fun p hp =>
      hw.owns_unique hp (owns_iff.mpr (Or.inr hc))⟩
  · have hl : d.isLive i = false := hi.elim (fun hf => (hw.mem_free_iff.mp hf).2) id
    rw [parent_eq, children_eq, hw.vacant hl]
    exact ⟨hl, rfl, rfl⟩

/-- A template is made and filled with what was moved to a fragment, a paragraph is given back around a pinned part of
it, and the part comes back to the page. -/
theorem links_of_reachable_released :
    let d₁ := ((parse "<p>a<b>c</b></p><i>d</i>").perform (.createElement "template")).2
    let d₂ := (d₁.perform (.append 3 11)).2
    let d₃ := (d₂.perform .createFragment).2
    let d₄ := (d₃.perform (.append 12 8)).2
    let d₅ := (d₄.perform (.append 10 12)).2
    let d₆ := (d₅.perform (.pin 6)).2
    let d₇ := (d₆.perform (.release 4)).2
    let d := (d₇.perform (.append 3 6)).2
    Reachable d ∧ d.children 3 = [11, 6] ∧ (d.children 3).count 6 = 1 ∧
      (∃ f, d.content? 11 = some f ∧ d.children f = [8] ∧ d.parent f = none ∧ ∀ p, d.Owns p f → p = 11) ∧
      ∀ i ∈ [4, 5], i ∈ d.free ∧ d.parent i = none ∧ d.children i = [] := by
  intro d₁ d₂ d₃ d₄ d₅ d₆ d₇ d
  let e₇ := (((d₆.detach 4).vacate 4).setParent 6 none).vacate 5
  let e := (e₇.perform (.append 3 6)).2
  -- What is moved is live and not above the place where it goes.
  obtain ⟨⟨hl₁, hl₁', hb₁⟩, ⟨hl₃, hl₃', hb₃⟩, ⟨hl₄, hl₄', hb₄⟩, hl₅, hl₆, hk₆, hl₇, hl₇', hb₇⟩ :
      (d₁.isLive 3 = true ∧ d₁.isLive 11 = true ∧ ∀ j ∈ [11, 10], ∀ c ∈ d₁.below j, c ∈ [11, 10]) ∧
      (d₃.isLive 12 = true ∧ d₃.isLive 8 = true ∧ ∀ j ∈ [8, 9], ∀ c ∈ d₃.below j, c ∈ [8, 9]) ∧
      (d₄.isLive 10 = true ∧ d₄.isLive 12 = true ∧ ∀ j ∈ [12, 8, 9], ∀ c ∈ d₄.below j, c ∈ [12, 8, 9]) ∧
      d₅.isLive 6 = true ∧ d₆.isLive 4 = true ∧ d₆.kind 4 ≠ .fragment ∧
      e₇.isLive 3 = true ∧ e₇.isLive 6 = true ∧ ∀ j ∈ [6, 7], ∀ c ∈ e₇.below j, c ∈ [6, 7] := by
    decide +kernel
  have h₁ : Reachable d₁ := .edit (.createElement "template") (.parse _) trivial
  have h₂ : Reachable d₂ := .edit (.append 3 11) h₁ ⟨hl₁, hl₁', not_under_of_closed hb₁ (by decide) (by decide)⟩
  have h₃ : Reachable d₃ := .edit .createFragment h₂ trivial
  have h₄ : Reachable d₄ := .edit (.append 12 8) h₃ ⟨hl₃, hl₃', not_under_of_closed hb₃ (by decide) (by decide)⟩
  have h₅ : Reachable d₅ := .edit (.append 10 12) h₄ ⟨hl₄, hl₄', not_under_of_closed hb₄ (by decide) (by decide)⟩
  have h₆ : Reachable d₆ := .edit (.pin 6) h₅ hl₅
  have h₇ : Reachable d₇ := .edit (.release 4) h₆ ⟨hl₆, fun t _ ht => hk₆ (h₆.wellFormed.kind_of_content ht)⟩
  -- The walk of the release comes to the paragraph, the pinned part and the text.
  have hreleased : d₇ = e₇ :=
    calc d₆.release 4 = (d₆.detach 4).releaseAll [4] := if_neg (by decide)
      _ = ((d₆.detach 4).vacate 4).releaseAll [6, 5] :=
        releaseAll_loose (by decide +kernel) (by decide +kernel) (by decide +kernel)
      _ = (((d₆.detach 4).vacate 4).setParent 6 none).releaseAll [5] :=
        releaseAll_pinned (by decide +kernel) (by decide +kernel)
      _ = e₇.releaseAll [] := releaseAll_loose (by decide +kernel) (by decide +kernel) (by decide +kernel)
      _ = e₇ := releaseAll_nil e₇
  have hd : d = e := congrArg (fun d => (d.perform (.append 3 6)).2) hreleased
  have he : Reachable e :=
    .edit (.append 3 6) (hreleased ▸ h₇) ⟨hl₇, hl₇', not_under_of_closed hb₇ (by decide) (by decide)⟩
  obtain ⟨hbody, hname, hlive, hc, hcontent, hfree⟩ :
      e.children 3 = [11, 6] ∧ e.tagName? 11 = some "template" ∧ e.isLive 11 = true ∧ e.content? 11 = some 10 ∧
        e.children 10 = [8] ∧ ∀ i ∈ [4, 5], i ∈ e.free := by
    decide +kernel
  obtain ⟨x, hx, hxname⟩ := Option.map_eq_some_iff.mp hname
  obtain ⟨-, honce, -, -, htemplate, hvacant⟩ := links_of_reachable he
  obtain ⟨f, hf, -, -, hparent, howner⟩ := htemplate 11 x hlive hx hxname
  obtain rfl : f = 10 := Option.some.inj (hf.symm.trans hc)
  rw [hd]
  clear_value e
  exact ⟨he, hbody, (honce 3 6 (by rw [hbody]; decide)).1, ⟨10, hc, hcontent, hparent, howner⟩,
    fun i hi => ⟨hfree i hi, (hvacant i (Or.inl (hfree i hi))).2⟩⟩

end Document

end Hypertemplate
