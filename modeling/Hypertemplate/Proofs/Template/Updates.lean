import Hypertemplate.Proofs.Document.Edits
import Hypertemplate.Proofs.Document.Markup
import Hypertemplate.Proofs.Template.Patches

/-!
# Updating again

An update from the data that its target already shows exchanges the children of the target for nodes with the
same trees, and none of the old ones is pinned (`Shows`). So no tree in the document changes
(`Placed.tree_eq_of_same`), and as many nodes are given back as are made (`card_lost`). Every update leaves what
the next one needs (`Updatable.update`), its template and target among it, so that any number of updates from the
same data leaves what the first one left (`update_again`).
-/

namespace Hypertemplate.Document

open Json

variable {d d' : Document} {i p template content target : NodeId} {before out after : List NodeId}
  {trees : List Tree}

/-! ## Exchanges for nodes that look the same -/

/-- Where nothing is pinned, everything that is taken out is given back. -/
theorem card_lost (h : d.WellFormed) (hnd : out.Nodup) (hout : ∀ o ∈ out, d.Owns p o)
    (hn : ∀ o ∈ out, ∀ j, d.Under o j → j ∉ d.pinned) :
    (d.lost out).card = Tree.listSize (out.map d.tree) := by
  have hlost : d.lost out = out.toFinset.biUnion fun o => insert o (d.belowSet o) := by
    ext j
    simp only [mem_lost, Finset.mem_biUnion, List.mem_toFinset, Finset.mem_insert, h.mem_belowSet,
      ← Relation.reflTransGen_iff_eq_or_transGen]
    constructor
    · rintro ⟨-, hm, -⟩
      exact hm.exists_under
    · rintro ⟨o, ho, hu⟩
      have hl := (h.live_of_owns (hout o ho)).2
      exact ⟨h.live_of_under hl hu, met_of_under h.sound ho hl (hn o ho) hu, hn o ho j hu⟩
  rw [hlost, h.card_below_eq_listSize hnd hout]

/-- The children of a node have the trees `trees`, and nothing at or below them is pinned. -/
structure Shows (d : Document) (target : NodeId) (trees : List Tree) : Prop where
  trees_eq : (d.children target).map d.tree = trees
  not_pinned : ∀ c ∈ d.children target, ∀ j, d.Under c j → j ∉ d.pinned

section Exchange

variable (s : Placed d target [] (d.children target) [] trees d') (h : d.WellFormed)

include s h

/-- Pinned nodes are older than the new children, and no old node comes to be below them. -/
theorem Placed.shows : Shows d' target trees := by
  obtain ⟨new, hnode, htrees, hnew⟩ := s.node_self
  have hchildren : d'.children target = new := by
    rw [Document.children_eq, hnode]
    simp
  refine ⟨by rw [hchildren, htrees], fun c hc j hu hj => ?_⟩
  rw [hchildren] at hc
  have hjl := h.pinned_live (s.pinned_eq ▸ hj)
  refine s.not_under h hjl (fun hcj => ?_) hu
  have hcl := h.live_of_live_below hcj hjl
  rw [hnew c hc] at hcl
  cases hcl

theorem Shows.liveNodes_eq (w : Shows d target trees) : d'.liveNodes = d.liveNodes := by
  have hcard : (d.lost (d.children target)).card = Tree.listSize trees := by
    rw [card_lost h (h.children_nodup target) s.owns_of_mem_out w.not_pinned, w.trees_eq]
  have hcount := s.liveNodes_eq
  omega

end Exchange

/-! ## One update after the other -/

/-- What is needed to update a target through a template again and again: no update gives the template back,
and the target is not in the content that is copied. -/
structure Updatable (d : Document) (template content target : NodeId) : Prop where
  wellFormed : d.WellFormed
  orphan_root : d.Orphan root
  content_eq : d.content? template = some content
  isLive : d.isLive target = true
  kept : template ∈ d.pinned ∨ template = target ∨ ¬ d.Under target template
  not_under : ¬ d.Under content target

namespace Updatable

variable (u : Updatable d template content target) (s : Placed d target [] (d.children target) [] trees d')

include u

theorem isLive_template : d.isLive template = true :=
  (u.wellFormed.live_of_owns (owns_iff.mpr (Or.inr u.content_eq))).1

/-- A template that is not pinned is not below what an update takes out. -/
theorem outside (hn : template ∉ d.pinned) : d.Outside (d.children target) template := by
  intro o ho hu
  have hown : d.Owns target o := owns_iff.mpr (Or.inl ho)
  rcases u.kept.resolve_left hn with rfl | hapart
  · exact u.wellFormed.not_under_of_owns hown hu
  · exact hapart ((Under.of_owns hown).trans hu)

include s

/-- The template keeps its content. -/
theorem content_update : d'.content? template = some content ∧ d'.tree content = d.tree content := by
  have h := u.wellFormed
  rw [← u.content_eq]
  by_cases hn : template ∈ d.pinned
  · exact ⟨s.content?_eq h hn, s.tree_content h hn u.content_eq u.not_under⟩
  · have ho := u.outside hn
    exact ⟨s.content?_of_outside u.isLive_template ho,
      s.tree_content_of_outside h ho u.content_eq u.not_under⟩

theorem update : Updatable d' template content target where
  wellFormed := s.wellFormed
  orphan_root := s.orphan_root u.orphan_root
  content_eq := (u.content_update s).1
  isLive := by
    obtain ⟨new, hnode, -, -⟩ := s.node_self
    rw [isLive_eq, hnode]
    exact u.isLive
  kept := by
    rw [s.pinned_eq]
    exact u.kept.imp_right fun hk => hk.imp_right (s.not_under u.wellFormed u.isLive_template)
  not_under := s.not_under u.wellFormed u.isLive u.not_under

/-- An update that puts in what is there changes nothing that is seen. -/
theorem eq_of_shows (w : Shows d target trees) (hdoctype : d'.doctype = d.doctype) :
    d'.toHtml = d.toHtml ∧ d'.innerHtml target = d.innerHtml target ∧ d'.liveNodes = d.liveNodes := by
  have h := u.wellFormed
  have htree := s.tree_eq_of_same h w.trees_eq
  have hself : d.Outside (d.children target) target := fun o ho =>
    h.not_under_of_owns (owns_iff.mpr (Or.inl ho))
  have hroot := htree root u.orphan_root.live (s.outside_root u.orphan_root)
  exact ⟨toHtml_eq_of_tree_eq s.wellFormed.sound h.sound hroot hdoctype,
    innerHtml_eq_of_tree_eq s.wellFormed.sound h.sound (htree target u.isLive hself), w.liveNodes_eq s h⟩

end Updatable

/-- A further update leaves what the first one left. -/
theorem Updatable.iterate (u : Updatable d template content target) (marker : String) (data : Value) (n : Nat) :
    let update := fun e : Document => (e.render marker template data target .update).2
    Updatable (update^[n + 1] d) template content target ∧
      Shows (update^[n + 1] d) target (d.renderedTrees marker template data) ∧
      (update^[n + 1] d).renderedTrees marker template data = d.renderedTrees marker template data ∧
      (update^[n + 1] d).toHtml = (update d).toHtml ∧
      (update^[n + 1] d).innerHtml target = (update d).innerHtml target ∧
      (update^[n + 1] d).liveNodes = (update d).liveNodes := by
  intro update
  have hstep : ∀ {e : Document}, Updatable e template content target →
      Placed e target [] (e.children target) [] (e.renderedTrees marker template data) (update e) :=
    fun v => placed_update v.wellFormed v.orphan_root v.content_eq v.isLive marker data
  have hsame : ∀ {e : Document}, Updatable e template content target →
      (update e).renderedTrees marker template data = e.renderedTrees marker template data := by
    intro e v
    obtain ⟨hcontent, htree⟩ := v.content_update (hstep v)
    rw [renderedTrees, renderedTrees, hcontent, v.content_eq, Option.map_some, Option.map_some, htree]
  induction n with
  | zero => exact ⟨u.update (hstep u), (hstep u).shows u.wellFormed, hsame u, rfl, rfl, rfl⟩
  | succ n ih =>
    obtain ⟨v, w, htrees, hhtml, hinner, hlive⟩ := ih
    have s := hstep v
    rw [htrees] at s
    obtain ⟨hhtml', hinner', hlive'⟩ := v.eq_of_shows s w (doctype_render _ marker template data target .update)
    rw [Function.iterate_succ_apply']
    exact ⟨v.update s, s.shows v.wellFormed, (hsame v).trans htrees, hhtml'.trans hhtml,
      hinner'.trans hinner, hlive'.trans hlive⟩

/-- Updating a target any number of times from the same data leaves the page, the markup in the target and the
number of live nodes that the first update left. The target can be any live node that is not in the template's
content. The template can be anywhere, in the target as well if it is pinned or is the target itself. -/
theorem update_again (h : d.WellFormed) (hroot : d.kind root = .document) (hparent : d.parent root = none)
    (hc : d.content? template = some content)
    (hkept : template ∈ d.pinned ∨ template = target ∨ ¬ d.Under target template)
    (ht : d.isLive target = true) (hout : ¬ d.Under content target) (marker : String) (data : Value)
    (n : Nat) :
    let update := fun e : Document => (e.render marker template data target .update).2
    (update^[n + 1] d).toHtml = (update d).toHtml ∧
      (update^[n + 1] d).innerHtml target = (update d).innerHtml target ∧
      (update^[n + 1] d).liveNodes = (update d).liveNodes := by
  intro update
  have u : Updatable d template content target := ⟨h, h.orphan_root hroot hparent, hc, ht, hkept, hout⟩
  exact (u.iterate marker data n).2.2.2

/-- A template that stands in its own target: the first update takes it out of the page, and the second one makes
the repeated paragraphs again. -/
theorem update_again_in_own_target :
    let d := (Document.parse "<div><template>$\x7bt\x7d<p data-nested-array=x>$\x7by\x7d</p></template><b>old</b></div>").pin 6
    let data := Value.object [("t", .string "a"), ("x", .array [.object [("y", .string "b")], .null])]
    let update := fun e : Document => (e.render "data-nested-array" 6 data 4 .update).2
    d.WellFormed ∧ d.kind root = .document ∧ d.parent root = none ∧ d.content? 6 = some 5 ∧
      6 ∈ d.pinned ∧ d.Under 4 6 ∧ d.isLive 4 = true ∧ ¬ d.Under 5 4 ∧
      (update (update d)).toHtml = (update d).toHtml ∧
      (update (update d)).innerHtml 4 = (update d).innerHtml 4 ∧
      (update (update d)).liveNodes = (update d).liveNodes := by
  intro d data update
  have hw : d.WellFormed := (wellFormed_parse _).pin (by decide +kernel)
  obtain ⟨hroot, hparent, hc, hpinned, hbelow, ht, hconnected⟩ :
      d.kind root = .document ∧ d.parent root = none ∧ d.content? 6 = some 5 ∧ 6 ∈ d.pinned ∧
        6 ∈ d.below 4 ∧ d.isLive 4 = true ∧ d.isConnected 4 = true := by
    decide +kernel
  have hout : ¬ d.Under 5 4 :=
    (hangs_of_isConnected hw.sound hconnected).1.not_under_content_of_root hw.sound (hw.orphan_root hroot hparent) hc
  exact ⟨hw, hroot, hparent, hc, hpinned, Under.of_owns hbelow, ht, hout,
    update_again hw hroot hparent hc (Or.inl hpinned) ht hout "data-nested-array" data 1⟩

end Hypertemplate.Document
