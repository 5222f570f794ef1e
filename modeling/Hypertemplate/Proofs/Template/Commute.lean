import Hypertemplate.Proofs.Document.Markup
import Hypertemplate.Proofs.Template.Patches
import Mathlib.Logic.Function.Basic

/-!
# Renderings into unrelated targets

What a rendering leaves is what is seen through its patch (`view_renderOne`), and a rendering changes neither
the patches nor the losses of renderings into targets apart from its own. So several such renderings act as
their patches do all at once, and their order decides nothing but the places of new nodes (`renderAll_perm`).
-/

namespace Hypertemplate

open Json

/-- Data that goes through a template into a target. -/
structure Rendering where
  template : NodeId
  data : Value
  target : NodeId
  action : Action

namespace Document

variable {d d' : Document} {b c i j k p : NodeId} {before out out' after : List NodeId} {trees : List Tree}
  {r u : Rendering} {rs rs' : List Rendering} {marker : String} {σ : Patches}

def renderOne (marker : String) (d : Document) (r : Rendering) : Document :=
  (d.render marker r.template r.data r.target r.action).2

/-- Perform renderings, one after the other. -/
def renderAll (marker : String) (d : Document) (rs : List Rendering) : Document :=
  rs.foldl (renderOne marker) d

/-- The template of a rendering is pinned and has a content, and its target is in the page. -/
structure Admits (d : Document) (r : Rendering) : Prop where
  pinned : r.template ∈ d.pinned
  content : (d.content? r.template).isSome = true
  hangs : d.Hangs root r.target
  ne_root : r.target ≠ root

/-- What a rendering does at its target. -/
def patch (d : Document) (marker : String) (r : Rendering) : Action × List Tree :=
  (r.action, d.renderedTrees marker r.template r.data)

/-- The children that a rendering takes out. -/
def takenOut (d : Document) (r : Rendering) : List NodeId :=
  match r.action with
  | .append => []
  | .swap => [r.target]
  | .update => d.children r.target

theorem under_of_mem_takenOut (hi : i ∈ d.takenOut r) : d.Under r.target i := by
  unfold takenOut at hi
  split at hi
  · cases hi
  · rw [List.mem_singleton.mp hi]
    exact Under.refl
  · exact Under.of_owns (owns_iff.mpr (Or.inl hi))

theorem Apart.outside_takenOut (h : d.Apart r.target b) : d.Outside (d.takenOut r) b :=
  fun _ ho hu => h.1 ((under_of_mem_takenOut ho).trans hu)

/-! ## One rendering -/

section One

variable (h : d.WellFormed) (hr : d.Orphan root) (a : d.Admits r)

include h hr a

theorem Admits.isLive : d.isLive r.target = true := h.live_of_under hr.live a.hangs.under

/-- A rendering exchanges children of its target, or of what the target is in. -/
theorem exists_placed (marker : String) : ∃ p before after, d.Hangs root p ∧ d.Under p r.target ∧
    Placed d p before (d.takenOut r) after (d.patch marker r).2 (renderOne marker d r) := by
  obtain ⟨c, hc⟩ := Option.isSome_iff_exists.mp a.content
  have ht := a.isLive h hr
  have hpatch : (d.patch marker r).2 = d.renderedTrees marker r.template r.data := rfl
  rw [hpatch, renderOne, takenOut]
  cases r.action with
  | append => exact ⟨_, _, _, a.hangs, Under.refl, placed_append h hr hc ht marker r.data⟩
  | update => exact ⟨_, _, _, a.hangs, Under.refl, placed_update h hr hc ht marker r.data⟩
  | swap =>
    obtain ⟨p, hp, hangs⟩ := a.hangs.exists_parent h.sound a.ne_root
    obtain ⟨before, after, s⟩ := placed_swap h hr hc ht marker r.data hp
    exact ⟨p, before, after, hangs, Under.of_owns (owns_iff.mpr (Or.inl (h.child_iff.mpr hp))), s⟩

/-- What other patches show after a rendering, they show before it together with its patch. -/
theorem view_renderOne (hσ : ∀ k, σ k ≠ none → d.isLive k = true ∧ d.Apart r.target k) :
    (renderOne marker d r).view σ root =
      d.view (Function.update σ r.target (some (d.patch marker r))) root := by
  obtain ⟨c, hc⟩ := Option.isSome_iff_exists.mp a.content
  have ht := a.isLive h hr
  have hlive : ∀ k, σ k ≠ none → d.isLive k = true := fun k hk => (hσ k hk).1
  have habove : ∀ k, d.Under k r.target → σ k = none := by
    intro k hk
    by_contra hne
    exact (hσ k hne).2.2 hk
  obtain ⟨template, data, target, action⟩ := r
  cases action with
  | append =>
    have s := placed_append h hr hc ht marker data
    refine s.view_eq h hr a.hangs hlive (fun k hk _ => Function.update_of_ne hk _ _) ?_ root Hangs.refl
      (s.outside_root hr)
    rw [habove target Under.refl, h.view_eq _ target, Function.update_self]
    simp [patched, patch]
  | update =>
    have s := placed_update h hr hc ht marker data
    refine s.view_eq h hr a.hangs hlive (fun k hk _ => Function.update_of_ne hk _ _) ?_ root Hangs.refl
      (s.outside_root hr)
    rw [habove target Under.refl, h.view_eq _ target, Function.update_self]
    simp [patched, patch]
  | swap =>
    obtain ⟨p, hp, hangs⟩ := a.hangs.exists_parent h.sound a.ne_root
    obtain ⟨before, after, s⟩ := placed_swap h hr hc ht marker data hp
    have hown : d.Owns p target := s.owns_of_mem_out target (by simp)
    refine s.view_eq h hr hangs hlive (fun k _ hk => Function.update_of_ne ?_ _ _) ?_ root Hangs.refl
      (s.outside_root hr)
    · intro hkt
      exact hk target (by simp) (hkt ▸ Under.refl)
    · -- The patch at the target shows the new trees where the target was.
      have hσp := habove p (Under.of_owns hown)
      have htarget : d.view (Function.update σ target
          (some (d.patch marker ⟨template, data, target, .swap⟩))) target =
          d.renderedTrees marker template data := by
        rw [h.view_eq, Function.update_self]
        rfl
      rw [hσp, h.view_eq _ p, Function.update_of_ne (h.ne_of_owns hown).symm, hσp, s.children_before,
        List.flatMap_append, List.flatMap_append, List.flatMap_singleton, htarget]

end One

/-! ## What a rendering leaves of another one -/

namespace Placed

variable (s : Placed d p before out after trees d') (h : d.WellFormed) (hb : d.isLive b = true)
  (hbp : ¬ d.Under b p) (ho : d.Outside out b)

include s h hb hbp ho

theorem node_eq_of_under (hj : d.Under b j) : d'.node j = d.node j := by
  refine s.node_eq_of_outside (h.live_of_under hb hj) ?_ fun o hmem hu => ?_
  · rintro rfl
    exact hbp hj
  · rcases h.under_comparable hu hj with hu | hu
    · exact ho o hmem hu
    · have hne : b ≠ o := by
        rintro rfl
        exact ho _ hmem Under.refl
      exact hbp (h.under_owner hu hne (s.owns_of_mem_out o hmem))

theorem lost_eq (hout : ∀ o ∈ out', d.Under b o) : d'.lost out' = d.lost out' := by
  have hsame : ∀ j, d.Met out' j → d'.node j = d.node j := by
    intro j hm
    obtain ⟨o, hmem, hu⟩ := hm.exists_under
    exact s.node_eq_of_under h hb hbp ho ((hout o hmem).trans hu)
  have hmet : ∀ {j}, d'.Met out' j ↔ d.Met out' j := by
    refine met_congr s.pinned_eq fun j hm => ?_
    rw [isLive_eq, isLive_eq, below, below, Document.children_eq, Document.children_eq,
      Document.content?_eq, Document.content?_eq, hsame j hm]
    exact ⟨rfl, rfl⟩
  ext j
  rw [mem_lost, mem_lost, s.pinned_eq, hmet]
  by_cases hm : d.Met out' j
  · rw [isLive_eq, isLive_eq, hsame j hm]
  · simp [hm]

end Placed

/-- The places that a rendering gives back. -/
noncomputable def lostBy (d : Document) (r : Rendering) : Finset NodeId := d.lost (d.takenOut r)

/-- Renderings that can all be performed, into targets apart from each other. -/
structure Unrelated (d : Document) (rs : List Rendering) : Prop where
  wellFormed : d.WellFormed
  orphan_root : d.Orphan root
  admits : ∀ r ∈ rs, d.Admits r
  apart : rs.Pairwise fun r u => d.Apart r.target u.target

/-- A rendering leaves others apart from it as they are. -/
theorem Admits.renderOne (h : d.WellFormed) (hr : d.Orphan root) (a : d.Admits r) (au : d.Admits u)
    (hapart : d.Apart r.target u.target) (marker : String) :
    (d.renderOne marker r).Admits u ∧ (d.renderOne marker r).patch marker u = d.patch marker u ∧
      (d.renderOne marker r).lostBy u = d.lostBy u := by
  obtain ⟨p, before, after, hp, hpt, s⟩ := exists_placed h hr a marker
  have hup : ¬ d.Under u.target p := fun hu => hapart.2 (hu.trans hpt)
  have hout := hapart.outside_takenOut
  have hlive := au.isLive h hr
  obtain ⟨c, hc⟩ := Option.isSome_iff_exists.mp au.content
  have hcontent := s.content?_eq h au.pinned
  have htree := s.tree_content h au.pinned hc (hp.not_under_content_of_root h.sound hr hc)
  refine ⟨?_, ?_, ?_⟩
  · exact
      { pinned := by rw [s.pinned_eq]; exact au.pinned
        content := by rw [hcontent]; exact au.content
        hangs := s.hangs h au.hangs hout
        ne_root := au.ne_root }
  · rw [patch, patch, renderedTrees, renderedTrees, hcontent, hc, Option.map_some, Option.map_some, htree]
  · have hnode := s.node_eq_of_under h hlive hup hout Under.refl
    have htaken : (d.renderOne marker r).takenOut u = d.takenOut u := by
      rw [takenOut, takenOut, Document.children_eq, Document.children_eq, hnode]
    rw [lostBy, htaken]
    exact s.lost_eq h hlive hup hout fun o ho => under_of_mem_takenOut ho

namespace Unrelated

theorem renderOne (w : d.Unrelated (r :: rs)) (marker : String) :
    (d.renderOne marker r).Unrelated rs := by
  obtain ⟨h, hr, hadmits, hapart⟩ := w
  rw [List.pairwise_cons] at hapart
  have a := hadmits r (by simp)
  obtain ⟨p, before, after, -, -, s⟩ := exists_placed h hr a marker
  refine
    { wellFormed := s.wellFormed
      orphan_root := s.orphan_root hr
      admits := fun u hu => (a.renderOne h hr (hadmits u (by simp [hu])) (hapart.1 u hu) marker).1
      apart := hapart.2.imp_of_mem fun {u v} hu hv huv => ?_ }
  exact ⟨s.not_under h ((hadmits v (by simp [hv])).isLive h hr) huv.1,
    s.not_under h ((hadmits u (by simp [hu])).isLive h hr) huv.2⟩

theorem same (w : d.Unrelated (r :: rs)) (hu : u ∈ rs) (marker : String) :
    (d.renderOne marker r).patch marker u = d.patch marker u ∧
      (d.renderOne marker r).lostBy u = d.lostBy u := by
  have hapart := (List.pairwise_cons.mp w.apart).1 u hu
  have a := w.admits r (by simp)
  exact (a.renderOne w.wellFormed w.orphan_root (w.admits u (by simp [hu])) hapart marker).2

theorem perm (w : d.Unrelated rs) (hperm : rs.Perm rs') : d.Unrelated rs' where
  wellFormed := w.wellFormed
  orphan_root := w.orphan_root
  admits := fun r hr => w.admits r (hperm.mem_iff.mpr hr)
  apart := (hperm.pairwise_iff fun hru => hru.symm).mp w.apart

end Unrelated

/-! ## Several renderings -/

/-- The patches of renderings. -/
def patches (d : Document) (marker : String) : List Rendering → Patches
  | [] => fun _ => none
  | r :: rs => Function.update (d.patches marker rs) r.target (some (d.patch marker r))

theorem exists_mem_of_patches_ne_none (hk : d.patches marker rs k ≠ none) : ∃ r ∈ rs, r.target = k := by
  induction rs with
  | nil => exact absurd rfl hk
  | cons r rest ih =>
    by_cases hkr : k = r.target
    · exact ⟨r, by simp, hkr.symm⟩
    · rw [patches, Function.update_of_ne hkr] at hk
      obtain ⟨u, hu, rfl⟩ := ih hk
      exact ⟨u, by simp [hu], rfl⟩

theorem patches_congr (h : ∀ r ∈ rs, d'.patch marker r = d.patch marker r) :
    d'.patches marker rs = d.patches marker rs := by
  induction rs with
  | nil => rfl
  | cons r rest ih => rw [patches, patches, ih fun u hu => h u (by simp [hu]), h r (by simp)]

theorem Unrelated.patches_perm (w : d.Unrelated rs) (hperm : rs.Perm rs') :
    d.patches marker rs = d.patches marker rs' := by
  have hne : rs.Pairwise fun r u => r.target ≠ u.target := by
    refine w.apart.imp fun {r u} hapart => ?_
    exact (ne_of_not_under hapart.1).symm
  clear w
  induction hperm with
  | nil => rfl
  | cons r _ ih =>
    rw [List.pairwise_cons] at hne
    rw [patches, patches, ih hne.2]
  | swap r u rest =>
    rw [List.pairwise_cons] at hne
    simp only [patches]
    exact (Function.update_comm (hne.1 r (by simp)) _ _ _).symm
  | trans hperm _ ih ih' =>
    exact (ih hne).trans (ih' ((hperm.pairwise_iff fun h => h.symm).mp hne))

theorem doctype_renderAll (marker : String) (rs : List Rendering) (d : Document) :
    (d.renderAll marker rs).doctype = d.doctype :=
  doctype_foldl rs (fun d r => doctype_render d marker r.template r.data r.target r.action) d

theorem Unrelated.wellFormed_renderAll (marker : String) (rs : List Rendering) :
    ∀ {d : Document}, d.Unrelated rs → (d.renderAll marker rs).WellFormed := by
  induction rs with
  | nil => exact fun w => w.wellFormed
  | cons r rest ih => exact fun w => ih (w.renderOne marker)

/-- What unrelated renderings leave is what is seen through their patches. -/
theorem Unrelated.tree_renderAll (marker : String) (rs : List Rendering) : ∀ {d : Document},
    d.Unrelated rs → [(d.renderAll marker rs).tree root] = d.view (d.patches marker rs) root := by
  induction rs with
  | nil =>
    intro d w
    exact (w.wellFormed.view_of_none root fun _ _ => rfl).symm
  | cons r rest ih =>
    intro d w
    have hpatches : (d.renderOne marker r).patches marker rest = d.patches marker rest :=
      patches_congr fun u hu => (w.same hu marker).1
    have htree := ih (w.renderOne marker)
    rw [hpatches] at htree
    show [((d.renderOne marker r).renderAll marker rest).tree root] = _
    rw [htree, patches]
    apply view_renderOne w.wellFormed w.orphan_root (w.admits r (by simp))
    intro k hk
    obtain ⟨u, hu, rfl⟩ := exists_mem_of_patches_ne_none hk
    exact ⟨(w.admits u (by simp [hu])).isLive w.wellFormed w.orphan_root,
      (List.pairwise_cons.mp w.apart).1 u hu⟩

/-- Unrelated renderings give back what each one alone would. -/
theorem Unrelated.liveNodes_renderAll (marker : String) (rs : List Rendering) : ∀ {d : Document},
    d.Unrelated rs →
      (d.renderAll marker rs).liveNodes + (rs.map fun r => (d.lostBy r).card).sum =
        d.liveNodes + (rs.map fun r => Tree.listSize (d.patch marker r).2).sum := by
  induction rs with
  | nil => exact fun _ => rfl
  | cons r rest ih =>
    intro d w
    have hlost : (rest.map fun u => ((d.renderOne marker r).lostBy u).card) =
        rest.map fun u => (d.lostBy u).card :=
      List.map_congr_left fun u hu => by rw [(w.same hu marker).2]
    have hsizes : (rest.map fun u => Tree.listSize ((d.renderOne marker r).patch marker u).2) =
        rest.map fun u => Tree.listSize (d.patch marker u).2 :=
      List.map_congr_left fun u hu => by rw [(w.same hu marker).1]
    obtain ⟨p, before, after, -, -, s⟩ :=
      exists_placed w.wellFormed w.orphan_root (w.admits r (by simp)) marker
    have hone : (d.renderOne marker r).liveNodes + (d.lostBy r).card =
        d.liveNodes + Tree.listSize (d.patch marker r).2 := s.liveNodes_eq
    have hrest := ih (w.renderOne marker)
    rw [hlost, hsizes] at hrest
    show ((d.renderOne marker r).renderAll marker rest).liveNodes + _ = _
    rw [List.map_cons, List.map_cons, List.sum_cons, List.sum_cons]
    omega

/-- Unrelated renderings make the same page in every order. -/
theorem Unrelated.renderAll_perm (w : d.Unrelated rs) (hperm : rs.Perm rs') (marker : String) :
    (d.renderAll marker rs).toHtml = (d.renderAll marker rs').toHtml ∧
      (d.renderAll marker rs).liveNodes = (d.renderAll marker rs').liveNodes := by
  have w' := w.perm hperm
  constructor
  · apply toHtml_eq_of_tree_eq (w.wellFormed_renderAll marker rs).sound (w'.wellFormed_renderAll marker rs').sound
    · have htree := w.tree_renderAll marker rs
      rw [w.patches_perm hperm, ← w'.tree_renderAll marker rs'] at htree
      exact (List.cons.inj htree).1
    · rw [doctype_renderAll, doctype_renderAll]
  · have hcount := w.liveNodes_renderAll marker rs
    have hcount' := w'.liveNodes_renderAll marker rs'
    have hlost := (hperm.map fun r => (d.lostBy r).card).sum_eq
    have hsizes := (hperm.map fun r => Tree.listSize (d.patch marker r).2).sum_eq
    omega

/-! ## In a page -/

/-- `template` is a pinned template element, and `target` is an element of the page. -/
structure Serves (d : Document) (template target : NodeId) : Prop where
  pinned : template ∈ d.pinned
  isTemplate : d.tagName? template = some "template"
  isElement : d.isElement target = true
  isConnected : d.isConnected target = true

namespace Serves

variable {template target : NodeId} (s : d.Serves template target) (h : d.WellFormed)
  (hroot : d.kind root = .document)

include s h hroot

theorem orphan_root : d.Orphan root :=
  h.orphan_root hroot (hangs_of_isConnected h.sound s.isConnected).2

theorem admits (data : Value) (action : Action) : d.Admits ⟨template, data, target, action⟩ where
  pinned := s.pinned
  content := by
    obtain ⟨e, he, hname⟩ := Option.map_eq_some_iff.mp s.isTemplate
    rw [content?, he]
    exact h.content_of_template he hname
  hangs := (hangs_of_isConnected h.sound s.isConnected).1
  ne_root := by
    rintro rfl
    have helement := s.isElement
    unfold Document.isElement element? at helement
    rw [hroot] at helement
    cases helement

end Serves

/-- Renderings of templates of a page into its elements, none of them above another one. -/
theorem renderAll_perm (h : d.WellFormed) (hroot : d.kind root = .document)
    (hserves : ∀ r ∈ rs, d.Serves r.template r.target)
    (hapart : rs.Pairwise fun r u => r.target ∉ d.ancestors u.target ∧ u.target ∉ d.ancestors r.target)
    (hperm : rs.Perm rs') (marker : String) :
    (d.renderAll marker rs).toHtml = (d.renderAll marker rs').toHtml ∧
      (d.renderAll marker rs).liveNodes = (d.renderAll marker rs').liveNodes := by
  cases rs with
  | nil =>
    rw [hperm.nil_eq]
    exact ⟨rfl, rfl⟩
  | cons r rest =>
    have hr := (hserves r (by simp)).orphan_root h hroot
    have hadmits : ∀ u ∈ r :: rest, d.Admits u := fun u hu =>
      (hserves u hu).admits h hroot u.data u.action
    apply Unrelated.renderAll_perm _ hperm
    refine
      { wellFormed := h, orphan_root := hr, admits := hadmits
        apart := hapart.imp_of_mem fun {u v} hu hv huv => ?_ }
    exact apart_of_not_mem_ancestors h.sound hr (hadmits u hu).hangs (hadmits v hv).hangs huv.1 huv.2

end Document

end Hypertemplate
