import Hypertemplate.Proofs.Document.Freed
import Hypertemplate.Proofs.Document.Replacing
import Hypertemplate.Proofs.Template.Placing

/-!
# What the three actions do to every node

Appending, updating and swapping put the children of a fragment in the place of some children `out` of a node,
and give `out` and the fragment back (`applyAction_exact`). The nodes that go are those on ways down from `out`
that lead over no pinned node; a pinned node where such a way ends loses its parent and keeps what is below it.
The order of the steps does not show: giving back touches neither the fragment's children nor the node that they
go to.
-/

namespace Hypertemplate.Document

variable {d d' e e' : Document} {f i j k o p target : NodeId} {out cs before after : List NodeId}

/-! ## Giving back -/

/-- In `e` the walk of `d` from `out` has given back all that it meets and that is not pinned; what is pinned has
lost its parent. `rest` says what the other nodes read as. -/
structure Swept (d : Document) (out : List NodeId) (rest : NodeId → Node) (e : Document) : Prop where
  size_eq : e.nodes.size = d.nodes.size
  pinned_eq : e.pinned = d.pinned
  vacant : ∀ {j}, d.Met out j → j ∉ d.pinned → e.node j = .vacant
  detached : ∀ {j}, d.Met out j → j ∈ d.pinned → e.node j = { d.node j with parent := none }
  kept : ∀ {j}, ¬ d.Met out j → e.node j = rest j
  mem_free_iff : ∀ {j}, j ∈ e.free ↔ j ∈ d.free ∨ (d.Met out j ∧ j ∉ d.pinned)

/-- A release walks in `e` as it would in `d`, if only nodes that it does not meet have changed and what it
starts from has lost its parent. -/
theorem Released.swept {rest : NodeId → Node} (r : Released e out e') (s : SameFrame d e)
    (hlive : ∀ j, d.Met out j → d.isLive j = true)
    (hnode : ∀ j, e.node j = { rest j with parent := if j ∈ out then none else (rest j).parent })
    (hrest : ∀ j, d.Met out j → rest j = d.node j) : Swept d out rest e' := by
  have hsame : ∀ j, d.Met out j → e.isLive j = d.isLive j ∧ e.below j = d.below j := by
    intro j hm
    rw [below, below, content?_eq, content?_eq, isLive_eq, children_eq, hnode, hrest j hm]
    exact ⟨rfl, rfl⟩
  have hmet : ∀ {j}, e.Met out j ↔ d.Met out j := met_congr s.pinned_eq hsame
  have hlive' : ∀ {j}, d.Met out j → e.isLive j = true := fun hm => by
    rw [(hsame _ hm).1, hlive _ hm]
  refine
    { size_eq := r.size_eq.trans s.size_eq
      pinned_eq := r.pinned_eq.trans s.pinned_eq
      vacant := fun hm hn => r.vacated _ (hmet.mpr hm) (hlive' hm) (by rwa [s.pinned_eq])
      detached := fun {j} hm hj => ?_
      kept := fun {j} hm => ?_
      mem_free_iff := fun {j} => ?_ }
  · rw [r.detached _ (hmet.mpr hm) (hlive' hm) (by rwa [s.pinned_eq]), hnode, hrest j hm]
  · rw [r.kept _ fun hm' => absurd (hmet.mp hm') hm, hnode, if_neg fun hj => hm (.start hj)]
  · rw [r.mem_free_iff, s.free_eq, s.pinned_eq, hmet]
    refine or_congr_right ⟨?_, ?_⟩
    · rintro ⟨hm, -, hn⟩
      exact ⟨hm, hn⟩
    · rintro ⟨hm, hn⟩
      exact ⟨hm, hlive' hm, hn⟩

/-- A fragment without children goes alone. -/
theorem release_eq_vacate (hp : d.parent i = none) (hr : i ≠ root) (hl : d.isLive i = true)
    (hn : i ∉ d.pinned) (hk : d.kind i = .fragment) (hc : d.children i = []) : d.release i = d.vacate i := by
  have hcontent : d.content? i = none := by
    rw [content?_eq, ← kind_eq, hk]
    rfl
  rw [release, if_neg hr, detach_of_parent_eq_none hp, releaseAll, dif_pos hl,
    if_neg (by simpa [isPinned] using hn), hcontent, hc]
  simp [releaseAll]

/-- The fragment `f` is given back, and so are `out`: what is on ways down from them over nodes that are not
pinned is free, and pinned nodes where such ways end stay without parent, above what was below them. `rest` says
what the other nodes read as. -/
structure GivenBack (d : Document) (f : NodeId) (out : List NodeId) (rest : NodeId → Node) (d' : Document) :
    Prop where
  freed : ∀ {j}, j = f ∨ (∃ o ∈ out, d.LooseBelow o j) → d'.node j = .vacant
  mem_free_iff : ∀ {j}, j ∈ d'.free ↔ j ∈ d.free ∨ j = f ∨ ∃ o ∈ out, d.LooseBelow o j
  caught : ∀ {j}, (∃ o ∈ out, d.Caught o j) → d'.node j = { d.node j with parent := none } ∧
    ∀ k, d.Under j k → k ≠ j → d'.node k = d.node k
  others : ∀ {j}, j ≠ f → (∀ o ∈ out, ¬ d.LooseBelow o j ∧ ¬ d.Caught o j) → d'.node j = rest j
  size_eq : d'.nodes.size = d.nodes.size
  pinned_eq : d'.pinned = d.pinned
  doctype_eq : d'.doctype = d.doctype

/-- What is given back has no parent, whether it is kept or not. -/
theorem GivenBack.parent_eq_none {rest : NodeId → Node} (g : GivenBack d f out rest d') (ho : o ∈ out) :
    d'.parent o = none := by
  rw [parent_eq]
  by_cases hn : o ∈ d.pinned
  · rw [(g.caught ⟨o, ho, hn, Or.inl rfl⟩).1]
  · rw [g.freed (Or.inr ⟨o, ho, .start hn⟩)]
    rfl

/-- What is given back is read off what the walk of `d` from `out` meets. -/
theorem Sound.givenBack {rest : NodeId → Node} (h : d.Sound) (hout : ∀ o ∈ out, d.Owns p o) (hf : d.Orphan f)
    (hrest : ∀ o ∈ out, ∀ j, d.Under o j → rest j = d.node j)
    (hvacant : ∀ j, j = f ∨ (d.Met out j ∧ j ∉ d.pinned) → d'.node j = .vacant)
    (hfree : ∀ j, j ∈ d'.free ↔ j ∈ d.free ∨ j = f ∨ (d.Met out j ∧ j ∉ d.pinned))
    (hdetached : ∀ j, d.Met out j → j ∈ d.pinned → d'.node j = { d.node j with parent := none })
    (hkept : ∀ j, j ≠ f → ¬ d.Met out j → d'.node j = rest j)
    (hsize : d'.nodes.size = d.nodes.size) (hpinned : d'.pinned = d.pinned) (hdoctype : d'.doctype = d.doctype) :
    GivenBack d f out rest d' := by
  have hl : ∀ o ∈ out, d.isLive o = true := fun o ho => (h.live_of_owns (hout o ho)).2
  refine
    { freed := fun {j} hj => ?_
      mem_free_iff := fun {j} => ?_
      caught := fun {j} hj => ?_
      others := fun {j} hjf hj => ?_
      size_eq := hsize
      pinned_eq := hpinned
      doctype_eq := hdoctype }
  · rw [← h.met_and_not_pinned_iff hl] at hj
    exact hvacant j hj
  · rw [← h.met_and_not_pinned_iff hl]
    exact hfree j
  · obtain ⟨hm, hjp⟩ := (h.met_and_pinned_iff hl).mpr hj
    refine ⟨hdetached j hm hjp, fun k hjk hne => ?_⟩
    obtain ⟨o, ho, hoj⟩ := hm.exists_under
    have hkf : k ≠ f := by
      rintro rfl
      exact hf.unowned p (hf.eq_of_under (hoj.trans hjk) ▸ hout o ho)
    rw [hkept k hkf (h.not_met_below hout hm hjp hjk hne), hrest o ho k (hoj.trans hjk)]
  · refine hkept j hjf fun hm => ?_
    rcases (h.met_iff hl).mp hm with ⟨o, ho, hloose⟩ | ⟨o, ho, hcaught⟩
    · exact (hj o ho).1 hloose
    · exact (hj o ho).2 hcaught

/-! ## Putting the children of a fragment in -/

/-- What a node reads as after the children of `f` went to `p`, whose children are `cs` then. -/
def placed (d : Document) (f p : NodeId) (cs : List NodeId) (j : NodeId) : Node := { d.node j with
  parent := if j ∈ d.children f then some p else d.parent j
  children := if j = p then cs else if j = f then [] else d.children j }

/-- What a node reads as after the children of `p` were taken out, apart from these. -/
def emptied (d : Document) (p j : NodeId) : Node :=
  { d.node j with children := if j = p then [] else d.children j }

theorem emptied_self (d : Document) (p : NodeId) : d.emptied p p = { d.node p with children := [] } := by
  rw [emptied, if_pos rfl]

theorem emptied_of_ne (hj : j ≠ p) : d.emptied p j = d.node j := by
  rw [emptied, if_neg hj]
  rfl

theorem Sound.placed_fragment (h : d.Sound) (hpf : p ≠ f) :
    d.placed f p cs f = { d.node f with children := [] } := by
  have hff : f ∉ d.children f := fun hc => h.ne_of_owns (owns_iff.mpr (Or.inl hc)) rfl
  rw [placed, if_neg hff, if_neg hpf.symm, if_pos rfl]
  rfl

/-- What is below the children of `p` stays as it was. -/
theorem Sound.placed_of_under (h : d.Sound) (hf : d.Orphan f) (hfp : ¬ d.Under f p) (ho : d.Owns p o)
    (hu : d.Under o j) : d.placed f p cs j = d.node j := by
  have hfj := hf.not_under_of_under h hfp ((Under.of_owns ho).trans hu)
  have hjp : j ≠ p := by
    rintro rfl
    exact h.not_under_of_owns ho hu
  have hjk : j ∉ d.children f := fun hc => hfj (Under.of_owns (owns_iff.mpr (Or.inl hc)))
  rw [placed, if_neg hjk, if_neg hjp, if_neg (ne_of_not_under hfj)]
  rfl

theorem sameFrame_appendChild (d : Document) (p c : NodeId) : SameFrame d (d.appendChild p c) := by
  rw [appendChild_eq]
  exact (sameFrame_takeInsertables d c).trans (sameFrame_adoptAll p _ _)

/-- Appending a fragment, node by node. -/
theorem node_appendChild_fragment (hk : d.kind f = .fragment) (hpf : p ≠ f) (hp : d.isLive p = true)
    (hl : ∀ c ∈ d.children f, d.isLive c = true) (j : NodeId) :
    (d.appendChild p f).node j = { d.node j with
      parent := if j ∈ d.children f then some p else d.parent j
      children := if j = p then d.children p ++ d.children f else if j = f then [] else d.children j } := by
  have s := spliced_clearChildren d f
  have hlive : ∀ c ∈ d.children f, (d.clearChildren f).2.isLive c = true := fun c hc =>
    (s.isLive_eq c).trans (hl c hc)
  have s' := spliced_adoptAll ((s.isLive_eq p).trans hp) hlive
  have happend : d.appendChild p f = (d.children f).foldl (fun d i => d.adopt p i) (d.clearChildren f).2 := by
    rw [appendChild_eq, takeInsertables_fragment hk]
    rfl
  rw [happend, s'.node_eq, s.children_ne hpf, children_eq (d.clearChildren f).2, s.parent_eq, s.node_eq]
  by_cases hj : j ∈ d.children f <;> simp [hj]

/-- Putting a fragment in the place of a child, node by node. -/
theorem Sound.node_replaceWith_fragment (h : d.Sound) (hk : d.kind f = .fragment) (hpf : p ≠ f)
    (hp : d.children p = before ++ i :: after) (j : NodeId) :
    (d.replaceWith i f).node j = { d.node j with
      parent := if j = i then none else if j ∈ d.children f then some p else d.parent j
      children := if j = p then before ++ d.children f ++ after else if j = f then [] else d.children j } := by
  have hapart : ∀ {q}, q ≠ f → ∀ c ∈ d.children q, c ∉ d.children f := by
    intro q hqf c hc hcf
    exact hqf (h.owns_unique (owns_iff.mpr (Or.inl hc)) (owns_iff.mpr (Or.inl hcf)))
  have hkeep : ∀ {q}, q ≠ f → ∀ {cs : List NodeId}, (∀ c ∈ cs, c ∈ d.children q) →
      cs.filter (· ∉ d.children f) = cs := by
    intro q hqf cs hcs
    exact List.filter_eq_self.mpr fun c hc => decide_eq_true (hapart hqf c (hcs c hc))
  have hi : i ∉ d.children f := hapart hpf i (by simp [hp])
  have hchildren : (d.children j).filter (· ∉ d.children f) = if j = f then [] else d.children j := by
    split
    · next hjf => simp [hjf]
    · next hjf => exact hkeep hjf fun _ hc => hc
  rw [h.node_replaceWith (by rwa [insertables_fragment hk]) hp, insertables_fragment hk, hchildren,
    hkeep hpf fun c hc => by simp [hp, hc], hkeep hpf fun c hc => by simp [hp, hc]]

/-- The walk from the children of the target comes neither to the target nor to the fragment. -/
theorem Sound.apart_of_met (h : d.Sound) (l : d.Loose f target) (hm : d.Met (d.children target) j) :
    j ≠ target ∧ ¬ d.Under f j := by
  have hout : ∀ o ∈ d.children target, d.Owns target o := fun o ho => owns_iff.mpr (Or.inl ho)
  obtain ⟨hu, hne⟩ := h.under_of_met hout hm
  exact ⟨hne, l.orphan.not_under_of_under h l.not_under hu⟩

/-- The fragment goes into the emptied target when the old children are given back. -/
theorem Swept.appendChild (w : Swept d (d.children target) (d.emptied target) e) (h : d.Sound)
    (l : d.Loose f target) :
    Swept d (d.children target) (d.placed f target (d.children f)) (e.appendChild target f) := by
  have hapart : ∀ {j}, d.Met (d.children target) j → j ≠ target ∧ ¬ d.Under f j := h.apart_of_met l
  have htf : target ≠ f := ne_of_not_under l.not_under
  have htarget : e.node target = { d.node target with children := [] } := by
    rw [w.kept fun hm => (hapart hm).1 rfl, emptied_self]
  have hfragment : ∀ {j}, d.Under f j → e.node j = d.node j := by
    intro j hj
    have hjt : j ≠ target := by
      rintro rfl
      exact l.not_under hj
    rw [w.kept fun hm => (hapart hm).2 hj, emptied_of_ne hjt]
  have hchildren : e.children f = d.children f := by
    rw [children_eq, hfragment Under.refl]
    rfl
  have hunder : ∀ {c}, c ∈ d.children f → d.Under f c := fun hc => Under.of_owns (owns_iff.mpr (Or.inl hc))
  have hkind : e.kind f = .fragment := by
    rw [kind_eq, hfragment Under.refl]
    exact l.kind_eq
  have hlive : e.isLive target = true := by
    rw [isLive_eq, htarget]
    exact l.isLive
  have hnode := node_appendChild_fragment hkind htf hlive fun c hc => by
    rw [hchildren] at hc
    rw [isLive_eq, hfragment (hunder hc)]
    exact h.live_of_under l.orphan.live (hunder hc)
  have hother : ∀ {j}, d.Met (d.children target) j → (e.appendChild target f).node j = e.node j := by
    intro j hm
    obtain ⟨hjt, hjf⟩ := hapart hm
    rw [hnode, hchildren, if_neg fun hj => hjf (hunder hj), if_neg hjt, if_neg (ne_of_not_under hjf)]
    rfl
  have s := sameFrame_appendChild e target f
  exact
    { size_eq := s.size_eq.trans w.size_eq
      pinned_eq := s.pinned_eq.trans w.pinned_eq
      vacant := fun hm hj => by rw [hother hm, w.vacant hm hj]
      detached := fun hm hj => by rw [hother hm, w.detached hm hj]
      kept := fun {j} hm => by
        rw [hnode, hchildren, children_eq e target, htarget, parent_eq, children_eq e j, w.kept hm, placed, emptied]
        by_cases hjt : j = target
        · simp [hjt, parent]
        · simp [hjt, parent]
      mem_free_iff := fun {j} => by rw [s.free_eq, w.mem_free_iff] }

/-! ## The three actions -/

section Actions

variable (h : d.Sound) (l : d.Loose f target) (hf : f ≠ root) (hn : f ∉ d.pinned)

include h l hf hn

/-- Giving back the fragment without its children is the last step. -/
theorem Swept.givenBack_release {rest : NodeId → Node} (w : Swept d out rest e) (hout : ∀ o ∈ out, d.Owns p o)
    (hfp : ¬ d.Under f p) (hself : rest f = { d.node f with children := [] })
    (hrest : ∀ o ∈ out, ∀ j, d.Under o j → rest j = d.node j) (hdoctype : e.doctype = d.doctype) :
    GivenBack d f out rest (e.release f) := by
  have hmet : ¬ d.Met out f := fun hm =>
    l.orphan.not_under_of_under h hfp (h.under_of_met hout hm).1 Under.refl
  have hnode : e.node f = { d.node f with children := [] } := by
    rw [w.kept hmet, hself]
  have hlive : e.isLive f = true := by
    rw [isLive_eq, hnode]
    exact l.orphan.live
  have hrelease : e.release f = e.vacate f := by
    refine release_eq_vacate ?_ hf hlive (by rwa [w.pinned_eq]) ?_ ?_
    · rw [parent_eq, hnode]
      exact h.parent_of_orphan l.orphan
    · rw [kind_eq, hnode]
      exact l.kind_eq
    · rw [children_eq, hnode]
  have hvacate := node_vacate hlive
  rw [hrelease]
  refine h.givenBack hout l.orphan hrest (fun j hj => ?_) (fun j => ?_) (fun j hm hj => ?_) (fun j hjf hm => ?_)
    ?_ w.pinned_eq hdoctype
  · by_cases hjf : j = f
    · rw [hvacate, if_pos hjf]
    · obtain ⟨hm, hjn⟩ := hj.resolve_left hjf
      rw [hvacate, if_neg hjf, w.vacant hm hjn]
  · change j ∈ f :: e.free ↔ _
    rw [List.mem_cons, w.mem_free_iff, or_left_comm]
  · have hjf : j ≠ f := by
      rintro rfl
      exact hmet hm
    rw [hvacate, if_neg hjf, w.detached hm hj]
  · rw [hvacate, if_neg hjf, w.kept hm]
  · rw [← w.size_eq]
    exact Array.size_setIfInBounds

theorem givenBack_append : GivenBack d f [] (d.placed f target (d.children target ++ d.children f))
    (d.applyAction .append target f) := by
  have htf : target ≠ f := ne_of_not_under l.not_under
  have hnode := node_appendChild_fragment l.kind_eq htf l.isLive fun c hc =>
    (h.live_of_owns (owns_iff.mpr (Or.inl hc))).2
  have w : Swept d [] (d.placed f target (d.children target ++ d.children f)) (d.appendChild target f) :=
    (released_nil _).swept (sameFrame_appendChild d target f) (fun _ hm => absurd hm not_met_nil) hnode
      fun _ hm => absurd hm not_met_nil
  exact w.givenBack_release h l hf hn (p := target) (by simp) l.not_under (h.placed_fragment htf) (by simp)
    (doctype_appendChild d target f)

theorem givenBack_swap (hr : d.parent root = none) (hp : d.parent target = some p) : ∃ before after,
    d.children p = before ++ target :: after ∧
      GivenBack d f [target] (d.placed f p (before ++ d.children f ++ after))
        (d.applyAction .swap target f) := by
  obtain ⟨before, after, hcs⟩ := List.append_of_mem (h.child_iff.mpr hp)
  have hown := h.owns_of_parent hp
  have hout : ∀ o ∈ [target], d.Owns p o := by simpa using hown
  have hfp : ¬ d.Under f p := fun hu => l.not_under (hu.tail hown)
  have hpf : p ≠ f := ne_of_not_under hfp
  have htr : target ≠ root := by
    rintro rfl
    rw [hr] at hp
    cases hp
  have hnode := h.node_replaceWith_fragment l.kind_eq hpf hcs
  have hrest : ∀ o ∈ [target], ∀ j, d.Under o j →
      d.placed f p (before ++ d.children f ++ after) j = d.node j :=
    fun o ho j hu => h.placed_of_under l.orphan hfp (hout o ho) hu
  have hmet : ∀ j, d.Met [target] j → d.placed f p (before ++ d.children f ++ after) j = d.node j := by
    intro j hm
    obtain ⟨o, ho, hu⟩ := hm.exists_under
    exact hrest o ho j hu
  have hparent : (d.replaceWith target f).parent target = none := by
    rw [parent_eq, hnode, if_pos rfl]
  have w : Swept d [target] (d.placed f p (before ++ d.children f ++ after))
      ((d.replaceWith target f).release target) := by
    refine (released_release hparent htr).swept (sameFrame_replaceWith d target f)
      (fun j => h.live_of_met hout) (fun j => ?_) hmet
    rw [hnode, placed]
    simp only [List.mem_singleton]
  have haction : d.applyAction .swap target f = ((d.replaceWith target f).release target).release f := by
    simp [applyAction, hp]
  rw [haction]
  exact ⟨before, after, hcs, w.givenBack_release h l hf hn hout hfp (h.placed_fragment hpf) hrest
    ((doctype_release _ _).trans (doctype_replaceWith d _ _))⟩

theorem givenBack_update (hr : d.parent root = none) :
    GivenBack d f (d.children target) (d.placed f target (d.children f)) (d.applyAction .update target f) := by
  have htf : target ≠ f := ne_of_not_under l.not_under
  have hout : ∀ o ∈ d.children target, d.Owns target o := fun o ho => owns_iff.mpr (Or.inl ho)
  have hroot : root ∉ d.children target := by
    rw [h.child_iff, hr]
    simp
  have s := spliced_clearChildren d target
  have w : Swept d (d.children target) (d.emptied target)
      ((d.clearChildren target).2.releaseAll (d.children target)) := by
    refine (released_releaseAll _ _).swept s.toSameFrame (fun _ => h.live_of_met hout) (fun j => ?_)
      fun j hm => ?_
    · rw [s.node_eq]
      simp only [List.not_mem_nil, if_false, List.nil_append]
      rfl
    · exact emptied_of_ne (h.apart_of_met l hm).1
  rw [← foldl_release_clearChildren hroot] at w
  refine (w.appendChild h l).givenBack_release h l hf hn hout l.not_under (h.placed_fragment htf)
    (fun o ho j hu => h.placed_of_under l.orphan l.not_under (hout o ho) hu) ?_
  exact (doctype_appendChild _ _ _).trans
    ((doctype_foldl _ (fun d i => doctype_release d i) _).trans (doctype_clearChildren d target))

/-- Nothing is inserted in the place of a target without parent. -/
theorem givenBack_discard : GivenBack d f (d.children f) d.node (d.release f) := by
  have hout : ∀ o ∈ d.children f, d.Owns f o := fun o ho => owns_iff.mpr (Or.inl ho)
  have hbelow : ∀ {c}, d.Owns f c ↔ c ∈ d.children f := by
    intro c
    rw [owns_iff, content?_eq, ← kind_eq, l.kind_eq]
    simp [contentOf?]
  have hmet : ∀ {j}, d.Met [f] j ↔ j = f ∨ d.Met (d.children f) j := by
    intro j
    constructor
    · intro hm
      induction hm with
      | start ho => exact Or.inl (List.mem_singleton.mp ho)
      | @step q c _ hl hq hc ih =>
        rcases ih with rfl | ih
        · exact Or.inr (.start (hbelow.mp hc))
        · exact Or.inr (ih.step hl hq hc)
    · have hstart : d.Met [f] f := .start (by simp)
      rintro (rfl | hm)
      · exact hstart
      · induction hm with
        | start ho => exact hstart.step l.orphan.live hn (hbelow.mpr ho)
        | step _ hl hq hc ih => exact ih.step hl hq hc
  have hlive : ∀ {j}, d.Met (d.children f) j → d.isLive j = true := h.live_of_met hout
  have r := released_release (h.parent_of_orphan l.orphan) hf
  refine h.givenBack hout l.orphan (fun _ _ _ _ => rfl) (fun j hj => ?_) (fun j => ?_) (fun j hm hj => ?_)
    (fun j hjf hm => ?_) r.size_eq r.pinned_eq (doctype_release d f)
  · rcases hj with rfl | ⟨hm, hj⟩
    · exact r.vacated _ (.start (by simp)) l.orphan.live hn
    · exact r.vacated _ (hmet.mpr (Or.inr hm)) (hlive hm) hj
  · rw [r.mem_free_iff, hmet]
    refine or_congr_right ⟨?_, ?_⟩
    · rintro ⟨rfl | hm, -, hj⟩
      · exact Or.inl rfl
      · exact Or.inr ⟨hm, hj⟩
    · rintro (rfl | ⟨hm, hj⟩)
      · exact ⟨Or.inl rfl, l.orphan.live, hn⟩
      · exact ⟨Or.inr hm, hlive hm, hj⟩
  · exact r.detached _ (hmet.mpr (Or.inr hm)) (hlive hm) hj
  · exact r.kept _ fun hm' => absurd (hmet.mp hm') (not_or.mpr ⟨hjf, hm⟩)

end Actions

/-- The children of a fragment go behind those of the target, in their place, or in the place of the target, and
nothing goes in if a target without parent is to be swapped. What they take the place of is given back but for
what is pinned, and so is the fragment; every other node is as it was. The fragment is not the root, which is never
given back. -/
theorem applyAction_exact (h : d.Sound) (hr : d.parent root = none) (l : d.Loose f target) (hf : f ≠ root)
    (hn : f ∉ d.pinned) :
    GivenBack d f [] (d.placed f target (d.children target ++ d.children f))
      (d.applyAction .append target f) ∧
    GivenBack d f (d.children target) (d.placed f target (d.children f)) (d.applyAction .update target f) ∧
    (∀ p, d.parent target = some p → (d.applyAction .swap target f).parent target = none ∧
      ∃ before after, d.children p = before ++ target :: after ∧
        GivenBack d f [target] (d.placed f p (before ++ d.children f ++ after))
          (d.applyAction .swap target f)) ∧
    (d.parent target = none → GivenBack d f (d.children f) d.node (d.applyAction .swap target f)) := by
  refine ⟨givenBack_append h l hf hn, givenBack_update h l hf hn hr, fun p hp => ?_, fun hp => ?_⟩
  · obtain ⟨before, after, hcs, g⟩ := givenBack_swap h l hf hn hr hp
    exact ⟨g.parent_eq_none (by simp), before, after, hcs, g⟩
  · have haction : d.applyAction .swap target f = d.release f := by
      simp [applyAction, hp]
    rw [haction]
    exact givenBack_discard h l hf hn

/-- A division is updated from a copy of a template's content; its paragraph is pinned and stays with its text. -/
theorem applyAction_exact_around_pinned :
    let d₀ := (Document.parse "<div><p>a</p></div><template><b>x</b></template>").pin 5
    let d := (d₀.cloneNode 7 true).2
    d.Sound ∧ d.parent root = none ∧ d.Loose 11 4 ∧ 11 ≠ root ∧ 11 ∉ d.pinned ∧
      (d.applyAction .update 4 11).children 4 = [12] ∧ (d.applyAction .update 4 11).parent 12 = some 4 ∧
      (d.applyAction .update 4 11).node 5 = { d.node 5 with parent := none } ∧
      (d.applyAction .update 4 11).node 6 = d.node 6 ∧ (d.applyAction .update 4 11).node 11 = .vacant := by
  intro d₀ d
  obtain ⟨hl, hk, ht, hf⟩ : d₀.isLive 7 = true ∧ d₀.kind 7 = .fragment ∧ d₀.isLive 4 = true ∧
      (d₀.cloneNode 7 true).1 = 11 := by
    decide +kernel
  obtain ⟨hr, hdiv, hchildren, hpinned, hparagraph⟩ : d.parent root = none ∧ d.children 4 = [5] ∧
      d.children 11 = [12] ∧ d.pinned = [5] ∧ d.below 5 = [6] := by
    decide +kernel
  have h₀ : d₀.WellFormed := (wellFormed_parse _).pin (by decide +kernel)
  have m := copied_cloneNode h₀.sound hl
  have l : d.Loose 11 4 :=
    { orphan := hf ▸ m.orphan
      kind_eq := hf ▸ (m.kind_eq_fragment_iff h₀.sound).mpr hk
      isLive := m.ext.isLive ht
      not_under := hf ▸ m.not_under h₀.sound ht }
  have hroot : (11 : NodeId) ≠ root := by decide
  have hn : 11 ∉ d.pinned := by simp [hpinned]
  have h : d.Sound := m.sound
  obtain ⟨-, g, -⟩ := applyAction_exact h hr l hroot hn
  rw [hdiv, hchildren] at g
  have hnone : ∀ j, ¬ d.LooseBelow 5 j := by
    intro j hj
    induction hj with
    | start hi => exact hi (by simp [hpinned])
    | step _ _ _ ih => exact ih
  have hothers : ∀ j, j ≠ 5 → ∀ o ∈ [5], ¬ d.LooseBelow o j ∧ ¬ d.Caught o j := by
    intro j hj o ho
    rw [List.mem_singleton.mp ho]
    exact ⟨hnone j, fun hc => hj (by simpa [hpinned] using hc.1)⟩
  obtain ⟨hcaught, hbelow⟩ := g.caught ⟨5, by simp, by simp [hpinned], Or.inl rfl⟩
  refine ⟨h, hr, l, hroot, hn, ?_, ?_, hcaught, ?_, g.freed (Or.inl rfl)⟩
  · rw [children_eq, g.others (by decide) (hothers 4 (by decide))]
    rfl
  · rw [parent_eq, g.others (by decide) (hothers 12 (by decide)), placed, hchildren]
    rfl
  · exact hbelow 6 (Under.of_owns (by simp [Owns, hparagraph])) (by decide)

end Hypertemplate.Document
