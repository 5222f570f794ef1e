import Hypertemplate.Proofs.Document.Census
import Hypertemplate.Proofs.Template.Placing

/-!
# Where a rendering goes

A rendering exchanges neighbouring children of one node for new nodes and gives back what it took out
(`Placed`). The contents of pinned templates stay as they are, and no old node comes to be below a node that it
was not below. A rendering whose target has no parent is one that puts nothing in.
-/

namespace Hypertemplate.Document

open Json

variable {d d₁ d' e : Document} {f i j p q t target template content : NodeId}
  {before out after : List NodeId} {trees : List Tree}

/-! ## What is done in all -/

open Classical in
/-- The places that the walk from `out` gives back. -/
noncomputable def lost (d : Document) (out : List NodeId) : Finset NodeId :=
  d.liveSet.filter fun j => d.Met out j ∧ j ∉ d.pinned

theorem mem_lost : j ∈ d.lost out ↔ d.isLive j = true ∧ d.Met out j ∧ j ∉ d.pinned := by
  classical
  rw [lost, Finset.mem_filter, mem_liveSet]

theorem lost_nil (d : Document) : d.lost [] = ∅ := by
  ext j
  simp [mem_lost, not_met_nil]

/-- The walk from a new node comes to all below it: nothing there is pinned. -/
theorem Made.met (m : Made d f d₁) (h : d.WellFormed) (hu : d₁.Under f j) : d₁.Met [f] j := by
  refine met_of_under m.sound (by simp) m.orphan.live (fun k hk hp => ?_) hu
  exact m.not_under h.sound (h.pinned_live (m.ext.pinned_eq ▸ hp)) hk

namespace Placing

theorem owns_of_mem_out (s : Placing d d₁ f p before out after e) : ∀ o ∈ out, d.Owns p o :=
  fun o ho => owns_iff.mpr (Or.inl (by rw [s.children_before]; simp [ho]))

theorem live_of_met (s : Placing d d₁ f p before out after e) (h : d.Sound) (hm : d.Met out j) :
    d.isLive j = true :=
  h.live_of_met s.owns_of_mem_out hm

theorem wellFormed (s : Placing d d₁ f p before out after e) (h : d.WellFormed) : e.WellFormed := by
  refine h.of_sound s.sound s.pinned_eq fun {j} hj hl => ?_
  by_cases hjp : j = p
  · rw [hjp, isLive_eq, s.node_self]
    exact hjp ▸ hl
  · by_cases hm : d.Met out j
    · rw [isLive_eq, s.detached hm hj]
      exact hl
    · rw [isLive_eq, s.kept hl hjp hm]
      exact hl

variable (s : Placing d d₁ f p before out after e) (h : d.Sound) (m : Made d f d₁)

include s h m

/-- No old node has a new owner. -/
theorem owner (hj : d.isLive j = true) (hq : e.Owns q j) : d.Owns q j := by
  by_cases hql : d.isLive q = true
  · by_cases hqp : q = p
    · subst hqp
      rw [owns_iff, Document.children_eq, content?_eq, s.node_self] at hq
      rcases hq with hq | hq
      · have hnew : j ∉ d₁.children f := m.ext.not_mem_of_isLive h m.fresh hj
        refine owns_iff.mpr (Or.inl ?_)
        simp only [List.mem_append] at hq
        simp only [s.children_before, List.mem_append]
        exact hq.imp_left fun hq => Or.inl (hq.resolve_right hnew)
      · exact owns_iff.mpr (Or.inr (by rw [content?_eq]; exact hq))
    · rw [owns_iff, Document.children_eq, content?_eq] at hq ⊢
      by_cases hm : d.Met out q
      · by_cases hp : q ∈ d.pinned
        · rwa [s.detached hm hp] at hq
        · rw [s.sound.vacant (s.vacated hm hp)] at hq
          simp [Node.vacant, contentOf?] at hq
      · rwa [s.kept hql hqp hm] at hq
  · by_cases hqf : q = f
    · rw [owns_iff, hqf, s.children_fragment, content?_eq, ← Document.kind_eq, s.kind_fragment] at hq
      simp [contentOf?] at hq
    · obtain ⟨-, hk, hc⟩ := s.grown (by simpa using hql) hqf
      refine m.ext.owner hj ?_
      rwa [owns_iff, hc, content?_eq, ← Document.kind_eq, hk, Document.kind_eq, ← content?_eq,
        ← owns_iff] at hq

theorem tree_eq {n : NodeId} (hn : n ∈ d₁.children f) : e.tree n = d₁.tree n := by
  have hown : d₁.Owns f n := owns_iff.mpr (Or.inl hn)
  refine tree_congr m.sound s.sound n fun j hj => ?_
  have hjd : d.isLive j = false := by
    by_contra hl
    exact m.not_under h (by simpa using hl) ((Under.of_owns hown).trans hj)
  have hjf : j ≠ f := by
    rintro rfl
    exact m.sound.not_under_of_owns hown hj
  exact (s.grown hjd hjf).2

end Placing

/-- The old nodes that were not given back are live, and the new ones. -/
theorem Placing.isLive_iff (s : Placing d d₁ f p before out after e) (h : d.WellFormed) (m : Made d f d₁)
    (hr : d.isLive root = true) (hpl : d.isLive p = true) :
    e.isLive j = true ↔ (d.isLive j = true ∧ j ∉ d.lost out) ∨ d₁.Under f j := by
  by_cases hl : d.isLive j = true
  · have hnot : ¬ d₁.Under f j := m.not_under h.sound hl
    simp only [hl, mem_lost, hnot, true_and, or_false, not_and, not_not]
    by_cases hm : d.Met out j
    · by_cases hp : j ∈ d.pinned
      · rw [isLive_eq, s.detached hm hp]
        exact iff_of_true hl fun _ => hp
      · rw [s.vacated hm hp]
        exact iff_of_false (by simp) fun hc => hp (hc hm)
    · refine iff_of_true ?_ fun hc => absurd hc hm
      rw [isLive_eq]
      by_cases hjp : j = p
      · rw [hjp, s.node_self]
        exact hpl
      · rw [s.kept hl hjp hm]
        exact hl
  · simp only [hl, false_and, false_or, Bool.false_eq_true]
    by_cases hjf : j = f
    · rw [hjf]
      exact iff_of_true s.orphan.live Under.refl
    · rw [(s.grown (by simpa using hl) hjf).1]
      constructor
      · intro hj
        exact (m.isLive_cases h hr hj).resolve_left hl
      · exact m.sound.live_of_under m.orphan.live

theorem Placing.liveNodes_eq (s : Placing d d₁ f p before out after e) (h : d.WellFormed) (m : Made d f d₁)
    (hr : d.isLive root = true) (hpl : d.isLive p = true) :
    e.liveNodes + (d.lost out).card = d.liveNodes + (d₁.tree f).size := by
  have hset : e.liveSet = (d.liveSet \ d.lost out) ∪ insert f (d₁.belowSet f) := by
    ext j
    rw [mem_liveSet, s.isLive_iff h m hr hpl, Finset.mem_union, Finset.mem_sdiff, mem_liveSet,
      Finset.mem_insert, m.sound.mem_belowSet, Under, Relation.reflTransGen_iff_eq_or_transGen]
  have hdisjoint : Disjoint (d.liveSet \ d.lost out) (insert f (d₁.belowSet f)) := by
    rw [Finset.disjoint_left]
    intro j hj hj'
    rw [Finset.mem_sdiff, mem_liveSet] at hj
    rw [Finset.mem_insert, m.sound.mem_belowSet, ← Relation.reflTransGen_iff_eq_or_transGen] at hj'
    exact m.not_under h.sound hj.1 hj'
  have hself : f ∉ d₁.belowSet f := by
    rw [m.sound.mem_belowSet]
    exact m.sound.not_transGen_self f
  have hsub : d.lost out ⊆ d.liveSet := fun j hj => mem_liveSet.mpr (mem_lost.mp hj).1
  have hnew : (insert f (d₁.belowSet f)).card = (d₁.tree f).size := by
    rw [Finset.card_insert_of_notMem hself, ← m.sound.rank_succ]
    rfl
  have hle := Finset.card_le_card hsub
  rw [s.sound.liveNodes_eq, h.liveNodes_eq, hset, Finset.card_union_of_disjoint hdisjoint, hnew,
    Finset.card_sdiff_of_subset hsub]
  omega

/-- New nodes with the trees `trees` took the place of the children `out` of `p`, and these were given back. -/
structure Placed (d : Document) (p : NodeId) (before out after : List NodeId) (trees : List Tree)
    (d' : Document) : Prop where
  wellFormed : d'.WellFormed
  pinned_eq : d'.pinned = d.pinned
  children_before : d.children p = before ++ out ++ after
  node_self : ∃ new, d'.node p = { d.node p with children := before ++ new ++ after } ∧
    new.map d'.tree = trees ∧ ∀ n ∈ new, d.isLive n = false
  kept : ∀ {j}, d.isLive j = true → j ≠ p → ¬ d.Met out j → d'.node j = d.node j
  detached : ∀ {j}, d.Met out j → j ∈ d.pinned → d'.node j = { d.node j with parent := none }
  vacated : ∀ {j}, d.Met out j → j ∉ d.pinned → d'.isLive j = false
  owner : ∀ {q j}, d.isLive j = true → d'.Owns q j → d.Owns q j
  liveNodes_eq : d'.liveNodes + (d.lost out).card = d.liveNodes + Tree.listSize trees

/-! ### The empty fragment -/

theorem eq_of_under_fragment (hc : d.children f = []) (hk : d.kind f = .fragment) (hu : d.Under f j) :
    j = f := by
  rcases Relation.ReflTransGen.cases_head hu with he | ⟨c, hown, -⟩
  · exact he.symm
  · rw [owns_iff, hc, content?_eq, ← Document.kind_eq, hk] at hown
    simp [contentOf?] at hown

/-- An empty fragment is given back alone. -/
theorem node_release_fragment (h : d.Sound) (ho : d.Orphan f) (hc : d.children f = [])
    (hk : d.kind f = .fragment) (hr : f ≠ root) (hp : f ∉ d.pinned) (j : NodeId) :
    (d.release f).node j = if j = f then .vacant else d.node j := by
  have r := released_release (h.parent_of_orphan ho) hr
  split
  · next hj =>
    subst hj
    exact r.vacated j (.start (by simp)) ho.live hp
  · next hj => exact r.kept j fun hm => absurd (eq_of_under_fragment hc hk hm.under) hj

theorem liveNodes_of_vacated (h : d.Sound) (h' : d'.Sound) (hf : d.isLive f = true)
    (hnode : ∀ j, d'.node j = if j = f then .vacant else d.node j) : d'.liveNodes + 1 = d.liveNodes := by
  have hset : d'.liveSet = d.liveSet.erase f := by
    ext j
    rw [Finset.mem_erase, mem_liveSet, mem_liveSet, isLive_eq, hnode]
    split
    · next hj => simp [hj, Node.vacant]
    · next hj => simp [hj, isLive_eq]
  rw [h'.liveNodes_eq, h.liveNodes_eq, hset, Finset.card_erase_add_one (mem_liveSet.mpr hf)]

/-- Giving the fragment back completes the placing. -/
theorem Placing.placed (s : Placing d d₁ f p before out after e) (h : d.WellFormed)
    (hr : d.isLive root = true) (hpl : d.isLive p = true) (g : Growing d f .fragment none trees d₁) :
    Placed d p before out after trees (e.release f) := by
  have m := g.made
  have hfp : f ∉ e.pinned := by
    rw [s.pinned_eq]
    intro hf
    exact m.ne (h.pinned_live hf) rfl
  have hnode := node_release_fragment s.sound s.orphan s.children_fragment s.kind_fragment
    (m.ne hr).symm hfp
  have hd := dropped_release s.sound s.orphan
  have hcount := liveNodes_of_vacated s.sound hd.sound s.orphan.live hnode
  generalize e.release f = d' at hnode hd hcount
  have hold : ∀ {j}, d.isLive j = true → d'.node j = e.node j := fun hj => by
    rw [hnode, if_neg (m.ne hj)]
  have hlive : ∀ {j}, d.Met out j → d.isLive j = true := s.live_of_met h.sound
  have htree : ∀ n ∈ d₁.children f, d'.tree n = d₁.tree n := by
    intro n hn
    rw [← s.tree_eq h.sound m hn]
    refine hd.tree_eq s.sound s.orphan fun hu => ?_
    have hnf := eq_of_under_fragment s.children_fragment s.kind_fragment hu
    exact m.sound.ne_of_owns (owns_iff.mpr (Or.inl hn)) hnf
  have hnew : ∀ n ∈ d₁.children f, d.isLive n = false := by
    intro n hn
    by_contra hl
    exact m.ext.not_mem_of_isLive h.sound m.fresh (by simpa using hl) hn
  have hsize : (d₁.tree f).size = 1 + Tree.listSize trees := by
    rw [g.tree_eq, Tree.size, Tree.contentSize]
  exact
    { wellFormed := hd.wellFormed (s.wellFormed h)
      pinned_eq := hd.pinned_eq.trans s.pinned_eq
      children_before := s.children_before
      node_self := ⟨d₁.children f, by rw [hold hpl, s.node_self],
        by rw [← g.trees_eq]; exact List.map_congr_left htree, hnew⟩
      kept := fun hj hjp hm => by rw [hold hj, s.kept hj hjp hm]
      detached := fun hm hp => by rw [hold (hlive hm), s.detached hm hp]
      vacated := fun hm hp => by rw [isLive_eq, hold (hlive hm), ← isLive_eq, s.vacated hm hp]
      owner := fun hj hq => s.owner h.sound m hj (hd.owner hq)
      liveNodes_eq := by
        have := s.liveNodes_eq h m hr hpl
        omega }

/-! ## What stays -/

namespace Placed

variable (s : Placed d p before out after trees d') (h : d.WellFormed)

include s

theorem owns_of_mem_out : ∀ o ∈ out, d.Owns p o := fun o ho =>
  owns_iff.mpr (Or.inl (by rw [s.children_before]; simp [ho]))

theorem kind_self : d'.kind p = d.kind p := by
  obtain ⟨new, hnode, -, -⟩ := s.node_self
  rw [Document.kind_eq, hnode]
  rfl

/-- The root stays where it is. -/
theorem orphan_root (hr : d.Orphan root) : d'.Orphan root := by
  refine ⟨?_, fun q hq => hr.unowned q (s.owner hr.live hq)⟩
  by_cases hrp : root = p
  · obtain ⟨new, hnode, -, -⟩ := s.node_self
    rw [isLive_eq, hrp, hnode, ← hrp]
    exact hr.live
  · have hm : ¬ d.Met out root := by
      intro hm
      obtain ⟨o, ho, hu⟩ := hm.exists_under
      exact hr.unowned p (hr.eq_of_under hu ▸ s.owns_of_mem_out o ho)
    rw [isLive_eq, s.kept hr.live hrp hm]
    exact hr.live

include h

/-- The walk does not come to the content of a pinned template, and so leaves it as it is. -/
theorem not_met_of_content (ht : t ∈ d.pinned) (hc : d.content? t = some content)
    (hp : ¬ d.Under content p) (hj : d.Under content j) : ¬ d.Met out j := by
  intro hm
  induction hm with
  | start ho =>
    have hown := s.owns_of_mem_out _ ho
    refine hp (h.under_owner hj ?_ hown)
    rintro rfl
    rw [owns_iff] at hown
    rcases hown with hown | hown
    · exact h.kind_of_child hown (h.kind_of_content hc)
    · exact h.kind_of_child (p := p) (by rw [s.children_before]; simp [ho]) (h.kind_of_content hc)
  | @step q i _ _ hn hown ih =>
    by_cases hi : content = i
    · rw [← hi] at hown
      rw [h.owns_unique hown (owns_iff.mpr (Or.inr hc))] at hn
      exact hn ht
    · exact ih (h.under_owner hj hi hown)

theorem node_eq_of_content (ht : t ∈ d.pinned) (hc : d.content? t = some content)
    (hp : ¬ d.Under content p) (hj : d.Under content j) : d'.node j = d.node j := by
  refine s.kept (h.live_of_under (h.live_of_content hc) hj) ?_ (s.not_met_of_content h ht hc hp hj)
  rintro rfl
  exact hp hj

theorem content?_eq (ht : t ∈ d.pinned) : d'.content? t = d.content? t := by
  rw [Document.content?_eq, Document.content?_eq]
  by_cases htp : t = p
  · rw [← Document.kind_eq, ← Document.kind_eq, htp, s.kind_self]
  · by_cases hm : d.Met out t
    · rw [s.detached hm ht]
    · rw [s.kept (h.pinned_live ht) htp hm]

theorem tree_content (ht : t ∈ d.pinned) (hc : d.content? t = some content)
    (hp : ¬ d.Under content p) : d'.tree content = d.tree content :=
  tree_congr_node h.sound s.wellFormed.sound content fun _ hj => s.node_eq_of_content h ht hc hp hj

/-- What was not below a live node does not come to be below it. -/
theorem not_under {a : NodeId} (hi : d.isLive i = true) (hu : ¬ d.Under a i) : ¬ d'.Under a i := by
  intro hu'
  refine hu (under_of_closed (s := fun x => d.isLive x = true) (fun x hx q hq => ?_) hi hu').2
  have hown := s.owner hx hq
  exact ⟨(h.live_of_owns hown).1, hown⟩

end Placed

/-! ## Renderings -/

/-- The trees that data gives through a template. -/
def renderedTrees (d : Document) (marker : String) (template : NodeId) (data : Value) : List Tree :=
  ((d.content? template).map fun content =>
    (renderItems data).flatMap fun item => ((d.tree content).instantiate marker item).children).getD []

/-- Where a rendering puts new children. -/
def destination? (d : Document) (action : Action) (target : NodeId) : Option NodeId :=
  match action with
  | .append | .update => some target
  | .swap => d.parent target

section Renderings

variable (h : d.WellFormed) (hr : d.Orphan root) (hc : d.content? template = some content)
  (ht : d.isLive target = true)

include h hr hc ht

theorem placed_append (marker : String) (data : Value) :
    Placed d target (d.children target) [] [] (d.renderedTrees marker template data)
      (d.render marker template data target .append).2 := by
  obtain ⟨f, d₁, hrender, g⟩ := growing_renderFragment h.sound hc marker data
  have s := (placing_append h.sound g ht).placed h hr.live ht g
  simp only [render, hrender, renderedTrees, hc]
  exact s

theorem placed_update (marker : String) (data : Value) :
    Placed d target [] (d.children target) [] (d.renderedTrees marker template data)
      (d.render marker template data target .update).2 := by
  obtain ⟨f, d₁, hrender, g⟩ := growing_renderFragment h.sound hc marker data
  have hroot : root ∉ d.children target := fun hmem => hr.unowned target (owns_iff.mpr (Or.inl hmem))
  have s := (placing_update h.sound g ht hroot).placed h hr.live ht g
  simp only [render, hrender, renderedTrees, hc]
  exact s

theorem placed_swap (marker : String) (data : Value) (hp : d.parent target = some p) :
    ∃ before after, Placed d p before [target] after (d.renderedTrees marker template data)
      (d.render marker template data target .swap).2 := by
  obtain ⟨f, d₁, hrender, g⟩ := growing_renderFragment h.sound hc marker data
  have hown : d.Owns p target := owns_iff.mpr (Or.inl (h.child_iff.mpr hp))
  have hroot : target ≠ root := by
    rintro rfl
    exact hr.unowned p hown
  obtain ⟨before, after, s⟩ := placing_swap h.sound g ht hp hroot
  have hp₁ : (d₁.parent target).isSome = true := by
    rw [Document.parent_eq, g.made.ext.node_eq ht, ← Document.parent_eq, hp]
    rfl
  refine ⟨before, after, ?_⟩
  have s := s.placed h hr.live (h.live_of_owns hown).1 g
  simp only [render, hrender, renderedTrees, hc, applyAction, hp₁, if_true]
  exact s

/-- A swap of a target without parent gives all that it made back at once. -/
theorem placed_swap_detached (marker : String) (data : Value) (hp : d.parent target = none) :
    Placed d target (d.children target) [] [] [] (d.render marker template data target .swap).2 := by
  obtain ⟨f, d₁, hrender, g⟩ := growing_renderFragment h.sound hc marker data
  have m := g.made
  have hp₁ : d₁.parent target = none := by
    rw [Document.parent_eq, m.ext.node_eq ht, ← Document.parent_eq, hp]
  have hrelease : (d.render marker template data target .swap).2 = d₁.release f := by
    simp [render, hrender, applyAction, hp₁]
  have hd := dropped_release m.sound m.orphan
  have r := released_release (m.sound.parent_of_orphan m.orphan) (m.ne hr.live).symm
  have hold : ∀ {j}, d.isLive j = true → (d₁.release f).node j = d.node j := fun hj =>
    (hd.node_eq (m.not_under h.sound hj)).trans (m.ext.node_eq hj)
  have hgone : ∀ {j}, d.isLive j = false → (d₁.release f).isLive j = false := by
    intro j hj
    cases hl : d₁.isLive j with
    | false => rw [isLive_eq, r.kept j fun _ => hl, ← isLive_eq, hl]
    | true =>
      have hu := (m.isLive_cases h hr.live hl).resolve_left (by simp [hj])
      have hnew : j ∉ d₁.pinned := fun hjp => by
        rw [h.pinned_live (m.ext.pinned_eq ▸ hjp)] at hj
        cases hj
      rw [isLive_eq, r.vacated j (m.met h hu) hl hnew]
      rfl
  have hset : (d₁.release f).liveSet = d.liveSet := by
    ext j
    rw [mem_liveSet, mem_liveSet]
    cases hj : d.isLive j with
    | false => rw [hgone hj]
    | true => rw [isLive_eq, hold hj, ← isLive_eq, hj]
  rw [hrelease]
  exact
    { wellFormed := hd.wellFormed (m.wellFormed h)
      pinned_eq := hd.pinned_eq.trans m.ext.pinned_eq
      children_before := by simp
      node_self := ⟨[], by rw [hold ht, List.append_nil, List.append_nil, Document.children_eq], rfl, by simp⟩
      kept := fun hj _ _ => hold hj
      detached := fun hm => absurd hm not_met_nil
      vacated := fun hm => absurd hm not_met_nil
      owner := fun hj hq => m.ext.owner hj (hd.owner hq)
      liveNodes_eq := by
        rw [hd.sound.liveNodes_eq, h.liveNodes_eq, hset, lost_nil]
        rfl }

/-- Whatever the action is, a rendering puts new children into its target or into the parent of that. -/
theorem exists_placed_render (marker : String) (data : Value) (action : Action) :
    ∃ p before out after trees, d.Under p target ∧
      Placed d p before out after trees (d.render marker template data target action).2 := by
  cases action with
  | append => exact ⟨_, _, _, _, _, Under.refl, placed_append h hr hc ht marker data⟩
  | update => exact ⟨_, _, _, _, _, Under.refl, placed_update h hr hc ht marker data⟩
  | swap =>
    cases hp : d.parent target with
    | none => exact ⟨_, _, _, _, _, Under.refl, placed_swap_detached h hr hc ht marker data hp⟩
    | some p =>
      obtain ⟨before, after, s⟩ := placed_swap h hr hc ht marker data hp
      have hown := owns_iff.mpr (Or.inl (h.child_iff.mpr hp))
      exact ⟨_, _, _, _, _, Under.of_owns hown, s⟩

end Renderings

end Hypertemplate.Document
