import Hypertemplate.Proofs.Document.Census
import Hypertemplate.Proofs.Document.Edits
import Hypertemplate.Proofs.Document.Relinking

/-!
# What a release gives back

In a sound document a release gives back exactly the nodes that it finds on ways down over nodes that are not
pinned (`LooseBelow`). Where such a way meets a pinned node, this node is cut off and kept with all that is below
it (`Caught`). Nothing else changes but the children of the former parent (`release_frees`).
-/

namespace Hypertemplate.Document

variable {d : Document} {i j k p c : NodeId}

/-- A way down over children and template contents leads from `i` to a node, and no node on it is pinned, from
`i` up to that node. -/
inductive LooseBelow (d : Document) (i : NodeId) : NodeId → Prop
  | start (hi : i ∉ d.pinned) : LooseBelow d i i
  | step {p c : NodeId} (hp : LooseBelow d i p) (hc : d.Owns p c) (hn : c ∉ d.pinned) : LooseBelow d i c

/-- A pinned node is the first one on a way down from `i`. -/
def Caught (d : Document) (i j : NodeId) : Prop :=
  j ∈ d.pinned ∧ (j = i ∨ ∃ p, d.LooseBelow i p ∧ d.Owns p j)

theorem LooseBelow.not_pinned (h : d.LooseBelow i j) : j ∉ d.pinned := by
  cases h with
  | start hi => exact hi
  | step _ _ hn => exact hn

theorem LooseBelow.under (h : d.LooseBelow i j) : d.Under i j := by
  induction h with
  | start _ => exact Under.refl
  | step _ hc _ ih => exact ih.tail hc

theorem Caught.under (h : d.Caught i j) : d.Under i j := by
  rcases h.2 with rfl | ⟨p, hp, hc⟩
  · exact Under.refl
  · exact hp.under.tail hc

theorem Sound.under_antisymm (h : d.Sound) (hij : d.Under i j) (hji : d.Under j i) : i = j := by
  rcases Relation.reflTransGen_iff_eq_or_transGen.mp hij with he | hlong
  · exact he.symm
  · exact absurd (hlong.trans_left hji) (h.not_transGen_self i)

/-- No node on the way down is pinned. -/
theorem LooseBelow.not_pinned_of_under (hk : d.LooseBelow i k) (h : d.Sound) (hij : d.Under i j)
    (hjk : d.Under j k) : j ∉ d.pinned := by
  induction hk with
  | start hi => rwa [h.under_antisymm hjk hij]
  | @step p c _ hc hn ih =>
    by_cases hjc : j = c
    · rwa [hjc]
    · exact ih (h.under_owner hjk hjc hc)

/-- What is below a pinned node that was met is not met. -/
theorem Caught.apart (hj : d.Caught i j) (h : d.Sound) (hjk : d.Under j k) (hne : k ≠ j) :
    ¬ d.LooseBelow i k ∧ ¬ d.Caught i k := by
  have hloose : ∀ {q}, d.LooseBelow i q → ¬ d.Under j q := fun hq hjq =>
    hq.not_pinned_of_under h hj.under hjq hj.1
  refine ⟨fun hk => hloose hk hjk, fun hk => ?_⟩
  rcases hk.2 with rfl | ⟨p, hp, hc⟩
  · exact hne (h.under_antisymm hj.under hjk)
  · exact hloose hp (h.under_owner hjk hne.symm hc)

/-! ## What a walk meets -/

namespace Sound

variable {out : List NodeId} (h : d.Sound)

include h

/-- The walk meets what is on ways down over nodes that are not pinned, and the pinned nodes where they end. -/
theorem met_iff (hl : ∀ o ∈ out, d.isLive o = true) :
    d.Met out j ↔ (∃ o ∈ out, d.LooseBelow o j) ∨ ∃ o ∈ out, d.Caught o j := by
  constructor
  · intro hm
    induction hm with
    | @start o ho =>
      by_cases hn : o ∈ d.pinned
      · exact Or.inr ⟨o, ho, hn, Or.inl rfl⟩
      · exact Or.inl ⟨o, ho, .start hn⟩
    | @step p c _ _ hn hc ih =>
      obtain ⟨o, ho, hloose⟩ := ih.resolve_right fun ⟨_, _, hp⟩ => hn hp.1
      by_cases hcn : c ∈ d.pinned
      · exact Or.inr ⟨o, ho, hcn, Or.inr ⟨p, hloose, hc⟩⟩
      · exact Or.inl ⟨o, ho, hloose.step hc hcn⟩
  · have hloose : ∀ {o p}, o ∈ out → d.LooseBelow o p → d.Met out p := by
      intro o p ho hp
      induction hp with
      | start _ => exact .start ho
      | step hp hc _ ih => exact ih.step (h.live_of_under (hl o ho) hp.under) hp.not_pinned hc
    rintro (⟨o, ho, hj⟩ | ⟨o, ho, -, rfl | ⟨p, hp, hc⟩⟩)
    · exact hloose ho hj
    · exact .start ho
    · exact (hloose ho hp).step (h.live_of_under (hl o ho) hp.under) hp.not_pinned hc

theorem met_and_not_pinned_iff (hl : ∀ o ∈ out, d.isLive o = true) :
    d.Met out j ∧ j ∉ d.pinned ↔ ∃ o ∈ out, d.LooseBelow o j := by
  rw [h.met_iff hl]
  constructor
  · rintro ⟨hj, hn⟩
    exact hj.resolve_right fun ⟨_, _, hc⟩ => hn hc.1
  · rintro ⟨o, ho, hj⟩
    exact ⟨Or.inl ⟨o, ho, hj⟩, hj.not_pinned⟩

theorem met_and_pinned_iff (hl : ∀ o ∈ out, d.isLive o = true) :
    d.Met out j ∧ j ∈ d.pinned ↔ ∃ o ∈ out, d.Caught o j := by
  rw [h.met_iff hl]
  constructor
  · rintro ⟨hj, hn⟩
    exact hj.resolve_left fun ⟨_, _, hc⟩ => hc.not_pinned hn
  · rintro ⟨o, ho, hj⟩
    exact ⟨Or.inr ⟨o, ho, hj⟩, hj.1⟩

end Sound

/-! ## Detaching -/

/-- The former parent is above the node that is detached, so that nothing below loses a child. -/
theorem node_detach_of_under (h : d.Sound) (hj : d.Under i j) :
    (d.detach i).node j = { d.node j with parent := if j = i then none else d.parent j } := by
  have hp : d.parent i ≠ some j := fun hp =>
    h.not_under_of_owns (owns_iff.mpr (Or.inl (h.child_iff.mpr hp))) hj
  rw [node_detach, if_neg hp]
  rfl

/-- The walk of a release meets the nodes on ways down over nodes that are not pinned, and the pinned nodes
where these ways end. -/
theorem met_detach_iff (h : d.Sound) (hl : d.isLive i = true) :
    (d.detach i).Met [i] j ↔ d.LooseBelow i j ∨ d.Caught i j := by
  have f := relinked_detach d root i
  have hbelow : ∀ {k}, d.Under i k → (d.detach i).below k = d.below k := by
    intro k hk
    rw [below, below, children_eq, children_eq, content?_eq, content?_eq, node_detach_of_under h hk]
  have hsame : (d.detach i).Met [i] j ↔ d.Met [i] j := by
    refine met_congr f.pinned_eq fun k hk => ⟨f.isLive_eq k, ?_⟩
    obtain ⟨o, ho, hu⟩ := hk.exists_under
    exact hbelow (List.mem_singleton.mp ho ▸ hu)
  rw [hsame, h.met_iff (by simpa using hl)]
  simp only [List.mem_singleton, exists_eq_left]

/-! ## Releasing -/

theorem released_detach (d : Document) (hi : i ≠ root) : Released (d.detach i) [i] (d.release i) := by
  rw [release, if_neg hi]
  exact released_releaseAll _ _

section Release

variable (h : d.Sound) (hl : d.isLive i = true) (hi : i ≠ root)

include h hl hi

theorem node_release_of_loose (hj : d.LooseBelow i j) : (d.release i).node j = .vacant := by
  have f := relinked_detach d root i
  refine (released_detach d hi).vacated j ((met_detach_iff h hl).mpr (Or.inl hj)) ?_ ?_
  · rw [f.isLive_eq]
    exact h.live_of_under hl hj.under
  · rw [f.pinned_eq]
    exact hj.not_pinned

theorem node_release_of_caught (hj : d.Caught i j) :
    (d.release i).node j = { d.node j with parent := none } := by
  have f := relinked_detach d root i
  rw [(released_detach d hi).detached j ((met_detach_iff h hl).mpr (Or.inr hj)) ?_ ?_,
    node_detach_of_under h hj.under]
  · rw [f.isLive_eq]
    exact h.live_of_under hl hj.under
  · rw [f.pinned_eq]
    exact hj.1

/-- A node that the walk does not meet is left alone, apart from the children of the former parent. -/
theorem node_release_of_not_met (hloose : ¬ d.LooseBelow i j) (hcaught : ¬ d.Caught i j) :
    (d.release i).node j = { d.node j with
      children := if d.parent i = some j then (d.children j).filter (· != i) else d.children j } := by
  have hm : ¬ (d.detach i).Met [i] j := fun hm =>
    ((met_detach_iff h hl).mp hm).elim hloose hcaught
  have hji : j ≠ i := by
    rintro rfl
    exact hm (.start (by simp))
  rw [(released_detach d hi).kept j fun hmet => absurd hmet hm, node_detach, if_neg hji]
  rfl

theorem isLive_release_iff : (d.release i).isLive j = true ↔ d.isLive j = true ∧ ¬ d.LooseBelow i j := by
  have f := relinked_detach d root i
  rw [(released_detach d hi).isLive_eq_true_iff, f.isLive_eq, f.pinned_eq, met_detach_iff h hl]
  refine and_congr_right fun _ => ⟨fun hm hj => hj.not_pinned (hm (Or.inl hj)), fun hn hm => ?_⟩
  exact (hm.resolve_left hn).1

theorem mem_free_release_iff : j ∈ (d.release i).free ↔ j ∈ d.free ∨ d.LooseBelow i j := by
  have f := relinked_detach d root i
  rw [(released_detach d hi).mem_free_iff, f.free_eq, f.isLive_eq, f.pinned_eq, met_detach_iff h hl]
  refine or_congr_right ⟨fun ⟨hm, _, hn⟩ => hm.resolve_right fun hj => hn hj.1, fun hj => ?_⟩
  exact ⟨Or.inl hj, h.live_of_under hl hj.under, hj.not_pinned⟩

/-- As many nodes go as are given back. -/
theorem liveNodes_release :
    (d.release i).liveNodes + (d.liveSet \ (d.release i).liveSet).card = d.liveNodes := by
  have hsub : (d.release i).liveSet ⊆ d.liveSet := fun j hj =>
    mem_liveSet.mpr ((isLive_release_iff h hl hi).mp (mem_liveSet.mp hj)).1
  have ha := (released_detach d hi).accounted ((relinked_detach d root i).accounted h.accounted)
  rw [ha.liveNodes_eq, h.accounted.liveNodes_eq, Nat.add_comm]
  exact Finset.card_sdiff_add_card_eq_card hsub

theorem mem_liveSet_sdiff_release : j ∈ d.liveSet \ (d.release i).liveSet ↔ d.LooseBelow i j := by
  rw [Finset.mem_sdiff, mem_liveSet, mem_liveSet, isLive_release_iff h hl hi]
  constructor
  · rintro ⟨hj, hn⟩
    by_contra hloose
    exact hn ⟨hj, hloose⟩
  · exact fun hj => ⟨h.live_of_under hl hj.under, fun hn => hn.2 hj⟩

end Release

/-- A release in a sound document gives back exactly the nodes on ways down that lead over no pinned node. Pinned
nodes where such ways end lose their parent and keep all else, and nothing below them changes. The former parent
loses the node from among its children, the others keep their order, and every other node is as before. As many
nodes go as are given back, and none if the node itself is pinned. -/
theorem release_frees (h : d.Sound) (hl : d.isLive i = true) (hi : i ≠ root) :
    (∀ j, j ∈ d.liveSet \ (d.release i).liveSet ↔ d.LooseBelow i j) ∧
    (∀ j, j ∈ (d.release i).free ↔ j ∈ d.free ∨ d.LooseBelow i j) ∧
    (∀ j, d.LooseBelow i j → (d.release i).node j = .vacant) ∧
    (∀ j, d.Caught i j → (d.release i).node j = { d.node j with parent := none } ∧
      ∀ k, d.Under j k → k ≠ j → (d.release i).node k = d.node k) ∧
    (∀ p, d.parent i = some p →
      (d.release i).node p = { d.node p with children := (d.children p).filter (· != i) }) ∧
    (∀ j, ¬ d.LooseBelow i j → ¬ d.Caught i j → d.parent i ≠ some j → (d.release i).node j = d.node j) ∧
    (d.release i).liveNodes + (d.liveSet \ (d.release i).liveSet).card = d.liveNodes ∧
    (i ∈ d.pinned → (d.release i).liveNodes = d.liveNodes) := by
  have hother : ∀ j, ¬ d.LooseBelow i j → ¬ d.Caught i j → d.parent i ≠ some j →
      (d.release i).node j = d.node j := by
    intro j hloose hcaught hp
    rw [node_release_of_not_met h hl hi hloose hcaught, if_neg hp]
    rfl
  have hcount := liveNodes_release h hl hi
  refine ⟨fun j => mem_liveSet_sdiff_release h hl hi, fun j => mem_free_release_iff h hl hi,
    fun j hj => node_release_of_loose h hl hi hj, fun j hj => ?_, fun p hp => ?_, hother, hcount,
    fun hpin => ?_⟩
  · refine ⟨node_release_of_caught h hl hi hj, fun k hjk hne => ?_⟩
    obtain ⟨hloose, hcaught⟩ := hj.apart h hjk hne
    refine hother k hloose hcaught fun hp => ?_
    exact h.not_under_of_owns (owns_iff.mpr (Or.inl (h.child_iff.mpr hp))) (hj.under.trans hjk)
  · have habove := h.not_under_of_owns (owns_iff.mpr (Or.inl (h.child_iff.mpr hp)))
    rw [node_release_of_not_met h hl hi (fun hloose => habove hloose.under)
      (fun hcaught => habove hcaught.under), if_pos hp]
  · have hnone : ∀ j, ¬ d.LooseBelow i j := fun j hj => hj.not_pinned_of_under h Under.refl hj.under hpin
    have hempty : d.liveSet \ (d.release i).liveSet = ∅ :=
      Finset.eq_empty_of_forall_notMem fun j hj => hnone j ((mem_liveSet_sdiff_release h hl hi).mp hj)
    rwa [hempty, Finset.card_empty, Nat.add_zero] at hcount

/-- A division goes with its template, the content and the text in it; its paragraph is pinned and stays with
its text. -/
theorem release_frees_around_pinned :
    let d := (Document.parse "<div><template>b</template><p>a</p></div>").pin 8
    d.Sound ∧ d.isLive 4 = true ∧ 4 ≠ root ∧
      (∀ j ∈ [4, 6, 5, 7], j ∈ d.liveSet \ (d.release 4).liveSet) ∧
      (d.release 4).node 8 = { d.node 8 with parent := none } ∧ (d.release 4).node 9 = d.node 9 ∧
      (d.release 4).children 3 = [] := by
  intro d
  have hw : d.Sound := ((wellFormed_parse _).pin (by decide +kernel)).sound
  obtain ⟨hl, hpinned, hdiv, htemplate, hcontent, hparagraph, hp, hbody⟩ :
      d.isLive 4 = true ∧ d.pinned = [8] ∧ d.below 4 = [6, 8] ∧ d.below 6 = [5] ∧ d.below 5 = [7] ∧
        d.below 8 = [9] ∧ d.parent 4 = some 3 ∧ d.children 3 = [4] := by
    decide +kernel
  have hi : 4 ≠ root := by decide
  obtain ⟨hfreed, -, -, hcaught, hparent, -⟩ := release_frees hw hl hi
  have h4 : d.LooseBelow 4 4 := .start (by simp [hpinned])
  have h6 : d.LooseBelow 4 6 := h4.step (by simp [Owns, hdiv]) (by simp [hpinned])
  have h5 : d.LooseBelow 4 5 := h6.step (by simp [Owns, htemplate]) (by simp [hpinned])
  have h7 : d.LooseBelow 4 7 := h5.step (by simp [Owns, hcontent]) (by simp [hpinned])
  have h8 : d.Caught 4 8 := ⟨by simp [hpinned], Or.inr ⟨4, h4, by simp [Owns, hdiv]⟩⟩
  refine ⟨hw, hl, hi, ?_, (hcaught 8 h8).1, (hcaught 8 h8).2 9 ?_ (by decide), ?_⟩
  · simp only [hfreed, List.forall_mem_cons]
    exact ⟨h4, h6, h5, h7, by simp⟩
  · exact Under.of_owns (by simp [Owns, hparagraph])
  · rw [children_eq, hparent 3 hp, hbody]
    rfl

end Hypertemplate.Document
