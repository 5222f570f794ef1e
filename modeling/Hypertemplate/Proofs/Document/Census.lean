import Hypertemplate.Proofs.Document.Tree
import Mathlib.Algebra.BigOperators.Group.Finset.Basic
import Mathlib.Algebra.GroupWithZero.Nat

/-!
# How many nodes there are

The places that are not given back are those that are live (`Accounted.liveNodes_eq`), and in a sound
document a tree has as many nodes as there are at and below the node that it is the tree of
(`Sound.rank_succ`).
-/

namespace Hypertemplate

namespace Tree

mutual
/-- The number of nodes of a tree, template contents included. -/
def size : Tree → Nat
  | .node _ content children => 1 + contentSize content + listSize children

def contentSize : Option Tree → Nat
  | none => 0
  | some t => t.size

def listSize : List Tree → Nat
  | [] => 0
  | t :: ts => t.size + listSize ts
end

theorem listSize_eq_sum (ts : List Tree) : listSize ts = (ts.map size).sum := by
  induction ts with
  | nil => rfl
  | cons t rest ih => rw [listSize, ih, List.map_cons, List.sum_cons]

end Tree

namespace Document

variable {d d' : Document} {i j p : NodeId}

/-- The live places. -/
def liveSet (d : Document) : Finset NodeId := (Finset.range d.nodes.size).filter fun i => d.isLive i = true

theorem mem_liveSet : i ∈ d.liveSet ↔ d.isLive i = true := by
  rw [liveSet, Finset.mem_filter, Finset.mem_range]
  exact ⟨And.right, fun h => ⟨lt_size_of_isLive h, h⟩⟩

theorem Accounted.liveNodes_eq (h : d.Accounted) : d.liveNodes = d.liveSet.card := by
  have hfree : (Finset.range d.nodes.size).filter (fun i => ¬ d.isLive i = true) = d.free.toFinset := by
    ext i
    rw [Finset.mem_filter, Finset.mem_range, List.mem_toFinset, h.mem_free_iff, Bool.not_eq_true]
  have hsum : d.liveSet.card + d.free.length = d.nodes.size := by
    rw [← List.toFinset_card_of_nodup h.free_nodup, ← hfree, liveSet,
      Finset.card_filter_add_card_filter_not, Finset.card_range]
  unfold liveNodes
  omega

theorem Sound.liveNodes_eq (h : d.Sound) : d.liveNodes = d.liveSet.card := h.accounted.liveNodes_eq

open Classical in
/-- The places properly below a node. -/
noncomputable def belowSet (d : Document) (i : NodeId) : Finset NodeId :=
  (Finset.range d.nodes.size).filter fun j => Relation.TransGen d.Owns i j

theorem Sound.mem_belowSet (h : d.Sound) :
    j ∈ d.belowSet i ↔ Relation.TransGen d.Owns i j := by
  classical
  rw [belowSet, Finset.mem_filter, Finset.mem_range]
  refine ⟨And.right, fun hu => ⟨?_, hu⟩⟩
  obtain ⟨p, -, hp⟩ := Relation.TransGen.tail'_iff.mp hu
  exact lt_size_of_isLive (h.live_of_owns hp).2

/-- What is below a node is what the node owns with what is below that. -/
theorem Sound.belowSet_eq (h : d.Sound) (p : NodeId) :
    d.belowSet p = (d.below p).toFinset.biUnion fun c => insert c (d.belowSet c) := by
  ext j
  rw [h.mem_belowSet, Finset.mem_biUnion, Relation.TransGen.head'_iff]
  constructor
  · rintro ⟨c, hc, hcj⟩
    refine ⟨c, List.mem_toFinset.mpr hc, ?_⟩
    rw [Finset.mem_insert, h.mem_belowSet]
    rcases Relation.reflTransGen_iff_eq_or_transGen.mp hcj with he | hu
    · exact Or.inl he
    · exact Or.inr hu
  · rintro ⟨c, hc, hcj⟩
    refine ⟨c, List.mem_toFinset.mp hc, ?_⟩
    rw [Finset.mem_insert, h.mem_belowSet] at hcj
    exact Relation.reflTransGen_iff_eq_or_transGen.mpr hcj

theorem Sound.nodup_below (h : d.Sound) (p : NodeId) : (d.below p).Nodup := by
  rw [below, List.nodup_append]
  refine ⟨h.children_nodup p, ?_, ?_⟩
  · cases d.content? p <;> simp
  · rintro c hc c' hc' rfl
    have hp := h.child_iff.mp hc
    rw [h.parent_of_content (Option.mem_toList.mp hc')] at hp
    cases hp

/-- At and below nodes that one node owns there are as many nodes as at and below each of them. -/
theorem Sound.card_below (h : d.Sound) {cs : List NodeId} (hnd : cs.Nodup)
    (hcs : ∀ c ∈ cs, d.Owns p c) :
    (cs.toFinset.biUnion fun c => insert c (d.belowSet c)).card = (cs.map fun c => d.rank c + 1).sum := by
  have hcard : ∀ c, (insert c (d.belowSet c)).card = d.rank c + 1 := by
    intro c
    rw [Finset.card_insert_of_notMem]
    · rfl
    · rw [h.mem_belowSet]
      exact h.not_transGen_self c
  have hdisjoint : (cs.toFinset : Set NodeId).PairwiseDisjoint fun c => insert c (d.belowSet c) := by
    intro c hc c' hc' hne
    rw [Function.onFun, Finset.disjoint_left]
    intro j hj hj'
    rw [Finset.mem_insert, h.mem_belowSet] at hj hj'
    have hown : d.Owns p c := hcs c (List.mem_toFinset.mp hc)
    have hown' : d.Owns p c' := hcs c' (List.mem_toFinset.mp hc')
    exact h.not_under_sibling hown hown' hne (Relation.reflTransGen_iff_eq_or_transGen.mpr hj)
      (Relation.reflTransGen_iff_eq_or_transGen.mpr hj')
  rw [Finset.card_biUnion hdisjoint, Finset.sum_congr rfl fun c _ => hcard c, List.sum_toFinset _ hnd]

/-- A node has as many nodes below it as what it owns has at and below itself. -/
theorem Sound.rank_eq_sum (h : d.Sound) (p : NodeId) :
    d.rank p = ((d.below p).map fun c => d.rank c + 1).sum := by
  have hset : d.rank p = (d.belowSet p).card := rfl
  rw [hset, h.belowSet_eq p]
  exact h.card_below (h.nodup_below p) fun _ hc => hc

/-- A tree has the nodes that there are at and below its place. -/
theorem Sound.rank_succ (h : d.Sound) (i : NodeId) : d.rank i + 1 = (d.tree i).size := by
  refine h.induction (motive := fun i => d.rank i + 1 = (d.tree i).size) i ?_
  intro p ih
  have hchildren : Tree.listSize ((d.children p).map d.tree) =
      ((d.children p).map fun c => d.rank c + 1).sum := by
    rw [Tree.listSize_eq_sum, List.map_map]
    congr 1
    exact List.map_congr_left fun c hc => (ih c (owns_iff.mpr (Or.inl hc))).symm
  have hcontent : Tree.contentSize ((d.content? p).map d.tree) =
      ((d.content? p).toList.map fun c => d.rank c + 1).sum := by
    cases hc : d.content? p with
    | none => rfl
    | some c =>
      have hsize := ih c (owns_iff.mpr (Or.inr hc))
      simp [Tree.contentSize, hsize]
  rw [h.rank_eq_sum, h.tree_eq, Tree.size, hchildren, hcontent, below, List.map_append, List.sum_append]
  omega

/-- Nodes that one node owns have as many nodes at and below them as their trees have. -/
theorem Sound.card_below_eq_listSize (h : d.Sound) {cs : List NodeId} (hnd : cs.Nodup)
    (hcs : ∀ c ∈ cs, d.Owns p c) :
    (cs.toFinset.biUnion fun c => insert c (d.belowSet c)).card = Tree.listSize (cs.map d.tree) := by
  rw [h.card_below hnd hcs, Tree.listSize_eq_sum, List.map_map]
  congr 1
  exact List.map_congr_left fun c _ => h.rank_succ c

end Document

end Hypertemplate
