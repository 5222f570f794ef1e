import Hypertemplate.Document.Basic

/-!
# Giving nodes back

`release` detaches a node and gives back its place and the places of all below it, template content
included. A pinned node met on the way is detached and kept with what is below it. The root is never given
back. The walk ends on every table, also on one whose links form cycles: a step either gives back a live
place or shortens the list of places to visit.
-/

namespace Hypertemplate.Document

theorem liveCount_setNode (d : Document) (i : NodeId) (n : Node) (h : i < d.nodes.size) :
    (d.setNode i n).liveCount =
      d.liveCount - (if (d.node i).live then 1 else 0) + (if n.live then 1 else 0) := by
  simp only [liveCount, setNode, node]
  rw [Array.setIfInBounds, dif_pos h, Array.countP_set]
  simp [h]

theorem lt_size_of_isLive {d : Document} {i : NodeId} (h : d.isLive i = true) : i < d.nodes.size := by
  by_cases hi : i < d.nodes.size
  · exact hi
  · simp [isLive, node, hi, Node.vacant] at h

theorem liveCount_pos_of_isLive {d : Document} {i : NodeId} (h : d.isLive i = true) :
    0 < d.liveCount := by
  have hi := lt_size_of_isLive h
  rw [liveCount, Array.countP_pos_iff]
  refine ⟨d.nodes[i], Array.getElem_mem hi, ?_⟩
  simpa [isLive, node, hi] using h

theorem liveCount_vacate_lt {d : Document} {i : NodeId} (h : d.isLive i = true) :
    (d.vacate i).liveCount < d.liveCount := by
  have hi := lt_size_of_isLive h
  have hpos := liveCount_pos_of_isLive h
  have := liveCount_setNode d i .vacant hi
  simp only [isLive] at h
  simp only [h, Node.vacant, if_true] at this
  simp only [vacate, liveCount, setNode] at *
  simp only [Bool.false_eq_true, if_false, Node.vacant] at *
  omega

theorem liveCount_setParent (d : Document) (i : NodeId) (p : Option NodeId) :
    (d.setParent i p).liveCount = d.liveCount := by
  by_cases hi : i < d.nodes.size
  · rw [setParent, modifyNode, liveCount_setNode d i _ hi]
    by_cases hl : (d.node i).live = true
    · have := liveCount_pos_of_isLive (d := d) (i := i) (by simpa [isLive] using hl)
      simp [hl]
      omega
    · simp [hl]
  · simp [setParent, modifyNode, setNode, liveCount, Array.setIfInBounds, hi]

/-- Give back the places on a list and all below them, the front of the list first. -/
def releaseAll (d : Document) (pending : List NodeId) : Document :=
  match pending with
  | [] => d
  | i :: rest =>
    if _h : d.isLive i = true then
      if d.isPinned i then releaseAll (d.setParent i none) rest
      else releaseAll (d.vacate i) ((d.content? i).toList ++ (d.children i).reverse ++ rest)
    else releaseAll d rest
termination_by (d.liveCount, pending.length)
decreasing_by
  · rw [liveCount_setParent]
    exact Prod.Lex.right _ (by simp)
  · exact Prod.Lex.left _ _ (liveCount_vacate_lt _h)
  · exact Prod.Lex.right _ (by simp)

/-- Detach a node and give back its place and those of all below it. -/
def release (d : Document) (i : NodeId) : Document :=
  if i = root then d else releaseAll (d.detach i) [i]

end Hypertemplate.Document
