import Hypertemplate.Proofs.Document.Walks
import Hypertemplate.Proofs.Template.Placement

/-!
# Documents seen through patches

A patch says what is to be done at a node: an action, and the trees to put there. `d.view σ i` is what the node
`i` would be if all patches `σ` were applied at once. What was put in at a node is seen in the same way as a
patch there would be (`Placed.view_eq`).
-/

namespace Hypertemplate.Document

variable {d d' : Document} {c i p t : NodeId} {before out after : List NodeId} {trees : List Tree}

/-- What is to be done at the nodes. -/
abbrev Patches := NodeId → Option (Action × List Tree)

variable {σ τ : Patches}

/-! ## Looking through patches -/

/-- A node with a patch: what stands for it among its siblings. -/
def patched (kind : Kind) (content : Option Tree) (children : List Tree) :
    Option (Action × List Tree) → List Tree
  | none => [.node kind content children]
  | some (.append, trees) => [.node kind content (children ++ trees)]
  | some (.update, trees) => [.node kind content trees]
  | some (.swap, trees) => trees

/-- What stands for a node with all below it, cut off below `depth` levels. -/
def viewWithin (d : Document) (σ : Patches) : (depth : Nat) → NodeId → List Tree
  | 0, _ => []
  | depth + 1, i => patched (d.kind i).plain ((d.content? i).map d.tree)
      ((d.children i).flatMap (viewWithin d σ depth)) (σ i)

def view (d : Document) (σ : Patches) (i : NodeId) : List Tree := d.viewWithin σ (d.nodes.size + 1) i

theorem viewWithin_eq_of_rank_lt (h : d.Sound) (σ : Patches) (i : NodeId) :
    ∀ n m, d.rank i < n → d.rank i < m → d.viewWithin σ n i = d.viewWithin σ m i := by
  refine h.induction (motive := fun i => ∀ n m, d.rank i < n → d.rank i < m →
    d.viewWithin σ n i = d.viewWithin σ m i) i ?_
  intro p ih n m hn hm
  obtain ⟨n, rfl⟩ := Nat.exists_eq_succ_of_ne_zero (Nat.ne_of_gt (Nat.lt_of_le_of_lt (Nat.zero_le _) hn))
  obtain ⟨m, rfl⟩ := Nat.exists_eq_succ_of_ne_zero (Nat.ne_of_gt (Nat.lt_of_le_of_lt (Nat.zero_le _) hm))
  have hsame : (d.children p).flatMap (d.viewWithin σ n) = (d.children p).flatMap (d.viewWithin σ m) := by
    rw [List.flatMap_def, List.flatMap_def]
    congr 1
    refine List.map_congr_left fun c hc => ?_
    have hown : d.Owns p c := owns_iff.mpr (Or.inl hc)
    have hrank := h.rank_lt hown
    exact ih c hown n m (by omega) (by omega)
  rw [viewWithin, viewWithin, hsame]

theorem Sound.view_eq (h : d.Sound) (σ : Patches) (i : NodeId) :
    d.view σ i = patched (d.kind i).plain ((d.content? i).map d.tree)
      ((d.children i).flatMap (d.view σ)) (σ i) := by
  have hrank := rank_le_size d i
  have hstep : d.view σ i = d.viewWithin σ (d.nodes.size + 1 + 1) i :=
    viewWithin_eq_of_rank_lt h σ i _ _ (by omega) (by omega)
  rw [hstep]
  rfl

/-- Without patches below a node its tree is seen. -/
theorem Sound.view_of_none (h : d.Sound) (i : NodeId) :
    (∀ j, d.Under i j → σ j = none) → d.view σ i = [d.tree i] := by
  refine h.induction (motive := fun i => (∀ j, d.Under i j → σ j = none) → d.view σ i = [d.tree i]) i ?_
  intro p ih hσ
  have hchildren : (d.children p).flatMap (d.view σ) = (d.children p).map d.tree := by
    rw [List.map_eq_flatMap, List.flatMap_def, List.flatMap_def]
    congr 1
    refine List.map_congr_left fun c hc => ?_
    have hown : d.Owns p c := owns_iff.mpr (Or.inl hc)
    exact ih c hown fun j hj => hσ j ((Under.of_owns hown).trans hj)
  rw [h.view_eq, hchildren, hσ p Under.refl, patched, h.tree_eq]

/-! ## What a placing leaves alone -/

/-- A node that is not below what is taken out. -/
def Outside (d : Document) (out : List NodeId) (i : NodeId) : Prop := ∀ o ∈ out, ¬ d.Under o i

theorem Outside.not_met (ho : d.Outside out i) : ¬ d.Met out i := by
  intro hm
  obtain ⟨o, hmem, hu⟩ := hm.exists_under
  exact ho o hmem hu

/-- What owns a node outside is outside. -/
theorem Outside.of_owns (ho : d.Outside out c) (hown : d.Owns p c) : d.Outside out p :=
  fun o hmem hu => ho o hmem (hu.tail hown)

/-- What a node outside owns is outside, unless it is taken out itself. -/
theorem Outside.owned (ho : d.Outside out p) (h : d.Sound) (hown : d.Owns p c) (hc : c ∉ out) :
    d.Outside out c := by
  intro o hmem hu
  refine ho o hmem (h.under_owner hu ?_ hown)
  rintro rfl
  exact hc hmem

namespace Placed

variable (s : Placed d p before out after trees d') (h : d.WellFormed) (hr : d.Orphan root)
  (hp : d.Hangs root p)

include s

/-- The root is never taken out. -/
theorem outside_root (hr : d.Orphan root) : d.Outside out root := by
  intro o ho hu
  have hown := s.owns_of_mem_out o ho
  rw [hr.eq_of_under hu] at hown
  exact hr.unowned p hown

theorem node_eq_of_outside (hi : d.isLive i = true) (hip : i ≠ p) (ho : d.Outside out i) :
    d'.node i = d.node i :=
  s.kept hi hip ho.not_met

/-- A node that was not taken out is what it was. -/
theorem kind_of_outside (hi : d.isLive i = true) (ho : d.Outside out i) : d'.kind i = d.kind i := by
  by_cases hip : i = p
  · rw [hip, s.kind_self]
  · rw [Document.kind_eq, s.node_eq_of_outside hi hip ho, ← Document.kind_eq]

theorem content?_of_outside (hi : d.isLive i = true) (ho : d.Outside out i) :
    d'.content? i = d.content? i := by
  rw [Document.content?_eq, Document.content?_eq, ← Document.kind_eq, ← Document.kind_eq,
    s.kind_of_outside hi ho]

/-- A node that was not taken out is what it was, and has the same content. -/
theorem tree_eq (hi : d.isLive i = true) (ho : d.Outside out i) : d'.tree i =
    .node (d.kind i).plain ((d.content? i).map d'.tree) (d'.tree i).children := by
  rw [s.wellFormed.tree_eq, s.kind_of_outside hi ho, s.content?_of_outside hi ho]
  rfl

/-- The node whose children were exchanged has the new trees among its children. -/
theorem children_tree_self : (d'.tree p).children = before.map d'.tree ++ trees ++ after.map d'.tree := by
  obtain ⟨new, hnode, htrees, -⟩ := s.node_self
  rw [s.wellFormed.children_tree, Document.children_eq, hnode, List.map_append, List.map_append, htrees]

theorem children_tree_of_outside (hi : d.isLive i = true) (hip : i ≠ p) (ho : d.Outside out i) :
    (d'.tree i).children = (d.children i).map d'.tree := by
  rw [s.wellFormed.children_tree, Document.children_eq, s.node_eq_of_outside hi hip ho,
    ← Document.children_eq]

include h

/-- The siblings of what is taken out stay. -/
theorem sibling_not_mem_out (hc : c ∈ before ∨ c ∈ after) : c ∈ d.children p ∧ c ∉ out := by
  have hnd := h.children_nodup p
  rw [s.children_before, List.nodup_append, List.nodup_append] at hnd
  obtain ⟨⟨-, -, hbo⟩, -, hoa⟩ := hnd
  rw [s.children_before]
  rcases hc with hc | hc
  · exact ⟨by simp [hc], fun ho => hbo c hc c ho rfl⟩
  · exact ⟨by simp [hc], fun ho => hoa c (by simp [ho]) c hc rfl⟩

/-- No content is taken out. -/
theorem content_not_mem_out (hc : d.content? i = some c) : c ∉ out := fun ho =>
  h.kind_of_child (p := p) (by rw [s.children_before]; simp [ho]) (h.kind_of_content hc)

/-- The content of a node outside keeps its tree, unless the exchange is in it. -/
theorem tree_content_of_outside (ho : d.Outside out i) (hc : d.content? i = some c) (hcp : ¬ d.Under c p) :
    d'.tree c = d.tree c := by
  have hown : d.Owns i c := owns_iff.mpr (Or.inr hc)
  refine tree_congr_node h.sound s.wellFormed.sound c fun j hj => ?_
  refine s.node_eq_of_outside (h.live_of_under (h.live_of_content hc) hj) ?_ ?_
  · rintro rfl
    exact hcp hj
  · intro o hmem hu
    have hoc : o ≠ c := by
      rintro rfl
      exact s.content_not_mem_out h hc hmem
    rcases h.under_comparable hu hj with hu | hu
    · exact ho o hmem (h.under_owner hu hoc hown)
    · exact hcp (h.under_owner hu hoc.symm (s.owns_of_mem_out o hmem))

/-- An exchange for nodes with the same trees changes no tree. -/
theorem tree_eq_of_same (htrees : out.map d.tree = trees) (i : NodeId) :
    d.isLive i = true → d.Outside out i → d'.tree i = d.tree i := by
  refine h.induction (motive := fun i => d.isLive i = true → d.Outside out i → d'.tree i = d.tree i) i ?_
  intro q ih hq ho
  have hkept : ∀ c, d.Owns q c → c ∉ out → d'.tree c = d.tree c := fun c hc hout =>
    ih c hc (h.live_of_owns hc).2 (ho.owned h.sound hc hout)
  rw [s.tree_eq hq ho, h.tree_eq q]
  congr 1
  · exact Option.map_congr fun c hc => hkept c (owns_iff.mpr (Or.inr hc)) (s.content_not_mem_out h hc)
  · by_cases hqp : q = p
    · subst hqp
      have hsiblings : ∀ cs : List NodeId, (∀ c ∈ cs, c ∈ before ∨ c ∈ after) →
          cs.map d'.tree = cs.map d.tree := by
        intro cs hcs
        refine List.map_congr_left fun c hc => ?_
        obtain ⟨hmem, hout⟩ := s.sibling_not_mem_out h (hcs c hc)
        exact hkept c (owns_iff.mpr (Or.inl hmem)) hout
      rw [s.children_tree_self, s.children_before, List.map_append, List.map_append, htrees,
        hsiblings before fun c hc => Or.inl hc, hsiblings after fun c hc => Or.inr hc]
    · rw [s.children_tree_of_outside hq hqp ho]
      refine List.map_congr_left fun c hc => ?_
      have hown : d.Owns q c := owns_iff.mpr (Or.inl hc)
      exact hkept c hown fun hout => hqp (h.owns_unique hown (s.owns_of_mem_out c hout))

/-- A node that is not taken out still hangs on the root. -/
theorem hangs (hi : d.Hangs root i) (ho : d.Outside out i) : d'.Hangs root i := by
  induction hi with
  | refl => exact Hangs.refl
  | @tail q i hq hi ih =>
    have hown : d.Owns q i := owns_iff.mpr (Or.inl hi)
    refine Hangs.trans (ih (ho.of_owns hown)) (Hangs.of_mem ?_)
    by_cases hqp : q = p
    · subst hqp
      obtain ⟨new, hnode, -, -⟩ := s.node_self
      have hout : i ∉ out := fun hmem => ho i hmem Under.refl
      rw [Document.children_eq, hnode]
      have hi' : i ∈ before ++ out ++ after := by rw [← s.children_before]; exact hi
      simp only [List.mem_append] at hi' ⊢
      tauto
    · rw [Document.children_eq, s.node_eq_of_outside (h.live_of_owns hown).1 hqp (ho.of_owns hown),
        ← Document.children_eq]
      exact hi

include hr hp

/-- A node outside keeps its content, with the tree below that. -/
theorem content_of_outside (hi : d.isLive i = true) (ho : d.Outside out i) :
    (d'.content? i).map d'.tree = (d.content? i).map d.tree := by
  rw [s.content?_of_outside hi ho]
  exact Option.map_congr fun c hc =>
    s.tree_content_of_outside h ho hc (hp.not_under_content_of_root h.sound hr hc)

/-- What is seen of a node that is not taken out, if the patches `τ` say at `p` what was done there and are
the patches `σ` otherwise. -/
theorem view_eq (hσ : ∀ k, σ k ≠ none → d.isLive k = true)
    (hτ : ∀ k, k ≠ p → d.Outside out k → τ k = σ k)
    (hself : patched (d.kind p).plain ((d.content? p).map d.tree)
      (before.flatMap (d.view τ) ++ trees ++ after.flatMap (d.view τ)) (σ p) = d.view τ p) (i : NodeId) :
    d.Hangs root i → d.Outside out i → d'.view σ i = d.view τ i := by
  refine h.induction (motive := fun i => d.Hangs root i → d.Outside out i →
    d'.view σ i = d.view τ i) i ?_
  intro q ih hq ho
  have hlive : d.isLive q = true := h.live_of_under hr.live hq.under
  have hchild : ∀ c ∈ d.children q, c ∉ out → d'.view σ c = d.view τ c := by
    intro c hc hout
    have hown : d.Owns q c := owns_iff.mpr (Or.inl hc)
    exact ih c hown (hq.trans (Hangs.of_mem hc)) (ho.owned h.sound hown hout)
  have hlist : ∀ cs : List NodeId, (∀ c ∈ cs, c ∈ d.children q ∧ c ∉ out) →
      cs.flatMap (d'.view σ) = cs.flatMap (d.view τ) := by
    intro cs hcs
    rw [List.flatMap_def, List.flatMap_def]
    congr 1
    exact List.map_congr_left fun c hc => hchild c (hcs c hc).1 (hcs c hc).2
  by_cases hqp : q = p
  · subst hqp
    obtain ⟨new, hnode, htrees, hnew⟩ := s.node_self
    have hbefore : before.flatMap (d'.view σ) = before.flatMap (d.view τ) :=
      hlist before fun c hc => s.sibling_not_mem_out h (Or.inl hc)
    have hafter : after.flatMap (d'.view σ) = after.flatMap (d.view τ) :=
      hlist after fun c hc => s.sibling_not_mem_out h (Or.inr hc)
    -- No patch is at or below a new node.
    have hinner : new.flatMap (d'.view σ) = trees := by
      rw [← htrees, List.map_eq_flatMap, List.flatMap_def, List.flatMap_def]
      congr 1
      refine List.map_congr_left fun n hn => s.wellFormed.view_of_none n fun j hj => ?_
      by_contra hne
      have hjl := hσ j hne
      refine s.not_under h hjl (fun hu => ?_) hj
      have hnl := h.live_of_live_below hu hjl
      rw [hnew n hn] at hnl
      cases hnl
    have hchildren : d'.children q = before ++ new ++ after := by rw [Document.children_eq, hnode]
    rw [s.wellFormed.view_eq, s.kind_self, s.content_of_outside h hr hp hlive ho, hchildren,
      List.flatMap_append, List.flatMap_append, hbefore, hafter, hinner, hself]
  · have hnode := s.node_eq_of_outside hlive hqp ho
    have hchildren : (d.children q).flatMap (d'.view σ) = (d.children q).flatMap (d.view τ) := by
      refine hlist _ fun c hc => ⟨hc, fun hout => hqp ?_⟩
      exact h.owns_unique (owns_iff.mpr (Or.inl hc)) (s.owns_of_mem_out c hout)
    rw [s.wellFormed.view_eq, h.view_eq, s.content_of_outside h hr hp hlive ho, Document.kind_eq, hnode,
      ← Document.kind_eq, Document.children_eq, hnode, ← Document.children_eq, hchildren, hτ q hqp ho]

end Placed

end Hypertemplate.Document
