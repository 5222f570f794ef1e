import Hypertemplate.Proofs.Document.Moves
import Hypertemplate.Proofs.Document.Tree

/-!
# Changing one subtree

`Rewritten d x d' x'` says that the document changed below `x` only, where `x'` now stands: `x` itself, or a
new node in its place. All other nodes and their owners are as before. Changes below several children of a
node make a change below the node (`Rewritten.of_owns`, `rewritten_children`).
-/

namespace Hypertemplate.Document

variable {d d' d'' : Document} {a c i j p q x x' : NodeId}

/-- `c`, or what stands in its place if it is `x`. -/
def putFor (x x' c : NodeId) : NodeId := if c = x then x' else c

theorem putFor_self (x c : NodeId) : putFor x x c = c := by
  unfold putFor
  split
  · next h => exact h.symm
  · rfl

theorem node_putFor_self (d : Document) (x j : NodeId) :
    { d.node j with children := (d.children j).map (putFor x x) } = d.node j := by
  rw [List.map_congr_left (fun c _ => putFor_self x c), List.map_id']
  rfl

theorem map_putFor_of_not_mem {cs : List NodeId} (h : x ∉ cs) : cs.map (putFor x x') = cs := by
  rw [List.map_congr_left (g := id), List.map_id]
  intro c hc
  exact if_neg (by rintro rfl; exact h hc)

/-- The document changed below `x` only, where `x'` stands now. -/
structure Rewritten (d : Document) (x : NodeId) (d' : Document) (x' : NodeId) : Prop where
  sound : d'.Sound
  pinned_eq : d'.pinned = d.pinned
  isLive : d'.isLive x' = true
  fresh : x' = x ∨ d.isLive x' = false
  node_eq : ∀ {j}, d.isLive j = true → ¬ d.Under x j →
    d'.node j = { d.node j with children := (d.children j).map (putFor x x') }
  owner : ∀ {q j}, d.isLive j = true → ¬ d.Under x j → d'.Owns q j → d.Owns q j
  owner_self : ∀ {q}, d'.Owns q x' → d.Owns q x
  orphan_cases : ∀ {j}, d'.Orphan j → d.Held j
  pinned_live : ∀ {j}, j ∈ d.pinned → d.isLive j = true → d'.isLive j = true

namespace Rewritten

theorem wellFormed (r : Rewritten d x d' x') (h : d.WellFormed) : d'.WellFormed :=
  h.of_sound r.sound r.pinned_eq r.pinned_live

theorem refl (h : d.Sound) (hx : d.isLive x = true) : Rewritten d x d x where
  sound := h
  pinned_eq := rfl
  isLive := hx
  fresh := Or.inl rfl
  node_eq := fun _ _ => (node_putFor_self d x _).symm
  owner := fun _ _ hq => hq
  owner_self := id
  orphan_cases := Or.inl
  pinned_live := fun _ hl => hl

/-- A change of the label of `x`. -/
theorem of_relabelled (r : Relabelled d d') (h : d.Sound) (hx : d.isLive x = true)
    (hnode : ∀ {j}, j ≠ x → d'.node j = d.node j) : Rewritten d x d' x where
  sound := r.sound h
  pinned_eq := r.pinned_eq
  isLive := (r.isLive_eq x).trans hx
  fresh := Or.inl rfl
  node_eq := fun _ hxj => by rw [hnode (ne_of_not_under hxj), node_putFor_self]
  owner := fun _ _ hq => r.owns_iff.mp hq
  owner_self := fun hq => r.owns_iff.mp hq
  orphan_cases := fun ho => Or.inl (r.orphan_iff.mp ho)
  pinned_live := fun _ hl => (r.isLive_eq _).trans hl

/-- Nodes that did not list `x` are as before. -/
theorem node_eq_of_not_mem (r : Rewritten d x d' x') (hj : d.isLive j = true)
    (hxj : ¬ d.Under x j) (hx : x ∉ d.children j) : d'.node j = d.node j := by
  rw [r.node_eq hj hxj, map_putFor_of_not_mem hx]
  rfl

theorem node_eq_of_self (r : Rewritten d x d' x) (hj : d.isLive j = true) (hxj : ¬ d.Under x j) :
    d'.node j = d.node j := by
  rw [r.node_eq hj hxj, node_putFor_self]

theorem isLive_outside (r : Rewritten d x d' x') (hj : d.isLive j = true) (hxj : ¬ d.Under x j) :
    d'.isLive j = true := by
  rw [Document.isLive_eq, r.node_eq hj hxj]
  exact hj

/-- What is above a node that is not below `x` was above it before, and is not below `x` either. -/
theorem outside (r : Rewritten d x d' x') (h : d.Sound) (hj : d.isLive j = true)
    (hxj : ¬ d.Under x j) (hu : d'.Under a j) :
    (d.isLive a = true ∧ ¬ d.Under x a) ∧ d.Under a j := by
  refine under_of_closed (s := fun k => d.isLive k = true ∧ ¬ d.Under x k) ?_ ⟨hj, hxj⟩ hu
  rintro k ⟨hk, hxk⟩ q hq
  have hown := r.owner hk hxk hq
  exact ⟨⟨(h.live_of_owns hown).1, fun hxq => hxk (hxq.tail hown)⟩, hown⟩

/-- The nodes below a node that is apart from `x` are as before. -/
theorem node_eq_apart (r : Rewritten d x d' x') (h : d.Sound) (hi : d.isLive i = true)
    (hix : ¬ d.Under i x) (hxi : ¬ d.Under x i) (hj : d.Under i j) : d'.node j = d.node j := by
  refine r.node_eq_of_not_mem (h.live_of_under hi hj) (fun hxj => ?_) fun hxj => ?_
  · exact (h.under_comparable hj hxj).elim hix hxi
  · exact hix (hj.tail (owns_iff.mpr (Or.inl hxj)))

/-- The nodes below a sibling are as before. -/
theorem node_eq_sibling (r : Rewritten d x d' x') (h : d.Sound) (hx : d.Owns p x)
    (hc : d.Owns p c) (hne : c ≠ x) (hj : d.Under c j) : d'.node j = d.node j := by
  have hcx : ¬ d.Under c x := fun hu => h.not_under_sibling hc hx hne hu Under.refl
  have hxc : ¬ d.Under x c := h.not_under_sibling hc hx hne Under.refl
  exact r.node_eq_apart h (h.live_of_owns hc).2 hcx hxc hj

theorem held (r : Rewritten d x d' x') (hj : d'.Held j) : d.Held j :=
  hj.of_change r.pinned_eq r.orphan_cases

/-- Two changes below the same node, one after the other. -/
theorem trans (r : Rewritten d x d' x) (r' : Rewritten d' x d'' x') (h : d.Sound)
    (hx' : x' = x ∨ d.isLive x' = false) : Rewritten d x d'' x' := by
  have hnot : ∀ {j}, d.isLive j = true → ¬ d.Under x j → ¬ d'.Under x j := fun hj hxj hu =>
    (r.outside h hj hxj hu).1.2 Under.refl
  exact
    { sound := r'.sound
      pinned_eq := r'.pinned_eq.trans r.pinned_eq
      isLive := r'.isLive
      fresh := hx'
      node_eq := by
        intro j hj hxj
        have hnode := r.node_eq_of_self hj hxj
        rw [r'.node_eq (r.isLive_outside hj hxj) (hnot hj hxj), Document.children_eq, hnode]
        rfl
      owner := fun hj hxj hq =>
        r.owner hj hxj (r'.owner (r.isLive_outside hj hxj) (hnot hj hxj) hq)
      owner_self := fun hq => r.owner_self (r'.owner_self hq)
      orphan_cases := fun ho => r.held (r'.orphan_cases ho)
      pinned_live := fun hj hl => r'.pinned_live (r.pinned_eq ▸ hj) (r.pinned_live hj hl) }

/-- A change below a child or the content of a node is a change below the node. -/
theorem of_owns (r : Rewritten d x d' x') (h : d.Sound) (hown : d.Owns p x) :
    Rewritten d p d' p := by
  have hp := (h.live_of_owns hown).1
  have hxp := h.not_under_of_owns hown
  have hnot : ∀ {j}, ¬ d.Under p j → ¬ d.Under x j := fun hpj hxj =>
    hpj ((Under.of_owns hown).trans hxj)
  exact
    { sound := r.sound
      pinned_eq := r.pinned_eq
      isLive := r.isLive_outside hp hxp
      fresh := Or.inl rfl
      node_eq := by
        intro j hj hpj
        have hxj : x ∉ d.children j := fun hxj => hpj (by
          rw [h.owns_unique (owns_iff.mpr (Or.inl hxj)) hown]
          exact Under.refl)
        rw [r.node_eq_of_not_mem hj (hnot hpj) hxj, node_putFor_self]
      owner := fun hj hpj hq => r.owner hj (hnot hpj) hq
      owner_self := fun hq => r.owner hp hxp hq
      orphan_cases := r.orphan_cases
      pinned_live := r.pinned_live }

end Rewritten

/-- The document changed below `x` only, and the tree there is `t` now. -/
structure RewrittenAs (d : Document) (x : NodeId) (d' : Document) (x' : NodeId) (t : Tree) : Prop
    extends Rewritten d x d' x' where
  tree_eq : d'.tree x' = t

theorem RewrittenAs.refl (h : d.Sound) (hx : d.isLive x = true) :
    RewrittenAs d x d x (d.tree x) where
  toRewritten := Rewritten.refl h hx
  tree_eq := rfl

/-! ## Changing all children -/

/-- The children `done` of `x` were rewritten one after the other, the first of `children` are what stands in
their places, and `todo` are the others. -/
structure ChildrenRewritten (d : Document) (x : NodeId) (result : NodeId → Tree)
    (done todo : List NodeId) (d' : Document) : Prop where
  rewritten : Rewritten d x d' x
  children_eq : ∃ children, d'.children x = children ++ todo ∧ children.map d'.tree = done.map result
  kind_eq : d'.kind x = d.kind x
  node_eq : ∀ {c j}, d.Owns x c → c ∉ done → d.Under c j → d'.node j = d.node j

/-- Another child is rewritten. -/
theorem ChildrenRewritten.next {result : NodeId → Tree} {done todo : List NodeId} {y y' : NodeId}
    (s : ChildrenRewritten d x result done (y :: todo) d') (h : d.Sound)
    (hcs : d.children x = done ++ y :: todo) (r : RewrittenAs d' y d'' y' (result y)) :
    ChildrenRewritten d x result (done ++ [y]) todo d'' := by
  have h' := s.rewritten.sound
  obtain ⟨children, hchildren, htrees⟩ := s.children_eq
  have hy' : y ∈ d'.children x := by simp [hchildren]
  have hown' : d'.Owns x y := owns_iff.mpr (Or.inl hy')
  have hx' : d'.isLive x = true := s.rewritten.isLive
  have hy : y ∈ d.children x := by simp [hcs]
  have hxy := h'.not_under_of_owns hown'
  have hnode := r.node_eq hx' hxy
  have hnd' := h'.children_nodup x
  rw [hchildren] at hnd'
  have hnot : y ∉ children ∧ y ∉ todo := by
    rw [List.nodup_append, List.nodup_cons] at hnd'
    exact ⟨fun hc => hnd'.2.2 y hc y (by simp) rfl, hnd'.2.1.1⟩
  refine
    { rewritten := s.rewritten.trans (r.of_owns h' hown') h (Or.inl rfl)
      children_eq := ⟨children ++ [y'], ?_, ?_⟩
      kind_eq := ?_
      node_eq := ?_ }
  · rw [Document.children_eq, hnode, hchildren]
    simp only [List.map_append, List.map_cons, map_putFor_of_not_mem hnot.1,
      map_putFor_of_not_mem hnot.2]
    simp [putFor]
  · rw [List.map_append, List.map_append, ← htrees, List.map_singleton, List.map_singleton,
      r.tree_eq]
    congr 1
    refine List.map_congr_left fun c hc => ?_
    have hown : d'.Owns x c := owns_iff.mpr (Or.inl (by simp [hchildren, hc]))
    exact tree_congr_node h' r.sound c fun j hj =>
      r.node_eq_sibling h' hown' hown (by rintro rfl; exact hnot.1 hc) hj
  · rw [Document.kind_eq, hnode, ← s.kind_eq]
    rfl
  · intro c j hc hdone hj
    have hcy : c ≠ y := by
      rintro rfl
      exact hdone (by simp)
    have hdone' : c ∉ done := fun hd => hdone (by simp [hd])
    have hsame : ∀ {k}, d.Under c k → d'.node k = d.node k := fun hk => s.node_eq hc hdone' hk
    rw [← hsame hj]
    have hc' : d'.Owns x c := by
      rw [owns_iff, Document.content?_eq, ← Document.kind_eq, s.kind_eq, Document.kind_eq,
        ← Document.content?_eq, hchildren]
      rcases owns_iff.mp hc with hmem | hmem
      · rw [hcs] at hmem
        left
        rcases List.mem_append.mp hmem with hmem | hmem
        · exact absurd hmem hdone'
        · exact List.mem_append_right _ hmem
      · exact Or.inr hmem
    refine r.node_eq_sibling h' hown' hc' hcy ((under_congr fun k hk => ?_).mpr hj)
    rw [below, below, Document.children_eq, Document.children_eq, Document.content?_eq,
      Document.content?_eq, hsame hk]

/-- A fold that handles the tasks of one child after the other rewrites the node, if the tasks of a child
rewrite the child wherever nothing below the child is changed. -/
theorem rewritten_children {α : Type} {step : Document → α → Document} {tasks : NodeId → List α}
    {result : NodeId → Tree} (h : d.Sound) (hx : d.isLive x = true)
    (hstep : ∀ y ∈ d.children x, ∀ e : Document, e.Sound → y ∈ e.children x →
      (∀ j, d.Under y j → e.node j = d.node j) →
      ∃ y', RewrittenAs e y ((tasks y).foldl step e) y' (result y)) :
    RewrittenAs d x (((d.children x).flatMap tasks).foldl step d) x
      (.node (d.kind x).plain ((d.content? x).map d.tree) ((d.children x).map result)) := by
  have key : ∀ todo done e, d.children x = done ++ todo → ChildrenRewritten d x result done todo e →
      ChildrenRewritten d x result (done ++ todo) [] ((todo.flatMap tasks).foldl step e) := by
    intro todo
    induction todo with
    | nil =>
      intro done e _ s
      simpa using s
    | cons y rest ih =>
      intro done e hcs s
      have hy : y ∈ d.children x := by simp [hcs]
      have hown : d.Owns x y := owns_iff.mpr (Or.inl hy)
      have hdone : y ∉ done := by
        have hnd := h.children_nodup x
        rw [hcs, List.nodup_append] at hnd
        exact fun hd => hnd.2.2 y hd y (by simp) rfl
      have hy' : y ∈ e.children x := by
        obtain ⟨children, hchildren, -⟩ := s.children_eq
        simp [hchildren]
      obtain ⟨y', r⟩ := hstep y hy e s.rewritten.sound hy' fun j hj => s.node_eq hown hdone hj
      rw [List.flatMap_cons, List.foldl_append]
      have hnext := ih (done ++ [y]) _ (by simpa using hcs) (s.next h hcs r)
      simpa using hnext
  have start : ChildrenRewritten d x result [] (d.children x) d :=
    { rewritten := Rewritten.refl h hx
      children_eq := ⟨[], by simp, by simp⟩
      kind_eq := rfl
      node_eq := fun _ _ _ => rfl }
  have s := key (d.children x) [] d (by simp) start
  obtain ⟨children, hchildren, htrees⟩ := s.children_eq
  refine { toRewritten := s.rewritten, tree_eq := ?_ }
  rw [s.rewritten.sound.tree_eq, hchildren, List.append_nil, htrees, s.kind_eq, content?_eq,
    ← Document.kind_eq, s.kind_eq, Document.kind_eq, ← content?_eq]
  congr 1
  refine Option.map_congr fun f hf => ?_
  have hown : d.Owns x f := owns_iff.mpr (Or.inr hf)
  refine tree_congr_node h s.rewritten.sound f fun j hj => s.node_eq hown ?_ hj
  intro hmem
  exact h.kind_of_child (by simpa using hmem) (h.kind_of_content hf)

end Hypertemplate.Document
