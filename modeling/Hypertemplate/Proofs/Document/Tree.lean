import Hypertemplate.Proofs.Document.Creation
import Hypertemplate.Proofs.Document.Links

/-!
# The tree below a node

`d.tree i` is what a document says about a node and all below it, without the places: labels, template
content and children in order. In a sound document it is built from the trees of what the node owns
(`Sound.tree_eq`), and it depends on nothing but the nodes below (`tree_congr`).
-/

namespace Hypertemplate

/-- A node with what is below it: what it is, a template's content, and the children in order. -/
inductive Tree where
  | node (kind : Kind) (content : Option Tree) (children : List Tree)

namespace Tree

/-- What the top of a tree is. -/
def kind : Tree → Kind
  | node k _ _ => k

def children : Tree → List Tree
  | node _ _ ts => ts

mutual
/-- Whether two trees are equal, so that trees of fixed documents can be compared. -/
def decEq : (s t : Tree) → Decidable (s = t)
  | .node k c ts, .node k' c' ts' =>
    have := decEqContent c c'
    have := decEqList ts ts'
    decidable_of_iff (k = k' ∧ c = c' ∧ ts = ts') (by rw [Tree.node.injEq])

def decEqContent : (c c' : Option Tree) → Decidable (c = c')
  | none, none => isTrue rfl
  | none, some _ => isFalse nofun
  | some _, none => isFalse nofun
  | some t, some t' =>
    have := decEq t t'
    decidable_of_iff (t = t') (by rw [Option.some.injEq])

def decEqList : (ts ts' : List Tree) → Decidable (ts = ts')
  | [], [] => isTrue rfl
  | [], _ :: _ => isFalse nofun
  | _ :: _, [] => isFalse nofun
  | t :: ts, t' :: ts' =>
    have := decEq t t'
    have := decEqList ts ts'
    decidable_of_iff (t = t' ∧ ts = ts') (by rw [List.cons.injEq])
end

instance : DecidableEq Tree := decEq

end Tree

/-- What a node is, without the place of a template's content. -/
def Kind.plain : Kind → Kind
  | .element e => .element { e with content := none }
  | k => k

namespace Document

variable {d d' : Document} {i j p : NodeId} {n m : Nat}

/-- The tree below a node, cut off below `depth` levels. -/
def treeWithin (d : Document) : (depth : Nat) → NodeId → Tree
  | 0, i => .node (d.kind i).plain none []
  | depth + 1, i => .node (d.kind i).plain ((d.content? i).map (treeWithin d depth))
      ((d.children i).map (treeWithin d depth))

/-- The tree below a node. On a document without cycles no branch is longer than the table. -/
def tree (d : Document) (i : NodeId) : Tree := d.treeWithin d.nodes.size i

/-! ## The tree of a sound document -/

/-- Cutting off behind the last level cuts off nothing. -/
theorem treeWithin_eq_of_rank_le (h : d.Sound) (i : NodeId) :
    ∀ n m, d.rank i ≤ n → d.rank i ≤ m → d.treeWithin n i = d.treeWithin m i := by
  refine h.eq_of_rank_le (fun p hown n m => ?_) (fun p n m hsame => ?_) i
  · have hcontent : d.content? p = none :=
      Option.eq_none_iff_forall_ne_some.mpr fun c hc => hown c (owns_iff.mpr (Or.inr hc))
    cases n <;> cases m <;> simp [treeWithin, children_eq_nil_of_not_owns hown, hcontent]
  · rw [treeWithin, treeWithin]
    congr 1
    · exact Option.map_congr fun c hc => hsame c (owns_iff.mpr (Or.inr hc))
    · exact List.map_congr_left fun c hc => hsame c (owns_iff.mpr (Or.inl hc))

/-- The tree of a node is made of the trees of what the node owns. -/
theorem Sound.tree_eq (h : d.Sound) (i : NodeId) :
    d.tree i = .node (d.kind i).plain ((d.content? i).map d.tree) ((d.children i).map d.tree) := by
  have hstep : d.tree i = d.treeWithin (d.nodes.size + 1) i :=
    treeWithin_eq_of_rank_le h i _ _ (rank_le_size d i) (Nat.le_succ_of_le (rank_le_size d i))
  rw [hstep]
  rfl

theorem Sound.kind_tree (h : d.Sound) (i : NodeId) : (d.tree i).kind = (d.kind i).plain := by
  rw [h.tree_eq]
  rfl

theorem Sound.children_tree (h : d.Sound) (i : NodeId) :
    (d.tree i).children = (d.children i).map d.tree := by
  rw [h.tree_eq]
  rfl

/-! ## Comparing two documents -/

/-- Documents that agree on the nodes below a node have the same tree there. -/
theorem tree_congr (h : d.Sound) (h' : d'.Sound) (i : NodeId)
    (heq : ∀ j, d.Under i j → d'.kind j = d.kind j ∧ d'.children j = d.children j) :
    d'.tree i = d.tree i := by
  revert heq
  refine h.induction (motive := fun i =>
    (∀ j, d.Under i j → d'.kind j = d.kind j ∧ d'.children j = d.children j) →
      d'.tree i = d.tree i) i ?_
  intro p ih heq
  obtain ⟨hkind, hchildren⟩ := heq p Under.refl
  have hcontent : d'.content? p = d.content? p := by
    rw [content?_eq, content?_eq, ← kind_eq, ← kind_eq, hkind]
  have hsame : ∀ c, d.Owns p c → d'.tree c = d.tree c := fun c hc =>
    ih c hc fun j hj => heq j ((Under.of_owns hc).trans hj)
  rw [h'.tree_eq, h.tree_eq, hkind, hchildren, hcontent]
  congr 1
  · exact Option.map_congr fun c hc => hsame c (owns_iff.mpr (Or.inr hc))
  · exact List.map_congr_left fun c hc => hsame c (owns_iff.mpr (Or.inl hc))

theorem tree_congr_node (h : d.Sound) (h' : d'.Sound) (i : NodeId)
    (heq : ∀ j, d.Under i j → d'.node j = d.node j) : d'.tree i = d.tree i :=
  tree_congr h h' i fun j hj => by
    rw [kind_eq, kind_eq, children_eq, children_eq, heq j hj]
    exact ⟨rfl, rfl⟩

/-- New nodes do not change the trees that are there. -/
theorem Extends.tree_eq (e : Extends d d') (h : d.Sound) (h' : d'.Sound)
    (hi : d.isLive i = true) : d'.tree i = d.tree i :=
  tree_congr_node h h' i fun _ hj => e.node_eq (h.live_of_under hi hj)

/-- An exchange of children does not change the trees that the exchanged places are not in. -/
theorem Spliced.tree_eq {before out new after : List NodeId}
    (s : Spliced d p before out new after d') (h : d.Sound) (h' : d'.Sound)
    (hj : ¬ d.Under j p) : d'.tree j = d.tree j :=
  tree_congr h h' j fun k hk => ⟨s.kind_eq k, s.children_ne (by rintro rfl; exact hj hk)⟩

end Document

end Hypertemplate
