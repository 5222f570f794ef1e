import Hypertemplate.Proofs.Document.WellFormed

/-!
# Preorder

The preorder of a node is made of the node and the preorders of its children. In a sound document it does not
depend on how deep one goes, as long as no level is left out (`preorder_eq_listing`), and the nodes below a node are its
preorder but for the node itself (`Sound.listing_eq_cons`).
-/

namespace Hypertemplate.Document

variable {d : Document} {i : NodeId} {n : Nat}

/-! ## Listings -/

/-- A node and the nodes below it, at most `depth` levels deep, each before those below it. -/
def preorder (d : Document) : (depth : Nat) → NodeId → List NodeId
  | 0, i => [i]
  | depth + 1, i => i :: (d.children i).flatMap (preorder d depth)

/-- The preorder of a node. On a document without cycles no branch is longer than the table. -/
def listing (d : Document) (i : NodeId) : List NodeId := d.preorder d.nodes.size i

/-- Going deeper than the last level lists nothing more. -/
theorem preorder_eq_of_rank_le (h : d.Sound) (i : NodeId) :
    ∀ n m, d.rank i ≤ n → d.rank i ≤ m → d.preorder n i = d.preorder m i := by
  refine h.eq_of_rank_le (fun p hown n m => ?_) (fun p n m hsame => ?_) i
  · cases n <;> cases m <;> simp [preorder, children_eq_nil_of_not_owns hown]
  · rw [preorder, preorder]
    congr 1
    exact List.flatMap_congr fun c hc => hsame c (owns_iff.mpr (Or.inl hc))

theorem preorder_eq_listing (h : d.Sound) (hn : d.rank i ≤ n) : d.preorder n i = d.listing i :=
  preorder_eq_of_rank_le h i _ _ hn (rank_le_size d i)

/-- The preorder of a node is made of the node and the preorders of its children. -/
theorem Sound.listing_eq (h : d.Sound) (i : NodeId) :
    d.listing i = i :: (d.children i).flatMap d.listing := by
  rw [← preorder_eq_listing h (Nat.le_succ_of_le (rank_le_size d i))]
  rfl

/-- The first node of a list comes first, and then its children and the rest. -/
theorem Sound.flatMap_listing_cons (h : d.Sound) (i : NodeId) (rest : List NodeId) :
    (i :: rest).flatMap d.listing = i :: (d.children i ++ rest).flatMap d.listing := by
  rw [List.flatMap_cons, h.listing_eq, List.flatMap_append, List.cons_append]

/-! ## The walk -/

/-- The visits to a node are those to the nodes of its preorder. -/
theorem visits_eq_length (d : Document) (n : Nat) : ∀ i, d.visits n i = (d.preorder n i).length := by
  induction n with
  | zero => exact fun _ => rfl
  | succ n ih =>
    intro i
    have hfold : ∀ (cs : List NodeId) (k : Nat), cs.foldl (fun total c => total + d.visits n c) k =
        k + (cs.flatMap (d.preorder n)).length := by
      intro cs
      induction cs with
      | nil => exact fun _ => rfl
      | cons c cs hcs =>
        intro k
        rw [List.foldl_cons, hcs, ih, List.flatMap_cons, List.length_append, Nat.add_assoc]
    rw [visits, hfold, preorder, List.length_cons, Nat.add_comm]

/-- A walk that may make enough visits meets the preorders of the nodes that it starts from. -/
theorem Sound.visit_eq (h : d.Sound) : ∀ {n : Nat} {is : List NodeId},
    (is.flatMap d.listing).length ≤ n → d.visit n is = is.flatMap d.listing
  | 0, [], _ => rfl
  | _ + 1, [], _ => rfl
  | 0, i :: rest, hn => by simp [h.flatMap_listing_cons] at hn
  | n + 1, i :: rest, hn => by
    rw [h.flatMap_listing_cons, List.length_cons] at hn
    rw [h.flatMap_listing_cons, visit, h.visit_eq (Nat.le_of_succ_le_succ hn)]

theorem Sound.descendants_eq (h : d.Sound) (i : NodeId) :
    d.descendants i = (d.children i).flatMap d.listing := by
  refine h.visit_eq ?_
  rw [visits_eq_length, ← listing, h.listing_eq]
  exact Nat.le_succ _

theorem Sound.listing_eq_cons (h : d.Sound) (i : NodeId) : d.listing i = i :: d.descendants i := by
  rw [h.listing_eq, h.descendants_eq]

end Hypertemplate.Document
