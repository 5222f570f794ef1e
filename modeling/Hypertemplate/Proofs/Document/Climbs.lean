import Hypertemplate.Proofs.Document.Nodes
import Mathlib.Data.List.Nodup
import Mathlib.Data.List.Perm.Subperm

/-!
# Steps upwards

`above? k i` is the node that is `k` parents above `i`. If no node is above itself (`Rising`), then the walk
upwards from a node is the list of these nodes, the nearest one first (`Rising.getElem?_ancestors`). Nothing
else is assumed about the links: an edit may have left children and parents that do not agree.
-/

namespace Hypertemplate.Document

variable {d : Document} {a i p : NodeId} {k n : Nat}

/-- The node that is `k` parents above another one. -/
def above? (d : Document) : (k : Nat) → NodeId → Option NodeId
  | 0, i => some i
  | k + 1, i => (d.parent i).bind (d.above? k)

/-- No node is above itself. -/
def Rising (d : Document) : Prop := ∀ k i, d.above? (k + 1) i ≠ some i

theorem above?_add (k n : Nat) : ∀ i, d.above? (k + n) i = (d.above? k i).bind (d.above? n) := by
  induction k with
  | zero =>
    intro i
    rw [Nat.zero_add]
    rfl
  | succ k ih =>
    intro i
    rw [Nat.succ_add, above?, above?, Option.bind_assoc]
    congr 1
    funext p
    exact ih p

/-- The last of several steps upwards is one to a parent. -/
theorem above?_succ (k : Nat) (i : NodeId) : d.above? (k + 1) i = (d.above? k i).bind d.parent := by
  rw [above?_add]
  congr 1
  funext p
  simp [above?]

/-- There are nodes on all steps below one where there is a node. -/
theorem exists_above?_of_le (hkn : k ≤ n) (h : d.above? n i = some a) : ∃ p, d.above? k i = some p := by
  obtain ⟨m, rfl⟩ := Nat.exists_eq_add_of_le hkn
  rw [above?_add] at h
  obtain ⟨p, hp, -⟩ := Option.bind_eq_some_iff.mp h
  exact ⟨p, hp⟩

theorem lt_size_of_parent (h : d.parent i = some p) : i < d.nodes.size := by
  by_contra hi
  rw [parent_eq, node_of_size_le (Nat.le_of_not_lt hi)] at h
  cases h

theorem length_climb_le (n : Nat) : ∀ i, (d.climb n i).length ≤ n + 1 := by
  induction n with
  | zero => exact fun _ => Nat.le_refl _
  | succ n ih =>
    intro i
    rw [climb]
    cases d.parent i with
    | none => simp
    | some p => exact Nat.succ_le_succ (ih p)

/-- A walk of bounded length lists the nodes on the first steps upwards. -/
theorem getElem?_climb (n : Nat) : ∀ {k} i, k ≤ n → (d.climb n i)[k]? = d.above? k i := by
  induction n with
  | zero =>
    intro k i hk
    obtain rfl := Nat.le_zero.mp hk
    rfl
  | succ n ih =>
    intro k i hk
    rw [climb]
    cases hp : d.parent i with
    | none =>
      cases k with
      | zero => rfl
      | succ k => simp [above?, hp]
    | some p =>
      cases k with
      | zero => rfl
      | succ k => simp [above?, hp, ih p (Nat.le_of_succ_le_succ hk)]

/-- Where the walk could go on, all its nodes have parents and so places in the table. -/
theorem lt_size_of_mem_climb (ha : d.above? (n + 1) i = some a) : ∀ j ∈ d.climb n i, j < d.nodes.size := by
  intro j hj
  obtain ⟨k, hk⟩ := List.mem_iff_getElem?.mp hj
  have hlt := (List.getElem?_eq_some_iff.mp hk).1
  have hle := d.length_climb_le n i
  rw [getElem?_climb n i (by omega)] at hk
  obtain ⟨p, hp⟩ := exists_above?_of_le (show k + 1 ≤ n + 1 by omega) ha
  rw [above?_succ, hk] at hp
  exact lt_size_of_parent hp

theorem length_le_of_nodup {is : List NodeId} (h : is.Nodup) (hlt : ∀ i ∈ is, i < n) : is.length ≤ n := by
  have hsub : is ⊆ List.range n := fun i hi => List.mem_range.mpr (hlt i hi)
  have hle := (List.subperm_of_subset h hsub).length_le
  rwa [List.length_range] at hle

namespace Rising

theorem above?_ne (h : d.Rising) (hkn : k < n) (hk : d.above? k i = some a) : d.above? n i ≠ some a := by
  obtain ⟨m, rfl⟩ := Nat.exists_eq_add_of_lt hkn
  rw [Nat.add_assoc, above?_add, hk]
  exact h m a

/-- A node is on one step upwards at most. -/
theorem step_unique (h : d.Rising) (hk : d.above? k i = some a) (hn : d.above? n i = some a) : k = n := by
  rcases Nat.lt_trichotomy k n with hlt | he | hlt
  · exact absurd hn (h.above?_ne hlt hk)
  · exact he
  · exact absurd hk (h.above?_ne hlt hn)

theorem nodup_climb (h : d.Rising) (n : Nat) (i : NodeId) : (d.climb n i).Nodup := by
  rw [List.nodup_iff_getElem?_ne_getElem?]
  intro k m hkm hm he
  have hle := d.length_climb_le n i
  have hk : d.above? k i = some (d.climb n i)[m] := by
    rw [← getElem?_climb n i (by omega), he, List.getElem?_eq_getElem hm]
  have hm' : d.above? m i = some (d.climb n i)[m] := by
    rw [← getElem?_climb n i (by omega), List.getElem?_eq_getElem hm]
  exact Nat.ne_of_lt hkm (h.step_unique hk hm')

/-- There are at most as many steps upwards as the table has places. -/
theorem above?_eq_none (h : d.Rising) (hn : d.nodes.size < n) (i : NodeId) : d.above? n i = none := by
  by_contra hne
  obtain ⟨a, ha⟩ := Option.ne_none_iff_exists'.mp hne
  obtain ⟨p, hp⟩ := exists_above?_of_le (show d.nodes.size + 1 ≤ n from hn) ha
  have hle := length_le_of_nodup (h.nodup_climb d.nodes.size i) (lt_size_of_mem_climb hp)
  obtain ⟨q, hq⟩ := exists_above?_of_le (Nat.le_succ _) hp
  rw [← getElem?_climb _ i (Nat.le_refl _)] at hq
  have hlt := (List.getElem?_eq_some_iff.mp hq).1
  omega

theorem getElem?_ancestors (h : d.Rising) (k : Nat) (i : NodeId) : (d.ancestors i)[k]? = d.above? k i := by
  by_cases hk : k ≤ d.nodes.size
  · exact getElem?_climb _ i hk
  · have hle := d.length_climb_le d.nodes.size i
    rw [h.above?_eq_none (by omega), List.getElem?_eq_none_iff, ancestors]
    omega

theorem nodup_ancestors (h : d.Rising) (i : NodeId) : (d.ancestors i).Nodup := h.nodup_climb _ i

theorem mem_ancestors (h : d.Rising) : a ∈ d.ancestors i ↔ ∃ k, d.above? k i = some a := by
  rw [List.mem_iff_getElem?]
  simp only [h.getElem?_ancestors]

/-- Where the root is on top, the nodes below it are connected; nowhere else is any node connected. -/
theorem isConnected_iff (h : d.Rising) :
    d.isConnected i = true ↔ (∃ k, d.above? k i = some root) ∧ d.parent root = none := by
  have hlast : d.isConnected i = true ↔ d.above? ((d.ancestors i).length - 1) i = some root := by
    rw [isConnected, beq_iff_eq, List.getLast?_eq_getElem?, h.getElem?_ancestors]
  rw [hlast]
  constructor
  · intro hi
    refine ⟨⟨_, hi⟩, ?_⟩
    by_contra hne
    obtain ⟨p, hp⟩ := Option.ne_none_iff_exists'.mp hne
    -- The walk would go on to the parent of its last node.
    have hnext : (d.ancestors i)[(d.ancestors i).length - 1 + 1]? = some p := by
      rw [h.getElem?_ancestors, above?_succ, hi]
      exact hp
    have hlt := (List.getElem?_eq_some_iff.mp hnext).1
    omega
  · rintro ⟨⟨k, hk⟩, hp⟩
    have hthere : (d.ancestors i)[k]? = some root := by rw [h.getElem?_ancestors, hk]
    have hover : (d.ancestors i)[k + 1]? = none := by
      rw [h.getElem?_ancestors, above?_succ, hk]
      exact hp
    have hlt := (List.getElem?_eq_some_iff.mp hthere).1
    have hle := List.getElem?_eq_none_iff.mp hover
    rw [show (d.ancestors i).length - 1 = k by omega]
    exact hk

end Rising

/-- A node above itself is as many steps above itself as one likes. -/
theorem exists_above?_of_loop (h : d.above? (k + 1) i = some i) (n : Nat) : ∃ p, d.above? n i = some p := by
  have hround : ∀ m, d.above? ((k + 1) * m) i = some i := by
    intro m
    induction m with
    | zero => rfl
    | succ m ih =>
      rw [Nat.mul_succ, above?_add, ih]
      exact h
  exact exists_above?_of_le (Nat.le_mul_of_pos_left n (Nat.succ_pos k)) (hround n)

/-- No node is above itself if and only if all ways upwards end within the size of the table. -/
theorem rising_iff : d.Rising ↔ ∀ i < d.nodes.size, d.above? (d.nodes.size + 1) i = none := by
  constructor
  · intro h i _
    exact h.above?_eq_none (Nat.lt_succ_self _) i
  · intro h k i hi
    obtain ⟨p, hp, -⟩ := Option.bind_eq_some_iff.mp hi
    obtain ⟨a, ha⟩ := exists_above?_of_loop hi (d.nodes.size + 1)
    rw [h i (lt_size_of_parent hp)] at ha
    cases ha

instance (d : Document) : Decidable d.Rising := decidable_of_iff _ rising_iff.symm

/-! ## New parents -/

section NewParents

variable {d' : Document} {new : List NodeId}
  (hcases : ∀ {c q}, d'.parent c = some q → d.parent c = some q ∨ (c ∈ new ∧ q = p))

include hcases

/-- If only the nodes `new` got a parent, namely `p`, then a walk upwards was there before, or it comes by old
steps to a node that was put below `p`. -/
theorem above?_cases (k : Nat) : ∀ {i}, d'.above? k i = some a →
    d.above? k i = some a ∨
      ∃ n x, x ∈ new ∧ d'.parent x = some p ∧ d.above? n i = some x ∧ d'.above? n i = some x := by
  induction k with
  | zero => exact fun h => Or.inl h
  | succ k ih =>
    intro i h
    obtain ⟨q, hq, ha⟩ := Option.bind_eq_some_iff.mp h
    rcases hcases hq with hold | ⟨hnew, rfl⟩
    · rcases ih ha with ha | ⟨n, x, hx, hxp, hn, hn'⟩
      · exact Or.inl (Option.bind_eq_some_iff.mpr ⟨q, hold, ha⟩)
      · exact Or.inr ⟨n + 1, x, hx, hxp, Option.bind_eq_some_iff.mpr ⟨q, hold, hn⟩,
          Option.bind_eq_some_iff.mpr ⟨q, hq, hn'⟩⟩
    · exact Or.inr ⟨0, i, hnew, hq, rfl, rfl⟩

/-- If moreover none of these nodes was `p` or above it, then no node comes to be above itself. -/
theorem Rising.of_parent_cases (h : d.Rising) (hnew : ∀ x ∈ new, ∀ k, d.above? k p ≠ some x) : d'.Rising := by
  intro k i hi
  rcases above?_cases hcases (k + 1) hi with hold | ⟨n, x, hx, hxp, -, hn⟩
  · exact h k i hold
  · -- The round through `i` is a round through `x`, and its first step leads to `p`.
    have hround : d'.above? (k + 1) x = some x := by
      have hlate : d'.above? (n + (k + 1)) i = some x := by
        rw [Nat.add_comm, above?_add, hi]
        exact hn
      rw [above?_add, hn] at hlate
      exact hlate
    rw [above?, hxp] at hround
    rcases above?_cases hcases k hround with hold | ⟨m, y, hy, -, hm, -⟩
    · exact hnew x hx k hold
    · exact hnew y hy m hm

end NewParents

/-- Without new parents no node comes to be above itself. -/
theorem Rising.of_parent {d' : Document} (h : d.Rising)
    (hsub : ∀ {c q}, d'.parent c = some q → d.parent c = some q) : d'.Rising := by
  have hcases : ∀ {c q}, d'.parent c = some q → d.parent c = some q ∨ (c ∈ ([] : List NodeId) ∧ q = root) :=
    fun hc => Or.inl (hsub hc)
  exact h.of_parent_cases hcases (by simp)

end Hypertemplate.Document
