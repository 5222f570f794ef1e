import Hypertemplate.Proofs.Document.Climbs
import Hypertemplate.Proofs.Document.WellFormed

/-!
# Walks in sound documents

The nodes below another one by links to children alone (`Hangs`) are those that the walks downwards and upwards
meet. In a sound document a walk meets no node twice (`nodup_descendants`, `Sound.rising`), and what
hangs on the root is in no template's content unless the root is (`Hangs.not_under_content`).
-/

namespace Hypertemplate.Document

variable {d : Document} {a c i j p t : NodeId} {is : List NodeId}

/-- `i` is `a` or below it by links to children alone. -/
def Hangs (d : Document) (a i : NodeId) : Prop :=
  Relation.ReflTransGen (fun p c => c ∈ d.children p) a i

theorem Hangs.refl : d.Hangs a a := Relation.ReflTransGen.refl

theorem Hangs.of_mem (h : c ∈ d.children p) : d.Hangs p c := Relation.ReflTransGen.single h

theorem Hangs.trans (h : d.Hangs a i) (h' : d.Hangs i j) : d.Hangs a j :=
  Relation.ReflTransGen.trans h h'

theorem Hangs.under (h : d.Hangs a i) : d.Under a i := by
  induction h with
  | refl => exact Under.refl
  | tail _ hc ih => exact ih.tail (owns_iff.mpr (Or.inl hc))

/-- What hangs on another node has a parent that hangs on it. -/
theorem Hangs.exists_parent (hw : d.Sound) (h : d.Hangs a i) (hne : i ≠ a) :
    ∃ p, d.parent i = some p ∧ d.Hangs a p := by
  rcases Relation.ReflTransGen.cases_tail h with he | ⟨p, hp, hc⟩
  · exact absurd he hne
  · exact ⟨p, hw.child_iff.mp hc, hp⟩

/-- The content of a template is a fragment and so nobody's child: the way up from a node that hangs on
another one does not lead through it. -/
theorem Hangs.not_under_content (h : d.Hangs a i) (hw : d.Sound) (hc : d.content? t = some c)
    (ha : ¬ d.Under c a) : ¬ d.Under c i := by
  induction h with
  | refl => exact ha
  | @tail p x _ hx ih =>
    intro hu
    have hcx : c ≠ x := by
      rintro rfl
      exact hw.kind_of_child hx (hw.kind_of_content hc)
    exact ih (hw.under_owner hu hcx (owns_iff.mpr (Or.inl hx)))

/-- The content of a template is not above what hangs on the root. -/
theorem Hangs.not_under_content_of_root (hi : d.Hangs root i) (h : d.Sound) (hr : d.Orphan root)
    (hc : d.content? t = some c) : ¬ d.Under c i := by
  refine hi.not_under_content h hc fun hu => ?_
  exact hr.unowned t (owns_iff.mpr (Or.inr (hr.eq_of_under hu ▸ hc)))

/-- Below what hangs on the root all links are links to children. -/
theorem Hangs.of_under (hi : d.Hangs root i) (h : d.Sound) (hr : d.Orphan root) (hu : d.Under a i) :
    d.Hangs a i := by
  induction hi with
  | refl =>
    rw [hr.eq_of_under hu]
    exact Hangs.refl
  | @tail p x _ hx ih =>
    by_cases hax : a = x
    · rw [hax]
      exact Hangs.refl
    · have hap := h.under_owner hu hax (owns_iff.mpr (Or.inl hx))
      exact (ih hap).trans (Hangs.of_mem hx)

/-! ## Downwards -/

theorem exists_hangs_of_mem_visit {n : Nat} : ∀ {is : List NodeId}, j ∈ d.visit n is →
    ∃ i ∈ is, d.Hangs i j := by
  induction n with
  | zero => intro is hj; cases hj
  | succ n ih =>
    intro is hj
    cases is with
    | nil => cases hj
    | cons i rest =>
      rcases List.mem_cons.mp hj with rfl | hj
      · exact ⟨j, by simp, Hangs.refl⟩
      · obtain ⟨k, hk, hkj⟩ := ih hj
        rcases List.mem_append.mp hk with hk | hk
        · exact ⟨i, by simp, (Hangs.of_mem hk).trans hkj⟩
        · exact ⟨k, by simp [hk], hkj⟩

theorem hangs_of_mem_descendants (h : j ∈ d.descendants i) : d.Hangs i j := by
  obtain ⟨c, hc, hj⟩ := exists_hangs_of_mem_visit h
  exact (Hangs.of_mem hc).trans hj

theorem ne_of_mem_descendants (h : d.Sound) (hj : j ∈ d.descendants i) : j ≠ i := by
  obtain ⟨c, hc, hcj⟩ := exists_hangs_of_mem_visit hj
  rintro rfl
  exact h.not_under_of_owns (owns_iff.mpr (Or.inl hc)) hcj.under

/-- Neither of two nodes is the other one or below it. -/
def Apart (d : Document) (i j : NodeId) : Prop := ¬ d.Under i j ∧ ¬ d.Under j i

theorem Sound.apart_children (h : d.Sound) (p : NodeId) :
    (d.children p).Pairwise d.Apart := by
  refine (h.children_nodup p).imp_of_mem ?_
  intro i j hi hj hne
  have hpi : d.Owns p i := owns_iff.mpr (Or.inl hi)
  have hpj : d.Owns p j := owns_iff.mpr (Or.inl hj)
  constructor
  · intro hu
    exact h.not_under_sibling hpi hpj hne hu Under.refl
  · intro hu
    exact h.not_under_sibling hpj hpi hne.symm hu Under.refl

/-- What is below a node is apart from every node that the node is apart from. -/
theorem Apart.of_under (h : d.Apart i j) (hw : d.Sound) (hu : d.Under i c) : d.Apart c j := by
  constructor
  · intro hcj
    exact h.1 (hu.trans hcj)
  · intro hjc
    rcases hw.under_comparable hu hjc with hij | hji
    · exact h.1 hij
    · exact h.2 hji

theorem Apart.symm (h : d.Apart i j) : d.Apart j i := ⟨h.2, h.1⟩

theorem nodup_visit (h : d.Sound) (n : Nat) : ∀ {is : List NodeId}, is.Pairwise d.Apart →
    (d.visit n is).Nodup := by
  induction n with
  | zero => intro is _; exact List.nodup_nil
  | succ n ih =>
    intro is his
    cases is with
    | nil => exact List.nodup_nil
    | cons i rest =>
      rw [List.pairwise_cons] at his
      obtain ⟨hi, hrest⟩ := his
      have hunder : ∀ c ∈ d.children i, d.Under i c := fun c hc =>
        Under.of_owns (owns_iff.mpr (Or.inl hc))
      rw [visit, List.nodup_cons]
      constructor
      · intro hmem
        obtain ⟨k, hk, hki⟩ := exists_hangs_of_mem_visit hmem
        rcases List.mem_append.mp hk with hk | hk
        · exact h.not_under_of_owns (owns_iff.mpr (Or.inl hk)) hki.under
        · exact (hi k hk).2 hki.under
      · apply ih
        rw [List.pairwise_append]
        refine ⟨h.apart_children i, hrest, ?_⟩
        intro c hc k hk
        exact (hi k hk).of_under h (hunder c hc)

theorem nodup_descendants (h : d.Sound) (i : NodeId) : (d.descendants i).Nodup :=
  nodup_visit h _ (h.apart_children i)

/-! ## Upwards -/

theorem hangs_of_above? (h : d.Sound) (k : Nat) : ∀ i, d.above? k i = some a → d.Hangs a i := by
  induction k with
  | zero =>
    intro i hi
    obtain rfl : i = a := Option.some.inj hi
    exact Hangs.refl
  | succ k ih =>
    intro i hi
    obtain ⟨p, hp, hpa⟩ := Option.bind_eq_some_iff.mp hi
    exact (ih p hpa).trans (Hangs.of_mem (h.child_iff.mpr hp))

theorem Hangs.exists_above? (hi : d.Hangs a i) (h : d.Sound) : ∃ k, d.above? k i = some a := by
  induction hi with
  | refl => exact ⟨0, rfl⟩
  | tail _ hc ih =>
    obtain ⟨k, hk⟩ := ih
    refine ⟨k + 1, ?_⟩
    rw [above?, h.child_iff.mp hc]
    exact hk

theorem Sound.rising (h : d.Sound) : d.Rising := by
  intro k i hi
  obtain ⟨p, hp, hpi⟩ := Option.bind_eq_some_iff.mp hi
  have hpi := hangs_of_above? h k p hpi
  exact h.not_under_of_owns (owns_iff.mpr (Or.inl (h.child_iff.mpr hp))) hpi.under

theorem mem_ancestors_iff (h : d.Sound) : a ∈ d.ancestors i ↔ d.Hangs a i := by
  rw [h.rising.mem_ancestors]
  constructor
  · rintro ⟨k, hk⟩
    exact hangs_of_above? h k i hk
  · intro hi
    exact hi.exists_above? h

/-- Neither of two nodes of the page is above the other one, or is it. -/
theorem apart_of_not_mem_ancestors (h : d.Sound) (hr : d.Orphan root) (hi : d.Hangs root i)
    (hj : d.Hangs root j) (hij : i ∉ d.ancestors j) (hji : j ∉ d.ancestors i) : d.Apart i j := by
  constructor
  · intro hu
    exact hij ((mem_ancestors_iff h).mpr (hj.of_under h hr hu))
  · intro hu
    exact hji ((mem_ancestors_iff h).mpr (hi.of_under h hr hu))

/-- A node is connected if it hangs on the root and the root has no parent. -/
theorem hangs_of_isConnected (h : d.Sound) (hc : d.isConnected i = true) :
    d.Hangs root i ∧ d.parent root = none := by
  obtain ⟨⟨k, hk⟩, hp⟩ := h.rising.isConnected_iff.mp hc
  exact ⟨hangs_of_above? h k i hk, hp⟩

end Hypertemplate.Document
