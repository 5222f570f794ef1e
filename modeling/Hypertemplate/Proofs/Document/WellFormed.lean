import Hypertemplate.Proofs.Document.Nodes
import Mathlib.Data.Finset.Card
import Mathlib.Data.Finset.Range
import Mathlib.Logic.Relation

/-!
# Well-formed documents

`Sound` says what every document keeps that is built and changed by the operations of this library: children
and parents agree, a template's content is a fragment that only this template owns, no node is below itself,
and the places that were given back are exactly those that are not live. Only a release asks which places are
pinned, so that places may be pinned that are not live. In a well-formed document (`WellFormed`) all of them
are live.

A node owns its children and, if it is a template, its content. `d.Under a i` says that `i` is `a` or below
it. In a sound document a node has one owner at most, so that the nodes above a node form a chain
(`Sound.under_comparable`) and the nodes below two different children of a node are different
(`Sound.not_under_sibling`).
-/

namespace Hypertemplate.Document

variable {d d' : Document} {a b c i j p q : NodeId}

/-! ## Owners -/

/-- A node owns its children and its template content. -/
def Owns (d : Document) (p c : NodeId) : Prop := c ∈ d.below p

theorem owns_iff : d.Owns p c ↔ c ∈ d.children p ∨ d.content? p = some c := by
  simp [Owns, below]

/-- What a node owns is read off the node alone. -/
theorem owns_congr (h : d'.node p = d.node p) : d'.Owns p c ↔ d.Owns p c := by
  rw [owns_iff, owns_iff, children_eq, children_eq, content?_eq, content?_eq, h]

/-- `i` is `a` or below it, template content included. -/
def Under (d : Document) (a i : NodeId) : Prop := Relation.ReflTransGen d.Owns a i

theorem Under.refl : d.Under a a := Relation.ReflTransGen.refl

theorem Under.trans (h : d.Under a b) (h' : d.Under b c) : d.Under a c :=
  Relation.ReflTransGen.trans h h'

theorem Under.tail (h : d.Under a p) (h' : d.Owns p c) : d.Under a c :=
  Relation.ReflTransGen.tail h h'

theorem Under.of_owns (h : d.Owns p c) : d.Under p c := Relation.ReflTransGen.single h

theorem Under.mono (h : ∀ {q c}, d'.Owns q c → d.Owns q c) (hu : d'.Under a i) : d.Under a i := by
  induction hu with
  | refl => exact Under.refl
  | tail _ hpc ih => exact ih.tail (h hpc)

/-- Of a list that is closed under the links downwards nothing leads away. -/
theorem not_under_of_closed {is : List NodeId} (hclosed : ∀ j ∈ is, ∀ c ∈ d.below j, c ∈ is) (ha : a ∈ is)
    (hi : i ∉ is) : ¬ d.Under a i := by
  intro hu
  refine hi ?_
  clear hi
  induction hu with
  | refl => exact ha
  | tail _ hpc ih => exact hclosed _ ih _ hpc

/-- A node that another one is not below stays apart from all that is below it. -/
theorem ne_of_not_under (h : ¬ d.Under a i) : i ≠ a := by
  rintro rfl
  exact h Under.refl

/-- A live node without owner. -/
structure Orphan (d : Document) (i : NodeId) : Prop where
  live : d.isLive i = true
  unowned : ∀ p, ¬ d.Owns p i

theorem Orphan.eq_of_under (h : d.Orphan i) (hu : d.Under a i) : a = i := by
  rcases Relation.ReflTransGen.cases_tail hu with rfl | ⟨p, -, hp⟩
  · rfl
  · exact absurd hp (h.unowned p)

/-! ## The invariant -/

/-- The places that were given back are listed once each, and they are the places that are not live. -/
structure Accounted (d : Document) : Prop where
  free_nodup : d.free.Nodup
  mem_free_iff : ∀ {i}, i ∈ d.free ↔ i < d.nodes.size ∧ d.isLive i = false

theorem Accounted.congr (h : d.Accounted) (hsize : d'.nodes.size = d.nodes.size) (hfree : d'.free = d.free)
    (hlive : ∀ j, d'.isLive j = d.isLive j) : d'.Accounted where
  free_nodup := by
    rw [hfree]
    exact h.free_nodup
  mem_free_iff := by
    intro i
    rw [hfree, hsize, hlive]
    exact h.mem_free_iff

/-- What the operations of a document keep, whatever places are pinned. -/
structure Sound (d : Document) : Prop where
  child_iff : ∀ {p c}, c ∈ d.children p ↔ d.parent c = some p
  children_nodup : ∀ p, (d.children p).Nodup
  live_of_parent : ∀ {p c}, d.parent c = some p → d.isLive c = true ∧ d.isLive p = true
  parent_of_fragment : ∀ {f}, d.kind f = .fragment → d.parent f = none
  live_of_content : ∀ {i f}, d.content? i = some f → d.isLive f = true
  kind_of_content : ∀ {i f}, d.content? i = some f → d.kind f = .fragment
  content_inj : ∀ {i j f}, d.content? i = some f → d.content? j = some f → i = j
  content_of_template : ∀ {i e}, d.element? i = some e → e.name = "template" → e.content.isSome = true
  acyclic : WellFounded fun c p => d.Owns p c
  vacant : ∀ {i}, d.isLive i = false → d.node i = .vacant
  free_nodup : d.free.Nodup
  mem_free_iff : ∀ {i}, i ∈ d.free ↔ i < d.nodes.size ∧ d.isLive i = false

/-- What the operations of a document keep if only live nodes are pinned. -/
structure WellFormed (d : Document) : Prop extends sound : Sound d where
  pinned_live : ∀ {i}, i ∈ d.pinned → d.isLive i = true

/-- An operation that keeps the pinned nodes keeps them live. -/
theorem WellFormed.of_sound (h : d.WellFormed) (h' : d'.Sound) (hpinned : d'.pinned = d.pinned)
    (hlive : ∀ {i}, i ∈ d.pinned → d.isLive i = true → d'.isLive i = true) : d'.WellFormed where
  sound := h'
  pinned_live := by
    intro i hi
    rw [hpinned] at hi
    exact hlive hi (h.pinned_live hi)

namespace Sound

theorem accounted (h : d.Sound) : d.Accounted := ⟨h.free_nodup, h.mem_free_iff⟩

theorem parent_of_content (h : d.Sound) (hc : d.content? p = some c) : d.parent c = none :=
  h.parent_of_fragment (h.kind_of_content hc)

theorem owns_unique (h : d.Sound) (hp : d.Owns p c) (hq : d.Owns q c) : p = q := by
  rw [owns_iff, h.child_iff] at hp hq
  rcases hp with hp | hp <;> rcases hq with hq | hq
  · rw [hp] at hq
    exact Option.some.inj hq
  · rw [h.parent_of_content hq] at hp
    cases hp
  · rw [h.parent_of_content hp] at hq
    cases hq
  · exact h.content_inj hp hq

theorem owns_of_parent (h : d.Sound) (hp : d.parent c = some p) : d.Owns p c :=
  owns_iff.mpr (Or.inl (h.child_iff.mpr hp))

theorem live_of_owns (h : d.Sound) (hp : d.Owns p c) :
    d.isLive p = true ∧ d.isLive c = true := by
  rw [owns_iff, h.child_iff] at hp
  rcases hp with hp | hp
  · exact (h.live_of_parent hp).symm
  · refine ⟨?_, h.live_of_content hp⟩
    by_contra hl
    rw [content?_eq, h.vacant (by simpa using hl)] at hp
    cases hp

theorem live_of_under (h : d.Sound) (ha : d.isLive a = true) (hu : d.Under a i) :
    d.isLive i = true := by
  rcases Relation.ReflTransGen.cases_tail hu with rfl | ⟨p, -, hp⟩
  · exact ha
  · exact (h.live_of_owns hp).2

/-- Above a live node everything is live. -/
theorem live_of_live_below (h : d.Sound) (hu : d.Under a i) (hi : d.isLive i = true) :
    d.isLive a = true := by
  rcases Relation.ReflTransGen.cases_head hu with rfl | ⟨c, hc, -⟩
  · exact hi
  · exact (h.live_of_owns hc).1

/-- A node without parent that is no fragment has no owner. -/
theorem orphan_of_parent (h : d.Sound) (hl : d.isLive i = true) (hp : d.parent i = none)
    (hk : d.kind i ≠ .fragment) : d.Orphan i := by
  refine ⟨hl, fun p hown => ?_⟩
  rw [owns_iff, h.child_iff, hp] at hown
  rcases hown with hown | hown
  · cases hown
  · exact hk (h.kind_of_content hown)

/-- The document node has no owner if it has no parent. -/
theorem orphan_root (h : d.Sound) (hk : d.kind root = .document) (hp : d.parent root = none) :
    d.Orphan root := by
  apply h.orphan_of_parent _ hp
  · simp [hk]
  · by_contra hl
    rw [kind_eq, h.vacant (by simpa using hl)] at hk
    cases hk

theorem parent_of_orphan (h : d.Sound) (ho : d.Orphan i) : d.parent i = none := by
  cases hp : d.parent i with
  | none => rfl
  | some p => exact absurd (owns_iff.mpr (Or.inl (h.child_iff.mpr hp))) (ho.unowned p)

theorem kind_of_child (h : d.Sound) (hc : c ∈ d.children p) : d.kind c ≠ .fragment := by
  intro hk
  rw [h.child_iff, h.parent_of_fragment hk] at hc
  cases hc

/-! ### Chains of owners -/

/-- Induction over a document: a property holds of a node if it holds of all that the node owns. -/
theorem induction {motive : NodeId → Prop} (h : d.Sound) (i : NodeId)
    (step : ∀ p, (∀ c, d.Owns p c → motive c) → motive p) : motive i :=
  h.acyclic.induction (C := motive) i step

theorem not_transGen_self (h : d.Sound) (i : NodeId) : ¬ Relation.TransGen d.Owns i i := by
  refine h.induction (motive := fun i => ¬ Relation.TransGen d.Owns i i) i fun p ih hcyc => ?_
  obtain ⟨c, hc, hrest⟩ := Relation.TransGen.head'_iff.mp hcyc
  exact ih c hc (Relation.TransGen.tail' hrest hc)

theorem not_under_of_owns (h : d.Sound) (hp : d.Owns p c) : ¬ d.Under c p := fun hu =>
  h.not_transGen_self p (Relation.TransGen.head' hp hu)

theorem ne_of_owns (h : d.Sound) (hp : d.Owns p c) : c ≠ p := by
  rintro rfl
  exact h.not_under_of_owns hp Under.refl

/-- The owner of a node that is properly below `a` is below `a` too. -/
theorem under_owner (h : d.Sound) (hu : d.Under a c) (hne : a ≠ c) (hp : d.Owns p c) :
    d.Under a p := by
  rcases Relation.ReflTransGen.cases_tail hu with he | ⟨q, hq, hqc⟩
  · exact absurd he.symm hne
  · rwa [h.owns_unique hp hqc]

/-- The nodes above a node form a chain. -/
theorem under_comparable (h : d.Sound) (ha : d.Under a i) (hb : d.Under b i) :
    d.Under a b ∨ d.Under b a := by
  induction ha with
  | refl => exact Or.inr hb
  | @tail p i hap hpi ih =>
    by_cases hbi : b = i
    · subst hbi
      exact Or.inl (Under.tail hap hpi)
    · exact ih (h.under_owner hb hbi hpi)

theorem not_under_sibling (h : d.Sound) (hc : d.Owns p c) (hb : d.Owns p b) (hne : c ≠ b)
    (hu : d.Under c j) : ¬ d.Under b j := by
  intro hu'
  rcases h.under_comparable hu hu' with hcb | hbc
  · exact h.not_under_of_owns hc (h.under_owner hcb hne hb)
  · exact h.not_under_of_owns hb (h.under_owner hbc hne.symm hc)

end Sound

/-- What is below a node apart from an orphan is apart from the orphan. -/
theorem Orphan.not_under_of_under (ho : d.Orphan a) (h : d.Sound) (hi : ¬ d.Under a i)
    (hj : d.Under i j) : ¬ d.Under a j := by
  intro hu
  rcases h.under_comparable hu hj with hai | hia
  · exact hi hai
  · exact hi (ho.eq_of_under hia ▸ Under.refl)

/-! ## How many nodes are below a node -/

open Classical in
/-- The number of nodes properly below a node. -/
noncomputable def rank (d : Document) (i : NodeId) : Nat :=
  ((Finset.range d.nodes.size).filter fun j => Relation.TransGen d.Owns i j).card

theorem rank_le_size (d : Document) (i : NodeId) : d.rank i ≤ d.nodes.size := by
  classical
  simpa [rank] using Finset.card_filter_le (Finset.range d.nodes.size)
    fun j => Relation.TransGen d.Owns i j

/-- What a node owns has a smaller rank. -/
theorem Sound.rank_lt (h : d.Sound) (hp : d.Owns p c) : d.rank c < d.rank p := by
  classical
  refine Finset.card_lt_card ⟨?_, fun hsub => ?_⟩
  · intro j hj
    rw [Finset.mem_filter] at hj ⊢
    exact ⟨hj.1, Relation.TransGen.head hp hj.2⟩
  · have hc : c ∈ (Finset.range d.nodes.size).filter fun j => Relation.TransGen d.Owns p j := by
      rw [Finset.mem_filter, Finset.mem_range]
      exact ⟨lt_size_of_isLive (h.live_of_owns hp).2, Relation.TransGen.single hp⟩
    exact h.not_transGen_self c (Finset.mem_filter.mp (hsub hc)).2

/-- Induction over a document together with a bound that is above the rank of a node. -/
theorem Sound.induction_within {motive : Nat → NodeId → Prop} (h : d.Sound)
    (step : ∀ p n, (∀ c, d.Owns p c → motive n c) → motive (n + 1) p) (i : NodeId) :
    ∀ n, d.rank i < n → motive n i := by
  refine h.induction (motive := fun i => ∀ n, d.rank i < n → motive n i) i fun p ih n hn => ?_
  obtain ⟨n, rfl⟩ := Nat.exists_eq_add_one_of_ne_zero (Nat.ne_of_gt (Nat.lt_of_le_of_lt (Nat.zero_le _) hn))
  refine step p n fun c hc => ih c hc n ?_
  have hrank := h.rank_lt hc
  omega

/-- A recursion over what nodes own gives the same with every bound that leaves out no level. -/
theorem Sound.eq_of_rank_le {α : Type} {f : Nat → NodeId → α} (h : d.Sound)
    (hleaf : ∀ p, (∀ c, ¬ d.Owns p c) → ∀ n m, f n p = f m p)
    (hstep : ∀ p n m, (∀ c, d.Owns p c → f n c = f m c) → f (n + 1) p = f (m + 1) p) (i : NodeId) :
    ∀ n m, d.rank i ≤ n → d.rank i ≤ m → f n i = f m i := by
  refine h.induction (motive := fun i => ∀ n m, d.rank i ≤ n → d.rank i ≤ m → f n i = f m i) i ?_
  intro p ih n m hn hm
  by_cases hown : ∃ c, d.Owns p c
  · obtain ⟨c, hc⟩ := hown
    have hpos : 0 < d.rank p := Nat.lt_of_le_of_lt (Nat.zero_le _) (h.rank_lt hc)
    obtain ⟨n, rfl⟩ := Nat.exists_eq_add_one_of_ne_zero (Nat.ne_of_gt (Nat.lt_of_lt_of_le hpos hn))
    obtain ⟨m, rfl⟩ := Nat.exists_eq_add_one_of_ne_zero (Nat.ne_of_gt (Nat.lt_of_lt_of_le hpos hm))
    refine hstep p n m fun c hc => ?_
    have hrank := h.rank_lt hc
    exact ih c hc n m (by omega) (by omega)
  · exact hleaf p (not_exists.mp hown) n m

theorem children_eq_nil_of_not_owns (h : ∀ c, ¬ d.Owns p c) : d.children p = [] :=
  List.eq_nil_iff_forall_not_mem.mpr fun c hc => h c (owns_iff.mpr (Or.inl hc))

/-! ## No cycles -/

/-- New ownership of one node over nodes that it is not below makes no cycle. -/
theorem Sound.acyclic_of_new (h : d.Sound) {new : NodeId → Prop}
    (hown : ∀ q c, d'.Owns q c → d.Owns q c ∨ (q = p ∧ new c))
    (hnew : ∀ c, new c → ¬ d.Under c p) : WellFounded fun c q => d'.Owns q c := by
  -- Nodes that `p` is not below gain nothing, so they are accessible as before.
  have low : ∀ x, ¬ d.Under x p → Acc (fun c q => d'.Owns q c) x := by
    intro x
    refine h.induction
      (motive := fun x => ¬ d.Under x p → Acc (fun c q => d'.Owns q c) x) x fun q ih hq => ?_
    refine Acc.intro q fun c hc => ?_
    rcases hown q c hc with hqc | ⟨rfl, -⟩
    · exact ih c hqc fun hu => hq ((Under.of_owns hqc).trans hu)
    · exact absurd Under.refl hq
  refine ⟨fun x => h.induction (motive := Acc fun c q => d'.Owns q c) x fun q ih => ?_⟩
  refine Acc.intro q fun c hc => ?_
  rcases hown q c hc with hqc | ⟨-, hn⟩
  · exact ih c hqc
  · exact low c (hnew c hn)

/-! ## Comparing two documents -/

/-- What is below a node is the same in a document that agrees on what those nodes own. -/
theorem under_congr (h : ∀ j, d.Under a j → d'.below j = d.below j) :
    d'.Under a i ↔ d.Under a i := by
  constructor
  · intro hu
    induction hu with
    | refl => exact Under.refl
    | tail _ hpc ih =>
      rw [Owns, h _ ih] at hpc
      exact ih.tail hpc
  · intro hu
    induction hu with
    | refl => exact Under.refl
    | tail hap hpc ih => exact ih.tail (by rwa [Owns, h _ hap])

/-- Going up from a node of a set that is closed under the owners of `d'` stays in the set, and is a way up
in `d`. -/
theorem under_of_closed {s : NodeId → Prop} (hs : ∀ j, s j → ∀ p, d'.Owns p j → s p ∧ d.Owns p j)
    (hi : s i) (hu : d'.Under a i) : s a ∧ d.Under a i := by
  induction hu with
  | refl => exact ⟨hi, Under.refl⟩
  | tail _ hpc ih =>
    obtain ⟨hp, hown⟩ := hs _ hi _ hpc
    obtain ⟨ha, hu⟩ := ih hp
    exact ⟨ha, hu.tail hown⟩

theorem rank_congr (h : d.Sound) (h' : d'.Sound)
    (heq : ∀ j, d.Under a j → d'.below j = d.below j) : d'.rank a = d.rank a := by
  classical
  unfold rank
  congr 1
  ext j
  have key : Relation.TransGen d'.Owns a j ↔ Relation.TransGen d.Owns a j := by
    rw [Relation.TransGen.tail'_iff, Relation.TransGen.tail'_iff]
    refine exists_congr fun p => ?_
    have hu := under_congr (i := p) heq
    constructor
    · rintro ⟨hap, hpj⟩
      have hap' := hu.mp hap
      exact ⟨hap', by rwa [Owns, heq _ hap'] at hpj⟩
    · rintro ⟨hap, hpj⟩
      exact ⟨hu.mpr hap, by rwa [Owns, heq _ hap]⟩
  have hlt : ∀ {e : Document}, e.Sound → Relation.TransGen e.Owns a j → j < e.nodes.size := by
    intro e he hj
    obtain ⟨p, -, hpj⟩ := Relation.TransGen.tail'_iff.mp hj
    exact lt_size_of_isLive (he.live_of_owns hpj).2
  simp only [Finset.mem_filter, Finset.mem_range]
  exact ⟨fun hj => ⟨hlt h (key.mp hj.2), key.mp hj.2⟩, fun hj => ⟨hlt h' (key.mpr hj.2), key.mpr hj.2⟩⟩

end Hypertemplate.Document
