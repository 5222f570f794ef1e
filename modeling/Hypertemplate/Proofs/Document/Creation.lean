import Hypertemplate.Proofs.Document.WellFormed

/-!
# New nodes

A new node takes a place that is not live and changes nothing else. `Extends d d'` says that the live nodes
of `d` are still there with their labels, links and owners, and `Made d i d'` that besides this `i` is a new
node without owner, the only new one. Both hold of every operation that only makes nodes.
-/

namespace Hypertemplate.Document

variable {d d' : Document} {i j q c : NodeId}

/-! ## One new node -/

/-- A kind that a new node may have: a template's content is a live fragment that nothing owns. -/
structure Allocatable (d : Document) (k : Kind) : Prop where
  content : ∀ f, contentOf? k = some f → d.Orphan f ∧ d.kind f = .fragment
  template : ∀ e, k = .element e → e.name = "template" → e.content.isSome = true

theorem allocatable_of_contentOf? {k : Kind} (hk : contentOf? k = none)
    (ht : ∀ e, k = .element e → e.name ≠ "template") : d.Allocatable k where
  content := by simp [hk]
  template := fun e he hn => absurd hn (ht e he)

theorem free_lt_size (h : d.Accounted) : ∀ i ∈ d.free, i < d.nodes.size := fun _ hi =>
  (h.mem_free_iff.mp hi).1

/-- The place of a new node was not live. -/
theorem isLive_allocate_eq_false (h : d.Accounted) (k : Kind) :
    d.isLive (d.allocate k).1 = false := by
  unfold allocate
  split
  · next i rest hf => exact (h.mem_free_iff.mp (by simp [hf])).2
  · rw [isLive_eq, node_of_size_le (Nat.le_refl _)]
    rfl

/-- What a new node does to a document. -/
structure Allocated (d : Document) (k : Kind) (i : NodeId) (d' : Document) : Prop where
  fresh : d.isLive i = false
  node_eq : ∀ j, d'.node j = if j = i then { kind := k } else d.node j
  pinned_eq : d'.pinned = d.pinned

theorem allocated_allocate (h : d.Accounted) (k : Kind) :
    Allocated d k (d.allocate k).1 (d.allocate k).2 where
  fresh := isLive_allocate_eq_false h k
  node_eq := node_allocate d k (free_lt_size h)
  pinned_eq := pinned_allocate d k

namespace Allocated

variable {k : Kind}

theorem node_self (a : Allocated d k i d') : d'.node i = { kind := k } := by simp [a.node_eq]

theorem node_ne (a : Allocated d k i d') (hj : j ≠ i) : d'.node j = d.node j := by
  simp [a.node_eq, hj]

theorem ne_of_isLive (a : Allocated d k i d') (hj : d.isLive j = true) : j ≠ i := by
  rintro rfl
  rw [a.fresh] at hj
  cases hj

theorem isLive_self (a : Allocated d k i d') : d'.isLive i = true := by
  simp [isLive_eq, a.node_self]

theorem children_self (a : Allocated d k i d') : d'.children i = [] := by
  simp [children_eq, a.node_self]

theorem kind_self (a : Allocated d k i d') : d'.kind i = k := by simp [kind_eq, a.node_self]

theorem content?_self (a : Allocated d k i d') : d'.content? i = contentOf? k := by
  simp [content?_eq, a.node_self]

theorem parent_self (a : Allocated d k i d') : d'.parent i = none := by
  simp [parent_eq, a.node_self]

theorem owns_iff_of_ne (a : Allocated d k i d') (hq : q ≠ i) : d'.Owns q c ↔ d.Owns q c :=
  owns_congr (a.node_ne hq)

theorem owns_self_iff (a : Allocated d k i d') : d'.Owns i c ↔ contentOf? k = some c := by
  rw [owns_iff, a.children_self, a.content?_self]
  simp

/-- Only the content of the new node has a new owner. -/
theorem owns_cases (a : Allocated d k i d') (hq : d'.Owns q c) :
    d.Owns q c ∨ (q = i ∧ contentOf? k = some c) := by
  by_cases hqi : q = i
  · subst hqi
    exact Or.inr ⟨rfl, a.owns_self_iff.mp hq⟩
  · exact Or.inl ((a.owns_iff_of_ne hqi).mp hq)

theorem isLive_iff (a : Allocated d k i d') : d'.isLive j = true ↔ j = i ∨ d.isLive j = true := by
  rw [isLive_eq, a.node_eq]
  split <;> simp_all [isLive_eq]

/-- The new place had no links, so no links changed. -/
theorem parent_eq (a : Allocated d k i d') (h : d.Sound) (j : NodeId) :
    d'.parent j = d.parent j := by
  by_cases hj : j = i
  · subst hj
    rw [a.parent_self, Document.parent_eq, h.vacant a.fresh]
    rfl
  · rw [Document.parent_eq, Document.parent_eq, a.node_ne hj]

theorem children_eq (a : Allocated d k i d') (h : d.Sound) (j : NodeId) :
    d'.children j = d.children j := by
  by_cases hj : j = i
  · subst hj
    rw [a.children_self, Document.children_eq, h.vacant a.fresh]
    rfl
  · rw [Document.children_eq, Document.children_eq, a.node_ne hj]

theorem content_cases (a : Allocated d k i d') {f : NodeId} (hf : d'.content? j = some f) :
    (j = i ∧ contentOf? k = some f) ∨ (j ≠ i ∧ d.content? j = some f) := by
  by_cases hj : j = i
  · subst hj
    exact Or.inl ⟨rfl, by rwa [a.content?_self] at hf⟩
  · exact Or.inr ⟨hj, by rwa [content?_eq, a.node_ne hj, ← content?_eq] at hf⟩

theorem kind_of_isLive (a : Allocated d k i d') (hj : d.isLive j = true) : d'.kind j = d.kind j := by
  rw [kind_eq, kind_eq, a.node_ne (a.ne_of_isLive hj)]

theorem orphan_self (a : Allocated d k i d') (h : d.Sound) (hk : d.Allocatable k) :
    d'.Orphan i := by
  refine ⟨a.isLive_self, fun q hq => ?_⟩
  rcases a.owns_cases hq with hq | ⟨-, hc⟩
  · exact a.ne_of_isLive (h.live_of_owns hq).2 rfl
  · exact a.ne_of_isLive (hk.content i hc).1.live rfl

end Allocated

theorem free_allocate (h : d.Accounted) (k : Kind) :
    (d.allocate k).2.free.Nodup ∧
      ∀ j, j ∈ (d.allocate k).2.free ↔ j ∈ d.free ∧ j ≠ (d.allocate k).1 := by
  have hnd := h.free_nodup
  unfold allocate
  cases hf : d.free with
  | cons i rest =>
    rw [hf, List.nodup_cons] at hnd
    refine ⟨hnd.2, fun j => ?_⟩
    change j ∈ rest ↔ j ∈ i :: rest ∧ j ≠ i
    rw [List.mem_cons]
    constructor
    · intro hj
      exact ⟨Or.inr hj, fun he => hnd.1 (he ▸ hj)⟩
    · rintro ⟨rfl | hj, hne⟩
      · exact absurd rfl hne
      · exact hj
  | nil => simp

theorem size_allocate (d : Document) (k : Kind) :
    d.nodes.size ≤ (d.allocate k).2.nodes.size ∧ ∀ j, j ≠ (d.allocate k).1 →
      (j < (d.allocate k).2.nodes.size ↔ j < d.nodes.size) := by
  unfold allocate
  split
  · simp [setNode]
  · constructor
    · simp
    · intro j hj
      have hne : j ≠ d.nodes.size := hj
      change j < (d.nodes.push _).size ↔ j < d.nodes.size
      rw [Array.size_push]
      exact ⟨fun hlt => Nat.lt_of_le_of_ne (Nat.le_of_lt_succ hlt) hne, Nat.lt_succ_of_lt⟩

/-- A new node takes its place off the list. -/
theorem Accounted.allocate (h : d.Accounted) (k : Kind) : (d.allocate k).2.Accounted := by
  have a := allocated_allocate h k
  have hfree := free_allocate h k
  refine ⟨hfree.1, fun {j} => ?_⟩
  rw [hfree.2, h.mem_free_iff]
  by_cases hj : j = (d.allocate k).1
  · simp [hj, a.isLive_self]
  · rw [(size_allocate d k).2 j hj, isLive_eq, isLive_eq, a.node_ne hj]
    simp [hj]

/-- A new node keeps a document sound. -/
theorem Sound.allocate (h : d.Sound) {k : Kind} (hk : d.Allocatable k) :
    (d.allocate k).2.Sound := by
  have a := allocated_allocate h.accounted k
  have haccounted := h.accounted.allocate k
  generalize (d.allocate k).1 = i at a
  generalize (d.allocate k).2 = d' at a haccounted
  have hold : ∀ {j}, d.isLive j = true → d'.isLive j = true := fun hj => a.isLive_iff.mpr (Or.inr hj)
  constructor
  case child_iff => intro p c; rw [a.children_eq h, a.parent_eq h, h.child_iff]
  case children_nodup => intro p; rw [a.children_eq h]; exact h.children_nodup p
  case live_of_parent =>
    intro p c hc
    rw [a.parent_eq h] at hc
    exact ⟨hold (h.live_of_parent hc).1, hold (h.live_of_parent hc).2⟩
  case parent_of_fragment =>
    intro f hf
    by_cases hfi : f = i
    · rw [hfi, a.parent_self]
    · rw [kind_eq, a.node_ne hfi] at hf
      rw [a.parent_eq h]
      exact h.parent_of_fragment hf
  case live_of_content =>
    intro j f hf
    rcases a.content_cases hf with ⟨-, hf⟩ | ⟨-, hf⟩
    · exact hold (hk.content f hf).1.live
    · exact hold (h.live_of_content hf)
  case kind_of_content =>
    intro j f hf
    rcases a.content_cases hf with ⟨-, hf⟩ | ⟨-, hf⟩
    · rw [a.kind_of_isLive (hk.content f hf).1.live, (hk.content f hf).2]
    · rw [a.kind_of_isLive (h.live_of_content hf), h.kind_of_content hf]
  case content_inj =>
    intro j j' f hf hf'
    rcases a.content_cases hf with ⟨rfl, hf⟩ | ⟨-, hf⟩ <;>
      rcases a.content_cases hf' with ⟨rfl, hf'⟩ | ⟨-, hf'⟩
    · rfl
    · exact absurd (owns_iff.mpr (Or.inr hf')) ((hk.content f hf).1.unowned j')
    · exact absurd (owns_iff.mpr (Or.inr hf)) ((hk.content f hf').1.unowned j)
    · exact h.content_inj hf hf'
  case content_of_template =>
    intro j e he hn
    rw [element?_eq_some_iff] at he
    by_cases hj : j = i
    · rw [hj, a.node_self] at he
      exact hk.template e he hn
    · rw [a.node_ne hj, ← element?_eq_some_iff] at he
      exact h.content_of_template he hn
  case acyclic =>
    refine h.acyclic_of_new (fun q c => a.owns_cases) fun c hc hu => ?_
    have := h.live_of_under (hk.content c hc).1.live hu
    rw [a.fresh] at this
    cases this
  case vacant =>
    intro j hj
    have hji : j ≠ i := by
      rintro rfl
      rw [a.isLive_self] at hj
      cases hj
    rw [a.node_ne hji]
    exact h.vacant (by rwa [isLive_eq, a.node_ne hji, ← isLive_eq] at hj)
  case free_nodup => exact haccounted.free_nodup
  case mem_free_iff => exact haccounted.mem_free_iff

/-! ## Documents that extend others -/

/-- The live nodes of `d` are in `d'` as they were, and no node took one of them over. -/
structure Extends (d d' : Document) : Prop where
  node_eq : ∀ {j}, d.isLive j = true → d'.node j = d.node j
  owner : ∀ {q j}, d.isLive j = true → d'.Owns q j → d.Owns q j
  pinned_eq : d'.pinned = d.pinned

namespace Extends

theorem refl (d : Document) : Extends d d := ⟨fun _ => rfl, fun _ h => h, rfl⟩

theorem isLive (e : Extends d d') (hj : d.isLive j = true) : d'.isLive j = true := by
  rw [isLive_eq, e.node_eq hj]
  exact hj

theorem below_eq (e : Extends d d') (hj : d.isLive j = true) : d'.below j = d.below j := by
  rw [below, below, children_eq, children_eq, content?_eq, content?_eq, e.node_eq hj]

theorem owns_iff (e : Extends d d') (h : d.Sound) (hj : d.isLive j = true) :
    d'.Owns q j ↔ d.Owns q j := by
  refine ⟨e.owner hj, fun hq => ?_⟩
  rwa [Owns, e.below_eq (h.live_of_owns hq).1]

/-- What is above an old node is what was above it. -/
theorem under (e : Extends d d') (h : d.Sound) (hj : d.isLive j = true)
    (hu : d'.Under i j) : d.isLive i = true ∧ d.Under i j :=
  under_of_closed (s := fun x => d.isLive x = true)
    (fun _ hx _ hp => ⟨(h.live_of_owns (e.owner hx hp)).1, e.owner hx hp⟩) hj hu

theorem under_iff (e : Extends d d') (h : d.Sound) (hi : d.isLive i = true) :
    d'.Under i j ↔ d.Under i j :=
  under_congr fun _ hu => e.below_eq (h.live_of_under hi hu)

theorem orphan_iff (e : Extends d d') (h : d.Sound) (hj : d.isLive j = true) :
    d'.Orphan j ↔ d.Orphan j :=
  ⟨fun o => ⟨hj, fun p hp => o.unowned p ((e.owns_iff h hj).mpr hp)⟩,
    fun o => ⟨e.isLive hj, fun p hp => o.unowned p (e.owner hj hp)⟩⟩

end Extends

/-- A node that a change of `d` may leave without owner: one that had none, the root, or a pinned node. -/
def Held (d : Document) (j : NodeId) : Prop := d.Orphan j ∨ j = root ∨ j ∈ d.pinned

theorem Held.of_change (h : d'.Held j) (hp : d'.pinned = d.pinned)
    (ho : d'.Orphan j → d.Held j) : d.Held j := by
  rcases h with h | h | h
  · exact ho h
  · exact Or.inr (Or.inl h)
  · exact Or.inr (Or.inr (hp ▸ h))

/-- `d'` has one new node without owner more than `d`, with what is below it. -/
structure Made (d : Document) (i : NodeId) (d' : Document) : Prop where
  sound : d'.Sound
  ext : Extends d d'
  fresh : d.isLive i = false
  orphan : d'.Orphan i
  orphan_cases : ∀ {j}, d'.Orphan j → j = i ∨ d.Held j

theorem Made.wellFormed (m : Made d i d') (h : d.WellFormed) : d'.WellFormed :=
  h.of_sound m.sound m.ext.pinned_eq fun _ hj => m.ext.isLive hj

/-- A new node does not come to stand above an old one. -/
theorem Made.not_under (m : Made d i d') (h : d.Sound) (hj : d.isLive j = true) :
    ¬ d'.Under i j := by
  intro hu
  have hi := (m.ext.under h hj hu).1
  rw [m.fresh] at hi
  cases hi

theorem Made.ne (m : Made d i d') (hj : d.isLive j = true) : j ≠ i := by
  rintro rfl
  rw [m.fresh] at hj
  cases hj

/-- A new node whose content, if it has any, is new too. -/
theorem Extends.allocated {d₀ : Document} {k : Kind} (e : Extends d₀ d) (a : Allocated d k i d')
    (hk : ∀ f, contentOf? k = some f → d₀.isLive f = false) : Extends d₀ d' where
  node_eq hj := (a.node_ne (a.ne_of_isLive (e.isLive hj))).trans (e.node_eq hj)
  owner := by
    intro q j hj hq
    rcases a.owns_cases hq with hq | ⟨-, hc⟩
    · exact e.owner hj hq
    · rw [hk j hc] at hj
      cases hj
  pinned_eq := a.pinned_eq.trans e.pinned_eq

/-- The nodes without owner after a new node: the node itself, and those whose owner it did not become. -/
theorem Allocated.orphan_cases {k : Kind} (a : Allocated d k i d') (h : d.Sound)
    (ho : d'.Orphan j) : j = i ∨ (d.Orphan j ∧ contentOf? k ≠ some j) := by
  by_cases hj : j = i
  · exact Or.inl hj
  · refine Or.inr ⟨⟨?_, fun q hq => ?_⟩, fun hc => ho.unowned i (a.owns_self_iff.mpr hc)⟩
    · rw [isLive_eq, ← a.node_ne hj]
      exact ho.live
    · exact ho.unowned q ((a.owns_iff_of_ne (a.ne_of_isLive (h.live_of_owns hq).1)).mpr hq)

/-- A kind without content that is no template. -/
theorem made_allocate (h : d.Sound) {k : Kind} (hk : contentOf? k = none)
    (ht : ∀ e, k = .element e → e.name ≠ "template") :
    Made d (d.allocate k).1 (d.allocate k).2 := by
  have a := allocated_allocate h.accounted k
  have hall := allocatable_of_contentOf? (d := d) hk ht
  exact
    { sound := h.allocate hall
      ext := (Extends.refl d).allocated a (by simp [hk])
      fresh := a.fresh
      orphan := a.orphan_self h hall
      orphan_cases := fun ho => (a.orphan_cases h ho).imp_right fun ho => Or.inl ho.1 }

theorem made_createText (h : d.Sound) (t : String) :
    Made d (d.createText t).1 (d.createText t).2 :=
  made_allocate h rfl (by simp)

theorem made_createComment (h : d.Sound) (t : String) :
    Made d (d.createComment t).1 (d.createComment t).2 :=
  made_allocate h rfl (by simp)

theorem made_createFragment (h : d.Sound) : Made d d.createFragment.1 d.createFragment.2 :=
  made_allocate h rfl (by simp)

/-! ## New elements -/

/-- A template is made with its content, which comes first. -/
theorem createElement_template {name : String} (hn : name.map Char.toLower = "template") :
    d.createElement name = d.createFragment.2.allocate
      (.element { name := "template", content := some d.createFragment.1 }) := by
  simp [createElement, hn]

theorem createElement_other {name : String} (hn : name.map Char.toLower ≠ "template") :
    d.createElement name = d.allocate (.element { name := name.map Char.toLower }) := by
  simp [createElement, hn]

/-- A node that was just made without owner becomes the content of a new one. -/
theorem Made.allocate_content (m : Made d c d') (hc : d'.kind c = .fragment)
    {e : ElementData} (he : e.content = some c) :
    Made d (d'.allocate (.element e)).1 (d'.allocate (.element e)).2 := by
  have a := allocated_allocate m.sound.accounted (.element e)
  have hall : d'.Allocatable (.element e) :=
    { content := by
        intro f hf
        obtain rfl : c = f := Option.some.inj (he.symm.trans hf)
        exact ⟨m.orphan, hc⟩
      template := by
        rintro _ ⟨⟩ -
        simp [he] }
  have hnew : ∀ f, contentOf? (.element e) = some f → d.isLive f = false := by
    intro f hf
    obtain rfl : c = f := Option.some.inj (he.symm.trans hf)
    exact m.fresh
  refine
    { sound := m.sound.allocate hall
      ext := m.ext.allocated a hnew
      fresh := ?_
      orphan := a.orphan_self m.sound hall
      orphan_cases := ?_ }
  · by_contra hl
    have := m.ext.isLive (by simpa using hl)
    rw [a.fresh] at this
    cases this
  · intro j ho
    rcases a.orphan_cases m.sound ho with hj | ⟨ho, hne⟩
    · exact Or.inl hj
    · rcases m.orphan_cases ho with rfl | ho
      · exact absurd he hne
      · exact Or.inr ho

theorem made_createElement (h : d.Sound) (name : String) :
    Made d (d.createElement name).1 (d.createElement name).2 := by
  by_cases hn : name.map Char.toLower = "template"
  · have m := made_createFragment h
    have hk : d.createFragment.2.kind d.createFragment.1 = .fragment :=
      (allocated_allocate h.accounted .fragment).kind_self
    rw [createElement_template hn]
    exact m.allocate_content hk rfl
  · rw [createElement_other hn]
    refine made_allocate h rfl ?_
    rintro _ ⟨⟩
    exact hn

/-- A new element has the small letters of the name, and no attributes, parent or children. -/
theorem node_createElement (h : d.Sound) (name : String) :
    ∃ content, (d.createElement name).2.node (d.createElement name).1 =
      { kind := .element { name := name.map Char.toLower, content } } ∧
      (name.map Char.toLower ≠ "template" → content = none) := by
  by_cases hn : name.map Char.toLower = "template"
  · have m := made_createFragment h
    rw [createElement_template hn]
    exact ⟨_, by rw [(allocated_allocate m.sound.accounted _).node_self, hn], fun hne => absurd hn hne⟩
  · rw [createElement_other hn]
    exact ⟨_, (allocated_allocate h.accounted _).node_self, fun _ => rfl⟩

end Hypertemplate.Document
