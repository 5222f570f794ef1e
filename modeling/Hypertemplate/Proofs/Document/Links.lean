import Hypertemplate.Proofs.Document.WellFormed

/-!
# Keeping a document sound

Apart from new nodes and released ones, a document changes in two ways: the labels of nodes change while
all links stay (`Relabelled`), or neighbouring children of one node are exchanged for orphans that the node
is not below (`Spliced`). Both keep a document sound. Detaching, clearing, appending and replacing
are exchanges.
-/

namespace Hypertemplate

/-- What is left of a kind without texts, attributes and entered values. -/
def Kind.shape : Kind → Kind
  | .element e => .element { name := e.name, content := e.content }
  | .text _ => .text ""
  | .comment _ => .comment ""
  | k => k

namespace Document

variable {d d' : Document} {i j p q c : NodeId}

/-! ## Changes of labels -/

theorem contentOf?_of_shape {k k' : Kind} (h : k.shape = k'.shape) : contentOf? k = contentOf? k' := by
  cases k <;> cases k' <;> simp_all [Kind.shape, contentOf?]

theorem eq_fragment_of_shape {k k' : Kind} (h : k.shape = k'.shape) (hk : k = .fragment) :
    k' = .fragment := by
  subst hk
  cases k' <;> simp_all [Kind.shape]

/-- An element keeps its name. -/
theorem exists_element_of_shape {k : Kind} {e : ElementData} (h : (Kind.element e).shape = k.shape) :
    ∃ e', k = .element e' ∧ e'.name = e.name ∧ e'.content = e.content := by
  cases k <;> simp_all [Kind.shape]

/-- Every node keeps its links and the shape of its kind. -/
structure Relabelled (d d' : Document) : Prop extends SameFrame d d' where
  node_eq : ∀ j, ∃ k, k.shape = (d.node j).kind.shape ∧ d'.node j = { d.node j with kind := k }

theorem relabelled_modifyNode {f : Node → Node}
    (hf : ∀ n, ∃ k, k.shape = n.kind.shape ∧ f n = { n with kind := k }) :
    Relabelled d (d.modifyNode i f) where
  toSameFrame := sameFrame_modifyNode d i f
  node_eq := by
    intro j
    have hv : f .vacant = .vacant := by
      obtain ⟨k, hk, he⟩ := hf .vacant
      rw [he, eq_fragment_of_shape hk.symm rfl]
      rfl
    rw [node_modifyNode (Or.inr hv)]
    split
    · next hj => subst hj; exact hf _
    · exact ⟨_, rfl, rfl⟩

namespace Relabelled

theorem isLive_eq (r : Relabelled d d') (j : NodeId) : d'.isLive j = d.isLive j := by
  obtain ⟨k, -, he⟩ := r.node_eq j
  simp [Document.isLive, he]

theorem parent_eq (r : Relabelled d d') (j : NodeId) : d'.parent j = d.parent j := by
  obtain ⟨k, -, he⟩ := r.node_eq j
  simp [Document.parent, he]

theorem children_eq (r : Relabelled d d') (j : NodeId) : d'.children j = d.children j := by
  obtain ⟨k, -, he⟩ := r.node_eq j
  simp [Document.children, he]

theorem shape_eq (r : Relabelled d d') (j : NodeId) : (d'.kind j).shape = (d.kind j).shape := by
  obtain ⟨k, hk, he⟩ := r.node_eq j
  simp [Document.kind, he, hk]

theorem content?_eq (r : Relabelled d d') (j : NodeId) : d'.content? j = d.content? j := by
  rw [Document.content?_eq, Document.content?_eq]
  exact contentOf?_of_shape (r.shape_eq j)

theorem owns_iff (r : Relabelled d d') : d'.Owns p c ↔ d.Owns p c := by
  rw [Document.owns_iff, Document.owns_iff, r.children_eq, r.content?_eq]

theorem sound (r : Relabelled d d') (h : d.Sound) : d'.Sound := by
  constructor
  case child_iff => intro p c; rw [r.children_eq, r.parent_eq, h.child_iff]
  case children_nodup => intro p; rw [r.children_eq]; exact h.children_nodup p
  case live_of_parent =>
    intro p c hc
    rw [r.parent_eq] at hc
    rw [r.isLive_eq, r.isLive_eq]
    exact h.live_of_parent hc
  case parent_of_fragment =>
    intro f hf
    rw [r.parent_eq]
    exact h.parent_of_fragment (eq_fragment_of_shape (r.shape_eq f) hf)
  case live_of_content =>
    intro i f hf
    rw [r.content?_eq] at hf
    rw [r.isLive_eq]
    exact h.live_of_content hf
  case kind_of_content =>
    intro i f hf
    rw [r.content?_eq] at hf
    exact eq_fragment_of_shape (r.shape_eq f).symm (h.kind_of_content hf)
  case content_inj =>
    intro i j f hi hj
    rw [r.content?_eq] at hi hj
    exact h.content_inj hi hj
  case content_of_template =>
    intro i e he hn
    rw [element?_eq_some_iff] at he
    have hshape := r.shape_eq i
    rw [kind_eq, he] at hshape
    obtain ⟨e', he', hname, hcontent⟩ := exists_element_of_shape hshape
    rw [← hcontent]
    exact h.content_of_template (element?_eq_some_iff.mpr he') (hname.trans hn)
  case acyclic => exact Subrelation.wf (fun hc => r.owns_iff.mp hc) h.acyclic
  case vacant =>
    intro i hi
    rw [r.isLive_eq] at hi
    obtain ⟨k, hk, he⟩ := r.node_eq i
    rw [h.vacant hi] at he hk
    rw [he, eq_fragment_of_shape hk.symm rfl]
    rfl
  case free_nodup => rw [r.free_eq]; exact h.free_nodup
  case mem_free_iff => intro i; rw [r.free_eq, r.size_eq, r.isLive_eq, h.mem_free_iff]

theorem wellFormed (r : Relabelled d d') (h : d.WellFormed) : d'.WellFormed :=
  h.of_sound (r.sound h.sound) r.pinned_eq fun _ hl => (r.isLive_eq _).trans hl

theorem orphan_iff (r : Relabelled d d') : d'.Orphan i ↔ d.Orphan i := by
  constructor
  · exact fun o => ⟨by rw [← r.isLive_eq]; exact o.live, fun p hp => o.unowned p (r.owns_iff.mpr hp)⟩
  · exact fun o => ⟨by rw [r.isLive_eq]; exact o.live, fun p hp => o.unowned p (r.owns_iff.mp hp)⟩

end Relabelled

theorem relabelled_modifyElement (f : ElementData → ElementData)
    (hf : ∀ e, (f e).name = e.name ∧ (f e).content = e.content) :
    Relabelled d (d.modifyElement i f) := by
  refine relabelled_modifyNode fun n => ?_
  obtain ⟨k, parent, children, live⟩ := n
  cases k with
  | element e => exact ⟨.element (f e), by simp [Kind.shape, hf], rfl⟩
  | _ => exact ⟨_, rfl, rfl⟩

theorem relabelled_setText (t : String) : Relabelled d (d.setText i t) := by
  refine relabelled_modifyNode fun n => ?_
  obtain ⟨k, parent, children, live⟩ := n
  cases k with
  | text s => exact ⟨.text t, rfl, rfl⟩
  | _ => exact ⟨_, rfl, rfl⟩

theorem relabelled_setAttribute (name value : String) :
    Relabelled d (d.setAttribute i name value) :=
  relabelled_modifyElement _ fun _ => ⟨rfl, rfl⟩

theorem relabelled_removeAttribute (name : String) : Relabelled d (d.removeAttribute i name) :=
  relabelled_modifyElement _ fun _ => ⟨rfl, rfl⟩

theorem relabelled_setValue (value : String) : Relabelled d (d.setValue i value) := by
  refine relabelled_modifyElement _ fun e => ?_
  split <;> exact ⟨rfl, rfl⟩

/-! ## Exchanges of children -/

/-- The children `out` of `p`, next to each other, were exchanged for `new`. -/
structure Spliced (d : Document) (p : NodeId) (before out new after : List NodeId)
    (d' : Document) : Prop extends SameFrame d d' where
  children_before : d.children p = before ++ out ++ after
  node_eq : ∀ j, d'.node j = { d.node j with
    parent := if j ∈ new then some p else if j ∈ out then none else d.parent j
    children := if j = p then before ++ new ++ after else d.children j }

/-- Nodes that can be put below a node: different orphans that the node is not below. -/
structure Fits (d : Document) (p : NodeId) (new : List NodeId) : Prop where
  nodup : new.Nodup
  orphan : ∀ c ∈ new, d.Orphan c
  kind_ne : ∀ c ∈ new, d.kind c ≠ .fragment
  not_under : ∀ c ∈ new, ¬ d.Under c p

theorem fits_nil : d.Fits p [] := ⟨List.nodup_nil, by simp, by simp, by simp⟩

theorem Fits.not_mem_children {new : List NodeId} (f : d.Fits p new) (hc : c ∈ new) (q : NodeId) :
    c ∉ d.children q := fun hq => (f.orphan c hc).unowned q (owns_iff.mpr (Or.inl hq))

namespace Spliced

variable {before out new after : List NodeId}

theorem isLive_eq (s : Spliced d p before out new after d') (j : NodeId) :
    d'.isLive j = d.isLive j := by
  simp [Document.isLive, s.node_eq]

theorem kind_eq (s : Spliced d p before out new after d') (j : NodeId) : d'.kind j = d.kind j := by
  simp [Document.kind, s.node_eq]

theorem content?_eq (s : Spliced d p before out new after d') (j : NodeId) :
    d'.content? j = d.content? j := by
  rw [Document.content?_eq, Document.content?_eq, s.node_eq]

theorem children_self (s : Spliced d p before out new after d') :
    d'.children p = before ++ new ++ after := by
  simp [Document.children, s.node_eq]

theorem children_ne (s : Spliced d p before out new after d') (hj : j ≠ p) :
    d'.children j = d.children j := by
  simp [Document.children, s.node_eq, hj]

theorem parent_eq (s : Spliced d p before out new after d') (j : NodeId) :
    d'.parent j = if j ∈ new then some p else if j ∈ out then none else d.parent j := by
  simp [Document.parent, s.node_eq]

/-- Nodes apart from the exchange keep their links. -/
theorem node_eq_of_ne (s : Spliced d p before out new after d') (hp : j ≠ p) (hout : j ∉ out)
    (hnew : j ∉ new) : d'.node j = d.node j := by
  rw [s.node_eq]
  simp [hp, hout, hnew, Document.parent, Document.children]

theorem mem_before_out_after (s : Spliced d p before out new after d') :
    c ∈ d.children p ↔ c ∈ before ∨ c ∈ out ∨ c ∈ after := by
  rw [s.children_before]
  simp

theorem not_mem_of_mem_out (s : Spliced d p before out new after d') (h : d.Sound)
    (hc : c ∈ out) : c ∉ before ∧ c ∉ after := by
  have hnd := h.children_nodup p
  rw [s.children_before, List.nodup_append, List.nodup_append] at hnd
  obtain ⟨⟨-, -, hbo⟩, -, hoa⟩ := hnd
  exact ⟨fun hb => hbo c hb c hc rfl, fun ha => hoa c (by simp [hc]) c ha rfl⟩

/-- Who is whose child afterwards. -/
theorem mem_children_iff (s : Spliced d p before out new after d') (h : d.Sound) :
    c ∈ d'.children q ↔ (c ∈ d.children q ∧ ¬ (q = p ∧ c ∈ out)) ∨ (q = p ∧ c ∈ new) := by
  by_cases hq : q = p
  · subst hq
    rw [s.children_self, s.mem_before_out_after]
    have hout := s.not_mem_of_mem_out h (c := c)
    simp only [List.mem_append, true_and]
    constructor
    · rintro ((hb | hn) | ha)
      · exact Or.inl ⟨Or.inl hb, fun ho => (hout ho).1 hb⟩
      · exact Or.inr hn
      · exact Or.inl ⟨Or.inr (Or.inr ha), fun ho => (hout ho).2 ha⟩
    · rintro (⟨hb | ho | ha, hno⟩ | hn)
      · exact Or.inl (Or.inl hb)
      · exact absurd ho hno
      · exact Or.inr ha
      · exact Or.inl (Or.inr hn)
  · rw [s.children_ne hq]
    simp [hq]

theorem owns_iff (s : Spliced d p before out new after d') (h : d.Sound) :
    d'.Owns q c ↔ (d.Owns q c ∧ ¬ (q = p ∧ c ∈ out)) ∨ (q = p ∧ c ∈ new) := by
  rw [Document.owns_iff, Document.owns_iff, s.content?_eq, s.mem_children_iff h]
  constructor
  · rintro ((⟨hc, hno⟩ | hn) | hc)
    · exact Or.inl ⟨Or.inl hc, hno⟩
    · exact Or.inr hn
    · refine Or.inl ⟨Or.inr hc, fun ⟨hq, ho⟩ => ?_⟩
      have hp : d.parent c = some p := h.child_iff.mp (s.mem_before_out_after.mpr (Or.inr (Or.inl ho)))
      rw [h.parent_of_content hc] at hp
      cases hp
  · rintro (⟨hc | hc, hno⟩ | hn)
    · exact Or.inl (Or.inl ⟨hc, hno⟩)
    · exact Or.inr hc
    · exact Or.inl (Or.inr hn)

theorem nodup_children (s : Spliced d p before out new after d') (h : d.Sound)
    (f : d.Fits p new) (q : NodeId) : (d'.children q).Nodup := by
  by_cases hq : q = p
  · subst hq
    rw [s.children_self]
    have hnd := h.children_nodup q
    have hmem : ∀ c, c ∈ before ∨ c ∈ after → c ∉ new := by
      intro c hc hn
      exact f.not_mem_children hn q (s.mem_before_out_after.mpr (hc.imp_right Or.inr))
    rw [s.children_before, List.nodup_append, List.nodup_append] at hnd
    obtain ⟨⟨hb, -, -⟩, ha, hba⟩ := hnd
    rw [List.nodup_append, List.nodup_append]
    refine ⟨⟨hb, f.nodup, ?_⟩, ha, ?_⟩
    · rintro x hx y hy rfl
      exact hmem x (Or.inl hx) hy
    · rintro x hx y hy rfl
      rcases List.mem_append.mp hx with hx | hx
      · exact hba x (by simp [hx]) x hy rfl
      · exact hmem x (Or.inr hy) hx
  · rw [s.children_ne hq]
    exact h.children_nodup q

theorem child_iff (s : Spliced d p before out new after d') (h : d.Sound) (f : d.Fits p new) :
    c ∈ d'.children q ↔ d'.parent c = some q := by
  rw [s.mem_children_iff h, s.parent_eq]
  by_cases hn : c ∈ new
  · have hno := f.not_mem_children hn q
    simp [hn, hno, eq_comm]
  · by_cases ho : c ∈ out
    · have hp : d.parent c = some p := h.child_iff.mp (s.mem_before_out_after.mpr (Or.inr (Or.inl ho)))
      rw [h.child_iff, hp]
      simp [hn, ho, eq_comm]
    · simp [hn, ho, h.child_iff]

/-- An exchange keeps a document sound if what comes in fits. -/
theorem sound (s : Spliced d p before out new after d') (h : d.Sound)
    (hp : d.isLive p = true) (f : d.Fits p new) : d'.Sound := by
  constructor
  case child_iff => exact s.child_iff h f
  case children_nodup => exact s.nodup_children h f
  case live_of_parent =>
    intro q c hc
    rw [s.isLive_eq, s.isLive_eq]
    rw [← s.child_iff h f, s.mem_children_iff h] at hc
    rcases hc with ⟨hc, -⟩ | ⟨rfl, hc⟩
    · exact h.live_of_parent (h.child_iff.mp hc)
    · exact ⟨(f.orphan c hc).live, hp⟩
  case parent_of_fragment =>
    intro x hx
    rw [s.kind_eq] at hx
    rw [s.parent_eq, h.parent_of_fragment hx]
    have hn : x ∉ new := fun hn => f.kind_ne x hn hx
    simp [hn]
  case live_of_content =>
    intro i x hx
    rw [s.content?_eq] at hx
    rw [s.isLive_eq]
    exact h.live_of_content hx
  case kind_of_content =>
    intro i x hx
    rw [s.content?_eq] at hx
    rw [s.kind_eq]
    exact h.kind_of_content hx
  case content_inj =>
    intro i j x hi hj
    rw [s.content?_eq] at hi hj
    exact h.content_inj hi hj
  case content_of_template =>
    intro i e he hn
    rw [element?_eq_some_iff, ← Document.kind_eq, s.kind_eq] at he
    exact h.content_of_template (element?_eq_some_iff.mpr he) hn
  case acyclic =>
    refine h.acyclic_of_new (p := p) (fun q c hc => ?_) f.not_under
    exact ((s.owns_iff h).mp hc).imp_left And.left
  case vacant =>
    intro i hi
    rw [s.isLive_eq] at hi
    have hv := h.vacant hi
    have hip : i ≠ p := by
      rintro rfl
      rw [hp] at hi
      cases hi
    have hin : i ∉ new := fun hn => by
      rw [(f.orphan i hn).live] at hi
      cases hi
    have hout : i ∉ out := fun ho => by
      have := (h.live_of_parent (h.child_iff.mp (s.mem_before_out_after.mpr (Or.inr (Or.inl ho))))).1
      rw [this] at hi
      cases hi
    rw [s.node_eq_of_ne hip hout hin, hv]
  case free_nodup => rw [s.free_eq]; exact h.free_nodup
  case mem_free_iff => intro i; rw [s.free_eq, s.size_eq, s.isLive_eq, h.mem_free_iff]

theorem wellFormed (s : Spliced d p before out new after d') (h : d.WellFormed) (hp : d.isLive p = true)
    (f : d.Fits p new) : d'.WellFormed :=
  h.of_sound (s.sound h.sound hp f) s.pinned_eq fun _ hl => (s.isLive_eq _).trans hl

/-- What comes in has an owner afterwards, what goes out has none. -/
theorem orphan_iff (s : Spliced d p before out new after d') (h : d.Sound)
    (f : d.Fits p new) : d'.Orphan c ↔ (d.Orphan c ∧ c ∉ new) ∨ c ∈ out := by
  constructor
  · intro o
    have hn : c ∉ new := fun hn => o.unowned p ((s.owns_iff h).mpr (Or.inr ⟨rfl, hn⟩))
    by_cases ho : c ∈ out
    · exact Or.inr ho
    · refine Or.inl ⟨⟨by rw [← s.isLive_eq]; exact o.live, fun q hq => ?_⟩, hn⟩
      exact o.unowned q ((s.owns_iff h).mpr (Or.inl ⟨hq, fun hpo => ho hpo.2⟩))
  · rintro (⟨o, hn⟩ | ho)
    · refine ⟨by rw [s.isLive_eq]; exact o.live, fun q hq => ?_⟩
      rcases (s.owns_iff h).mp hq with ⟨hq, -⟩ | ⟨-, hc⟩
      · exact o.unowned q hq
      · exact hn hc
    · have hp : c ∈ d.children p := s.mem_before_out_after.mpr (Or.inr (Or.inl ho))
      refine ⟨by rw [s.isLive_eq]; exact (h.live_of_parent (h.child_iff.mp hp)).1, fun q hq => ?_⟩
      rcases (s.owns_iff h).mp hq with ⟨hq, hno⟩ | ⟨rfl, hn⟩
      · exact hno ⟨h.owns_unique hq (Document.owns_iff.mpr (Or.inl hp)), ho⟩
      · exact f.not_mem_children hn _ hp

/-- The way down from a node that `p` is not below is as before. -/
theorem under_iff_of_not_under (s : Spliced d p before out new after d') (hi : ¬ d.Under i p) :
    d'.Under i j ↔ d.Under i j := by
  refine under_congr fun k hk => ?_
  rw [below, below, s.content?_eq, s.children_ne]
  rintro rfl
  exact hi hk

end Spliced

end Document

end Hypertemplate
