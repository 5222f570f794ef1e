import Hypertemplate.Proofs.Document.Copies
import Hypertemplate.Proofs.Document.Releasing

/-!
# New nodes for old ones

What is no longer used is given back (`Dropped`), the root and pinned nodes apart. With this a new node that
takes the place of an old one leaves nothing of the old one (`Made.exchange`), and a new fragment whose
children move into a node leaves nothing of the fragment (`Made.spend`).
-/

namespace Hypertemplate.Document

variable {d d' : Document} {c f i j p q s x : NodeId}

/-! ## Giving an orphan back -/

/-- The orphan `s` was given back with all below it, unless it is the root. -/
structure Dropped (d : Document) (s : NodeId) (d' : Document) : Prop where
  sound : d'.Sound
  pinned_eq : d'.pinned = d.pinned
  node_eq : ∀ {j}, ¬ d.Under s j → d'.node j = d.node j
  owner : ∀ {q j}, d'.Owns q j → d.Owns q j
  orphan_cases : ∀ {j}, d'.Orphan j → j ∈ d.pinned ∨ j = root ∨ (d.Orphan j ∧ j ≠ s)
  pinned_live : ∀ {j}, j ∈ d.pinned → d.isLive j = true → d'.isLive j = true

theorem dropped_release (h : d.Sound) (ho : d.Orphan s) : Dropped d s (d.release s) := by
  by_cases hs : s = root
  · subst hs
    rw [release_root]
    exact
      { sound := h
        pinned_eq := rfl
        node_eq := fun _ => rfl
        owner := id
        orphan_cases := fun {j} hj => by
          by_cases hr : j = root
          · exact Or.inr (Or.inl hr)
          · exact Or.inr (Or.inr ⟨hj, hr⟩)
        pinned_live := fun _ hl => hl }
  · have r := released_release (h.parent_of_orphan ho) hs
    exact
      { sound := r.sound h ho
        pinned_eq := r.pinned_eq
        node_eq := r.node_eq_of_not_under
        owner := r.owner
        orphan_cases := fun hj => (r.orphan_cases h hj).imp_right Or.inr
        pinned_live := fun hj hl => (r.isLive_eq_true_iff _).mpr ⟨hl, fun _ => hj⟩ }

theorem Dropped.wellFormed (r : Dropped d s d') (h : d.WellFormed) : d'.WellFormed :=
  h.of_sound r.sound r.pinned_eq r.pinned_live

theorem Dropped.tree_eq (r : Dropped d s d') (h : d.Sound) (ho : d.Orphan s)
    (hs : ¬ d.Under s i) : d'.tree i = d.tree i :=
  tree_congr_node h r.sound i fun _ hj => r.node_eq (ho.not_under_of_under h hs hj)

theorem Dropped.isLive (r : Dropped d s d') (hs : ¬ d.Under s i) (hi : d.isLive i = true) :
    d'.isLive i = true := by
  rw [isLive_eq, r.node_eq hs]
  exact hi

/-! ## A new node takes the place of an old one -/

theorem map_putFor_of_nodup {before after : List NodeId} (hnd : (before ++ [x] ++ after).Nodup) :
    (before ++ [x] ++ after).map (putFor x c) = before ++ [c] ++ after := by
  rw [List.nodup_append, List.nodup_append] at hnd
  have hb : x ∉ before := fun hx => hnd.1.2.2 x hx x (by simp) rfl
  have ha : x ∉ after := fun hx => hnd.2.2 x (by simp) x hx rfl
  simp only [List.map_append, map_putFor_of_not_mem hb, map_putFor_of_not_mem ha]
  simp [putFor]

theorem Made.spliced_replaceWith (m : Made d c d') (h : d.Sound) (hx : x ∈ d.children p)
    (hk : d'.kind c ≠ .fragment) :
    ∃ before after, Spliced d' p before [x] [c] after (d'.replaceWith x c) := by
  have hp := (h.live_of_owns (owns_iff.mpr (Or.inl hx))).1
  have hx' : x ∈ d'.children p := by
    rw [children_eq, m.ext.node_eq hp]
    exact hx
  rw [replaceWith_eq (m.sound.child_iff.mp hx'), takeInsertables_orphan m.sound m.orphan hk,
    if_pos hx']
  exact ⟨_, _, spliced_putInPlace (m.ext.isLive hp) hx' (m.fits h hp hk)⟩

/-- What was below a child is below it while the new node has its place. -/
theorem Made.under_replaced {before after : List NodeId} {e : Document} (m : Made d c d')
    (h : d.Sound) (hx : d.Owns p x) (s : Spliced d' p before [x] [c] after e) :
    e.Under x j ↔ d.Under x j := by
  have hxl := (h.live_of_owns hx).2
  have hxp : ¬ d'.Under x p := fun hu =>
    h.not_under_of_owns hx ((m.ext.under_iff h hxl).mp hu)
  rw [s.under_iff_of_not_under hxp, m.ext.under_iff h hxl]

/-- A node that is neither the child nor the new one has the new one in the place of the child. -/
theorem Made.node_replaced {before after : List NodeId} {e : Document} (m : Made d c d')
    (h : d.Sound) (hx : d.Owns p x) (s : Spliced d' p before [x] [c] after e)
    (hj : d.isLive j = true) (hjx : j ≠ x) :
    e.node j = { d.node j with children := (d.children j).map (putFor x c) } := by
  have hjx' : j ∉ [x] := by simpa using hjx
  have hjc : j ∉ [c] := by simpa using m.ne hj
  have hnode := m.ext.node_eq hj
  rw [s.node_eq, if_neg hjc, if_neg hjx', parent_eq, hnode]
  by_cases hjp : j = p
  · subst hjp
    have hnd := m.sound.children_nodup j
    rw [s.children_before] at hnd
    rw [if_pos rfl, ← map_putFor_of_nodup hnd, ← s.children_before, children_eq, hnode]
    rfl
  · have hxj : x ∉ d.children j := fun hxj => hjp (h.owns_unique (owns_iff.mpr (Or.inl hxj)) hx)
    rw [if_neg hjp, map_putFor_of_not_mem hxj, children_eq, hnode]
    rfl

/-- A new node is put in the place of a child, which is given back. -/
theorem Made.exchange (m : Made d c d') (h : d.Sound) (hx : x ∈ d.children p)
    (hk : d'.kind c ≠ .fragment) :
    RewrittenAs d x ((d'.replaceWith x c).release x) c (d'.tree c) := by
  have hown : d.Owns p x := owns_iff.mpr (Or.inl hx)
  obtain ⟨hp, hxl⟩ := h.live_of_owns hown
  have hp' := m.ext.isLive hp
  have f := m.fits h hp hk
  obtain ⟨before, after, e⟩ := m.spliced_replaceWith h hx hk
  have he := e.sound m.sound hp' f
  have hxo : (d'.replaceWith x c).Orphan x := (e.orphan_iff m.sound f).mpr (Or.inr (by simp))
  have r := dropped_release he hxo
  have hunder : ∀ {j}, (d'.replaceWith x c).Under x j ↔ d.Under x j := m.under_replaced h hown e
  have hc : ¬ d.Under x c := by
    intro hu
    have := h.live_of_under hxl hu
    rw [m.fresh] at this
    cases this
  have hcl : (d'.replaceWith x c).isLive c = true := by
    rw [e.isLive_eq]
    exact m.orphan.live
  refine
    { sound := r.sound
      pinned_eq := by rw [r.pinned_eq, e.pinned_eq, m.ext.pinned_eq]
      isLive := r.isLive (fun hu => hc (hunder.mp hu)) hcl
      fresh := Or.inr m.fresh
      node_eq := fun {j} hj hxj => ?_
      owner := fun {q j} hj hxj hq => ?_
      owner_self := fun {q} hq => ?_
      orphan_cases := fun {j} ho => ?_
      pinned_live := fun {j} hj hl => ?_
      tree_eq := ?_ }
  · rw [r.node_eq fun hu => hxj (hunder.mp hu),
      m.node_replaced h hown e hj (ne_of_not_under hxj)]
  · rcases (e.owns_iff m.sound).mp (r.owner hq) with ⟨hq, -⟩ | ⟨-, hjc⟩
    · exact m.ext.owner hj hq
    · exact absurd (by simpa using hjc) (m.ne hj)
  · rcases (e.owns_iff m.sound).mp (r.owner hq) with ⟨hq, -⟩ | ⟨rfl, -⟩
    · exact absurd hq (m.orphan.unowned q)
    · exact hown
  · rcases r.orphan_cases ho with hj | hj | ⟨hj, hjx⟩
    · rw [e.pinned_eq, m.ext.pinned_eq] at hj
      exact Or.inr (Or.inr hj)
    · exact Or.inr (Or.inl hj)
    · rcases (e.orphan_iff m.sound f).mp hj with ⟨hj, hjc⟩ | hj
      · exact (m.orphan_cases hj).resolve_left (by simpa using hjc)
      · exact absurd (by simpa using hj) hjx
  · apply r.pinned_live
    · rwa [e.pinned_eq, m.ext.pinned_eq]
    · exact (e.isLive_eq j).trans (m.ext.isLive hl)
  · rw [r.tree_eq he hxo fun hu => hc (hunder.mp hu),
      e.tree_eq m.sound he (m.not_under h hp)]

/-! ## The children of a new fragment move into a node -/

/-- A node that is not live before is no child of a live one before. -/
theorem Extends.not_mem_of_isLive (e : Extends d d') (h : d.Sound) (hf : d.isLive f = false)
    (hj : d.isLive j = true) : j ∉ d'.children f := by
  intro hjf
  have hl := (h.live_of_owns (e.owner hj (Document.owns_iff.mpr (Or.inl hjf)))).1
  rw [hf] at hl
  cases hl

/-- The children of a new fragment become the last ones of an old node, and the fragment is given back. -/
theorem Made.spend (m : Made d f d') (h : d.Sound) (hp : d.isLive p = true)
    (hk : d'.kind f = .fragment) :
    Rewritten d p ((d'.appendChild p f).release f) p ∧
      ((d'.appendChild p f).release f).kind p = d.kind p ∧
      ((d'.appendChild p f).release f).children p = d.children p ++ d'.children f ∧
      ∀ x, x ≠ f → ¬ d'.Under x p →
        ((d'.appendChild p f).release f).tree x = d'.tree x := by
  have hfp := m.not_under h hp
  have hp' := m.ext.isLive hp
  have hpf := m.ne hp
  have t := taken_children m.sound m.orphan.live
  have s₁ := spliced_clearChildren d' f
  have s₂ := spliced_appendChild m.sound hp' m.orphan.live
  rw [takeInsertables_fragment hk] at s₂
  change Spliced (d'.clearChildren f).2 p _ [] (d'.children f) [] _ at s₂
  have fits := t.fits hfp
  generalize hd₁ : (d'.clearChildren f).2 = d₁ at t s₁ s₂ fits
  generalize hd₂ : d'.appendChild p f = d₂ at s₂
  have h₂ := s₂.sound t.sound ((t.isLive_eq p).trans hp') fits
  have hnotmem : ∀ {j}, d.isLive j = true → j ∉ d'.children f := m.ext.not_mem_of_isLive h m.fresh
  -- The fragment is left without children and without owner.
  have hff : f ∉ d'.children f := fun hf =>
    m.sound.ne_of_owns (owns_iff.mpr (Or.inl hf)) rfl
  have ho₁ : d₁.Orphan f := (s₁.orphan_iff m.sound fits_nil).mpr (Or.inl ⟨m.orphan, by simp⟩)
  have ho₂ : d₂.Orphan f := (s₂.orphan_iff t.sound fits).mpr (Or.inl ⟨ho₁, hff⟩)
  have hleaf : ∀ {j}, d₂.Under f j → j = f := by
    intro j hj
    rcases Relation.ReflTransGen.cases_head hj with hj | ⟨c, hc, -⟩
    · exact hj.symm
    · exfalso
      rw [owns_iff, s₂.children_ne hpf.symm, s₁.children_self, s₂.content?_eq, s₁.content?_eq,
        content?_eq, ← kind_eq, hk] at hc
      simp [contentOf?] at hc
  have r := dropped_release h₂ ho₂
  have hnot : ∀ {j}, j ≠ f → ¬ d₂.Under f j := fun hj hu => hj (hleaf hu)
  have hown : ∀ {q j}, d.isLive j = true → (d₂.release f).Owns q j → d.Owns q j := by
    intro q j hj hq
    rcases (s₂.owns_iff t.sound).mp (r.owner hq) with ⟨hq, -⟩ | ⟨-, hjc⟩
    · exact m.ext.owner hj (t.owner hq)
    · exact absurd hjc (hnotmem hj)
  have hnode : (d₂.release f).node p = d₂.node p := r.node_eq (hnot hpf)
  refine ⟨
    { sound := r.sound
      pinned_eq := by rw [r.pinned_eq, s₂.pinned_eq, s₁.pinned_eq, m.ext.pinned_eq]
      isLive := by rw [isLive_eq, hnode, ← isLive_eq, s₂.isLive_eq, s₁.isLive_eq, hp']
      fresh := Or.inl rfl
      node_eq := fun {j} hj hpj => ?_
      owner := fun hj _ hq => hown hj hq
      owner_self := fun hq => hown hp hq
      orphan_cases := fun {j} ho => ?_
      pinned_live := fun {j} hj hl => ?_ }, ?_, ?_, fun x hxf hxp => ?_⟩
  · rw [node_putFor_self, r.node_eq (hnot (m.ne hj)),
      s₂.node_eq_of_ne (ne_of_not_under hpj) (by simp) (hnotmem hj),
      s₁.node_eq_of_ne (m.ne hj) (hnotmem hj) (by simp), m.ext.node_eq hj]
  · rcases r.orphan_cases ho with hj | hj | ⟨hj, hjf⟩
    · rw [s₂.pinned_eq, s₁.pinned_eq, m.ext.pinned_eq] at hj
      exact Or.inr (Or.inr hj)
    · exact Or.inr (Or.inl hj)
    · rcases (s₂.orphan_iff t.sound fits).mp hj with ⟨hj, hjc⟩ | hj
      · exact (m.orphan_cases ((t.orphan_cases hj).resolve_right hjc)).resolve_left hjf
      · cases hj
  · apply r.pinned_live
    · rwa [s₂.pinned_eq, s₁.pinned_eq, m.ext.pinned_eq]
    · rw [s₂.isLive_eq, s₁.isLive_eq, m.ext.isLive hl]
  · rw [kind_eq, hnode, ← kind_eq, s₂.kind_eq, s₁.kind_eq, kind_eq, m.ext.node_eq hp, ← kind_eq]
  · rw [children_eq, hnode, ← children_eq, s₂.children_self, s₁.children_ne hpf, List.append_nil,
      children_eq d', m.ext.node_eq hp, ← children_eq]
  · -- Neither the fragment nor the node is below `x`, so that no exchange touches its tree.
    have hxf' : ¬ d'.Under x f := fun hu => hxf (m.orphan.eq_of_under hu)
    have hxp₁ : ¬ d₁.Under x p := fun hu => hxp ((s₁.under_iff_of_not_under hxf').mp hu)
    rw [r.tree_eq h₂ ho₂ (hnot hxf), s₂.tree_eq t.sound h₂ hxp₁,
      s₁.tree_eq m.sound t.sound hxf']

/-- The children of a new fragment become children of a node that is being made. -/
theorem Growing.spend {kind : Kind} {content : Option Tree} {trees : List Tree} {d'' : Document}
    (g : Growing d p kind content trees d') (h : d.Sound) (m : Made d' f d'')
    (hk : d''.kind f = .fragment) :
    Growing d p kind content (trees ++ (d''.children f).map d''.tree)
      ((d''.appendChild p f).release f) := by
  have h' := g.made.sound
  have hp := g.made.orphan.live
  obtain ⟨r, hkind, hchildren, htree⟩ := m.spend h' hp hk
  have hold : ∀ {x}, d'.Owns p x → ((d''.appendChild p f).release f).tree x = d'.tree x := by
    intro x hx
    have hxl := (h'.live_of_owns hx).2
    rw [htree x (m.ne hxl) fun hu => h'.not_under_of_owns hx ((m.ext.under_iff h' hxl).mp hu),
      m.ext.tree_eq h' m.sound hxl]
  have hnew : ∀ {x}, d''.Owns f x →
      ((d''.appendChild p f).release f).tree x = d''.tree x := fun hx =>
    htree _ (m.sound.ne_of_owns hx) fun hu =>
      m.not_under h' hp ((Under.of_owns hx).trans hu)
  have hcontent : ((d''.appendChild p f).release f).content? p = d'.content? p := by
    rw [content?_eq, ← Document.kind_eq, hkind, Document.kind_eq, ← content?_eq]
  exact
    { made := g.made.rewritten h r
      kind_eq := by rw [hkind, g.kind_eq]
      content_eq := by
        rw [hcontent, ← g.content_eq]
        exact Option.map_congr fun c hc => hold (owns_iff.mpr (Or.inr hc))
      trees_eq := by
        rw [hchildren, List.map_append, ← g.trees_eq]
        congr 1
        · exact List.map_congr_left fun x hx => hold (owns_iff.mpr (Or.inl hx))
        · exact List.map_congr_left fun x hx => hnew (owns_iff.mpr (Or.inl hx)) }

end Hypertemplate.Document
