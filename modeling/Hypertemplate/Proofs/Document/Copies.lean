import Hypertemplate.Proofs.Document.Subtrees

/-!
# Copies

A copy of a node is a new node without owner whose tree is the tree of the node (`Copied`): everything below
it is new as well, a template's content included. A shallow copy lacks the children only.
-/

namespace Hypertemplate

theorem Kind.plain_eq_fragment_iff {k : Kind} : k.plain = .fragment ↔ k = .fragment := by
  cases k <;> simp [Kind.plain]

namespace Document

variable {d d' d'' : Document} {c i j p x : NodeId}

/-! ## Putting a new node below another new node -/

/-- A change below a new node keeps it new. -/
theorem Made.rewritten (m : Made d c d') (h : d.Sound) (r : Rewritten d' c d'' c) :
    Made d c d'' where
  sound := r.sound
  ext :=
    { node_eq := fun hj => by
        rw [r.node_eq_of_self (m.ext.isLive hj) (m.not_under h hj), m.ext.node_eq hj]
      owner := fun hj hq => m.ext.owner hj (r.owner (m.ext.isLive hj) (m.not_under h hj) hq)
      pinned_eq := r.pinned_eq.trans m.ext.pinned_eq }
  fresh := m.fresh
  orphan := ⟨r.isLive, fun q hq => m.orphan.unowned q (r.owner_self hq)⟩
  orphan_cases := fun ho => by
    rcases r.orphan_cases ho with ho | ho
    · exact m.orphan_cases ho
    · exact Or.inr (Or.inr (m.ext.pinned_eq ▸ ho))

theorem Made.fits (m : Made d c d') (h : d.Sound) (hp : d.isLive p = true)
    (hk : d'.kind c ≠ .fragment) : d'.Fits p [c] where
  nodup := by simp
  orphan := by simpa using m.orphan
  kind_ne := by simpa using hk
  not_under := by simpa using m.not_under h hp

theorem Made.spliced_adopt (m : Made d c d') (hp : d.isLive p = true) :
    Spliced d' p (d.children p) [] [c] [] (d'.adopt p c) := by
  have s := Document.spliced_adopt (m.ext.isLive hp) m.orphan.live
  rwa [children_eq, m.ext.node_eq hp] at s

/-- A new node that becomes the last child of an old one changes nothing but what is below the old one. -/
theorem Made.rewritten_adopt (m : Made d c d') (h : d.Sound) (hp : d.isLive p = true)
    (hk : d'.kind c ≠ .fragment) : Rewritten d p (d'.adopt p c) p := by
  have s := m.spliced_adopt hp
  have f := m.fits h hp hk
  have hnew : ∀ {j}, d.isLive j = true → j ∉ [c] := fun hj => by simpa using m.ne hj
  have howner : ∀ {q j}, d.isLive j = true → (d'.adopt p c).Owns q j → d.Owns q j := by
    intro q j hj hq
    rcases (s.owns_iff m.sound).mp hq with ⟨hq, -⟩ | ⟨-, hc⟩
    · exact m.ext.owner hj hq
    · exact absurd hc (hnew hj)
  exact
    { sound := s.sound m.sound (m.ext.isLive hp) f
      pinned_eq := s.pinned_eq.trans m.ext.pinned_eq
      isLive := (s.isLive_eq p).trans (m.ext.isLive hp)
      fresh := Or.inl rfl
      node_eq := fun hj hpj => by
        rw [node_putFor_self]
        exact (s.node_eq_of_ne (ne_of_not_under hpj) (by simp) (hnew hj)).trans (m.ext.node_eq hj)
      owner := fun hj _ hq => howner hj hq
      owner_self := fun hq => howner hp hq
      orphan_cases := fun ho => by
        rcases (s.orphan_iff m.sound f).mp ho with ⟨ho, hc⟩ | ho
        · exact (m.orphan_cases ho).resolve_left (by rintro rfl; exact hc (by simp))
        · cases ho
      pinned_live := fun _ hl => (s.isLive_eq _).trans (m.ext.isLive hl) }

/-- The tree of the node that was put below another one, and the trees that were there, stay. -/
theorem Made.tree_adopt (m : Made d c d') (h : d.Sound) (hp : d.isLive p = true)
    (hk : d'.kind c ≠ .fragment) (hx : ¬ d'.Under x p) : (d'.adopt p c).tree x = d'.tree x :=
  (m.spliced_adopt hp).tree_eq m.sound (m.rewritten_adopt h hp hk).sound hx

/-- From `d` to `d'` the trees `ts` were put behind the children of `p`. -/
structure Appended (d : Document) (p : NodeId) (ts : List Tree) (d' : Document) : Prop
    extends Rewritten d p d' p where
  kind_eq : d'.kind p = d.kind p
  content_eq : (d'.content? p).map d'.tree = (d.content? p).map d.tree
  trees_eq : (d'.children p).map d'.tree = (d.children p).map d.tree ++ ts

namespace Appended

variable {ts us : List Tree}

theorem refl (h : d.Sound) (hp : d.isLive p = true) : Appended d p [] d where
  toRewritten := Rewritten.refl h hp
  kind_eq := rfl
  content_eq := rfl
  trees_eq := (List.append_nil _).symm

theorem trans (a : Appended d p ts d') (a' : Appended d' p us d'') (h : d.Sound) :
    Appended d p (ts ++ us) d'' where
  toRewritten := a.toRewritten.trans a'.toRewritten h (Or.inl rfl)
  kind_eq := a'.kind_eq.trans a.kind_eq
  content_eq := a'.content_eq.trans a.content_eq
  trees_eq := by rw [a'.trees_eq, a.trees_eq, List.append_assoc]

theorem tree_eq (a : Appended d p ts d') (h : d.Sound) :
    d'.tree p = .node (d.tree p).kind ((d.content? p).map d.tree) ((d.tree p).children ++ ts) := by
  rw [a.sound.tree_eq, a.kind_eq, a.content_eq, a.trees_eq, h.kind_tree, h.children_tree]

end Appended

/-- A new node becomes the last child of an old one. -/
theorem Made.appended (m : Made d c d') (h : d.Sound) (hp : d.isLive p = true)
    (hk : d'.kind c ≠ .fragment) : Appended d p [d'.tree c] (d'.adopt p c) := by
  have s := m.spliced_adopt hp
  have hnode := m.ext.node_eq hp
  -- What `p` owned before the new child keeps its tree: `p` is not below it.
  have hold : ∀ {x}, d.Owns p x → (d'.adopt p c).tree x = d.tree x := by
    intro x hx
    have hxl := (h.live_of_owns hx).2
    rw [m.tree_adopt h hp hk fun hu => h.not_under_of_owns hx ((m.ext.under_iff h hxl).mp hu),
      m.ext.tree_eq h m.sound hxl]
  have hcontent : (d'.adopt p c).content? p = d.content? p := by
    rw [s.content?_eq, content?_eq, hnode, ← content?_eq]
  exact
    { toRewritten := m.rewritten_adopt h hp hk
      kind_eq := by rw [s.kind_eq, Document.kind_eq, hnode, ← Document.kind_eq]
      content_eq := by
        rw [hcontent]
        exact Option.map_congr fun f hf => hold (owns_iff.mpr (Or.inr hf))
      trees_eq := by
        rw [s.children_self, List.append_nil, List.map_append, List.map_singleton,
          m.tree_adopt h hp hk (m.not_under h hp)]
        congr 1
        exact List.map_congr_left fun x hx => hold (owns_iff.mpr (Or.inl hx)) }

/-! ## New nodes that get their children one after the other -/

/-- `p` was made and then given new children, whose trees are `trees`; `content` is the tree of its
content. -/
structure Growing (d : Document) (p : NodeId) (kind : Kind) (content : Option Tree) (trees : List Tree)
    (d' : Document) : Prop where
  made : Made d p d'
  kind_eq : (d'.kind p).plain = kind
  content_eq : (d'.content? p).map d'.tree = content
  trees_eq : (d'.children p).map d'.tree = trees

theorem Growing.tree_eq {kind : Kind} {content : Option Tree} {trees : List Tree}
    (g : Growing d p kind content trees d') : d'.tree p = .node kind content trees := by
  rw [g.made.sound.tree_eq, g.kind_eq, g.content_eq, g.trees_eq]

theorem Growing.kind_ne_fragment {kind : Kind} {content : Option Tree} {trees : List Tree}
    (g : Growing d p kind content trees d') (hk : kind ≠ .fragment) : d'.kind p ≠ .fragment := by
  rwa [Ne, ← Kind.plain_eq_fragment_iff, g.kind_eq]

/-- More children. -/
theorem Growing.appended {kind : Kind} {content : Option Tree} {trees ts : List Tree}
    (g : Growing d p kind content trees d') (h : d.Sound) (a : Appended d' p ts d'') :
    Growing d p kind content (trees ++ ts) d'' where
  made := g.made.rewritten h a.toRewritten
  kind_eq := by rw [a.kind_eq, g.kind_eq]
  content_eq := a.content_eq.trans g.content_eq
  trees_eq := by rw [a.trees_eq, g.trees_eq]

/-- One more child. -/
theorem Growing.adopt {kind : Kind} {content : Option Tree} {trees : List Tree}
    (g : Growing d p kind content trees d') (h : d.Sound) (m : Made d' c d'')
    (hk : d''.kind c ≠ .fragment) :
    Growing d p kind content (trees ++ [d''.tree c]) (d''.adopt p c) :=
  g.appended h (m.appended g.made.sound g.made.orphan.live hk)

/-! ## Copies -/

/-- `c` is a new node that looks like `i` did. -/
structure Copied (d : Document) (i c : NodeId) (d' : Document) : Prop extends Made d c d' where
  tree_eq : d'.tree c = d.tree i

theorem Copied.kind_plain (k : Copied d i c d') (h : d.Sound) :
    (d'.kind c).plain = (d.kind i).plain := by
  rw [← k.sound.kind_tree, ← h.kind_tree, k.tree_eq]

/-- A copy is a fragment exactly if the original is. -/
theorem Copied.kind_eq_fragment_iff (k : Copied d i c d') (h : d.Sound) :
    d'.kind c = .fragment ↔ d.kind i = .fragment := by
  rw [← Kind.plain_eq_fragment_iff, k.kind_plain h, Kind.plain_eq_fragment_iff]

/-- The copied kind goes into a new node without children, if contents are copied. -/
theorem growing_copyKind (copy : Document → NodeId → NodeId × Document) (h : d.Sound)
    (hcopy : ∀ f, d.content? i = some f → Copied d f (copy d f).1 (copy d f).2) :
    Growing d ((copyKind copy d (d.kind i)).2.allocate (copyKind copy d (d.kind i)).1).1
      (d.kind i).plain ((d.content? i).map d.tree) []
      ((copyKind copy d (d.kind i)).2.allocate (copyKind copy d (d.kind i)).1).2 := by
  -- A node without content is copied as it is.
  have hplain : ∀ k, d.kind i = k → contentOf? k = none →
      Growing d (d.allocate k).1 k.plain none [] (d.allocate k).2 := by
    intro k hk hnone
    have a := allocated_allocate h.accounted k
    have ht : ∀ e, k = .element e → e.name ≠ "template" := by
      rintro e rfl hn
      have hsome := h.content_of_template (element?_eq_some_iff.mpr hk) hn
      simp [contentOf?] at hnone
      simp [hnone] at hsome
    exact
      { made := made_allocate h hnone ht
        kind_eq := by rw [a.kind_self]
        content_eq := by rw [a.content?_self, hnone]; rfl
        trees_eq := by rw [a.children_self]; rfl }
  cases hk : d.kind i with
  | element e =>
    have hcontent : d.content? i = e.content := by
      rw [content?_eq, ← kind_eq, hk]
      rfl
    cases hc : e.content with
    | none =>
      simp only [copyKind, hc, hcontent]
      exact hplain _ hk hc
    | some f =>
      simp only [copyKind, hc, hcontent]
      have m := hcopy f (hcontent.trans hc)
      have hf : (copy d f).2.kind (copy d f).1 = .fragment :=
        (m.kind_eq_fragment_iff h).mpr (h.kind_of_content (hcontent.trans hc))
      have a := allocated_allocate m.sound.accounted
        (.element { e with content := some (copy d f).1 })
      have made := m.toMade.allocate_content hf (e := { e with content := some (copy d f).1 }) rfl
      refine
        { made := made
          kind_eq := by rw [a.kind_self]; rfl
          content_eq := ?_
          trees_eq := by rw [a.children_self]; rfl }
      rw [a.content?_self]
      change some _ = some _
      rw [← m.tree_eq]
      exact congrArg some (tree_congr_node m.sound made.sound _ fun j hj =>
        a.node_ne (a.ne_of_isLive (m.sound.live_of_under m.orphan.live hj)))
  | document => simpa [copyKind, content?_eq, ← kind_eq, hk, contentOf?] using hplain _ hk rfl
  | fragment => simpa [copyKind, content?_eq, ← kind_eq, hk, contentOf?] using hplain _ hk rfl
  | text t => simpa [copyKind, content?_eq, ← kind_eq, hk, contentOf?] using hplain _ hk rfl
  | comment t => simpa [copyKind, content?_eq, ← kind_eq, hk, contentOf?] using hplain _ hk rfl

/-- Copying a list of children into a new node. -/
theorem growing_copyChildren (copy : Document → NodeId → NodeId × Document) {kind : Kind}
    {content : Option Tree} (h : d.Sound) {cs : List NodeId}
    (hlive : ∀ c ∈ cs, d.isLive c = true) (hkind : ∀ c ∈ cs, d.kind c ≠ .fragment)
    (hcopy : ∀ c ∈ cs, ∀ e, e.Sound → Extends d e → Copied e c (copy e c).1 (copy e c).2) :
    ∀ {trees d'}, Growing d p kind content trees d' →
      Growing d p kind content (trees ++ cs.map d.tree)
        (cs.foldl (fun d c => (copy d c).2.adopt p (copy d c).1) d') := by
  induction cs with
  | nil =>
    intro trees d' g
    simpa using g
  | cons c rest ih =>
    intro trees d' g
    have h' := g.made.sound
    have hc := hlive c (by simp)
    have m := hcopy c (by simp) d' h' g.made.ext
    have hk : (copy d' c).2.kind (copy d' c).1 ≠ .fragment := by
      rw [Ne, m.kind_eq_fragment_iff h', kind_eq, g.made.ext.node_eq hc]
      exact hkind c (by simp)
    have hg := g.adopt h m.toMade hk
    rw [m.tree_eq, g.made.ext.tree_eq h h' hc] at hg
    have := ih (fun x hx => hlive x (by simp [hx])) (fun x hx => hkind x (by simp [hx]))
      (fun x hx => hcopy x (by simp [hx])) hg
    simpa using this

/-- A copy that is deep enough copies everything. -/
theorem copied_copyDeep (n : Nat) : ∀ {d : Document} {i}, d.Sound → d.isLive i = true →
    d.rank i < n → Copied d i (copyDeep n d i).1 (copyDeep n d i).2 := by
  induction n with
  | zero => exact fun _ _ hr => absurd hr (Nat.not_lt_zero _)
  | succ n ih =>
    intro d i h hi hr
    have hrank : ∀ {x}, d.Owns i x → d.rank x < n := fun hx =>
      Nat.lt_of_lt_of_le (h.rank_lt hx) (Nat.le_of_lt_succ hr)
    have g := growing_copyKind (copyDeep n) h fun f hf =>
      ih h (h.live_of_content hf) (hrank (owns_iff.mpr (Or.inr hf)))
    have hchildren := g.made.ext.node_eq hi
    have hall := growing_copyChildren (copyDeep n) h
      (fun c hc => (h.live_of_owns (owns_iff.mpr (Or.inl hc))).2) (fun c hc => h.kind_of_child hc)
      (fun c hc e he hext => by
        have hown : d.Owns i c := owns_iff.mpr (Or.inl hc)
        have hcl := (h.live_of_owns hown).2
        refine ih he (hext.isLive hcl) ?_
        rw [rank_congr h he fun j hj => hext.below_eq (h.live_of_under hcl hj)]
        exact hrank hown) g
    rw [List.nil_append] at hall
    have hcopyDeep : copyDeep (n + 1) d i =
        (((copyKind (copyDeep n) d (d.kind i)).2.allocate (copyKind (copyDeep n) d (d.kind i)).1).1,
          (d.children i).foldl (fun e c => (copyDeep n e c).2.adopt
            ((copyKind (copyDeep n) d (d.kind i)).2.allocate
              (copyKind (copyDeep n) d (d.kind i)).1).1 (copyDeep n e c).1)
            ((copyKind (copyDeep n) d (d.kind i)).2.allocate
              (copyKind (copyDeep n) d (d.kind i)).1).2) := by
      rw [children_eq, ← hchildren, ← children_eq]
      rfl
    rw [hcopyDeep]
    exact { toMade := hall.made, tree_eq := hall.tree_eq.trans (h.tree_eq i).symm }

/-- A deep copy looks like the original. -/
theorem copied_cloneNode (h : d.Sound) (hi : d.isLive i = true) :
    Copied d i (d.cloneNode i true).1 (d.cloneNode i true).2 :=
  copied_copyDeep _ h hi (Nat.lt_succ_of_le (rank_le_size d i))

/-- A shallow copy looks like the original without children. -/
theorem growing_cloneNode_shallow (h : d.Sound) (i : NodeId) :
    Growing d (d.cloneNode i false).1 (d.kind i).plain ((d.content? i).map d.tree) []
      (d.cloneNode i false).2 :=
  growing_copyKind (copyDeep (d.nodes.size + 1)) h fun _ hf =>
    copied_copyDeep _ h (h.live_of_content hf) (Nat.lt_succ_of_le (rank_le_size d _))

theorem made_cloneNode (h : d.Sound) (hi : d.isLive i = true) (deep : Bool) :
    Made d (d.cloneNode i deep).1 (d.cloneNode i deep).2 := by
  cases deep with
  | true => exact (copied_cloneNode h hi).toMade
  | false => exact (growing_cloneNode_shallow h i).made

end Document

end Hypertemplate
