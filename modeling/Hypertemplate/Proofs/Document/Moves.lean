import Hypertemplate.Proofs.Document.Links

/-!
# Moving nodes

Every move is made of exchanges: taking out what is to be inserted (`Taken`), and putting it in
(`spliced_adoptAll`, `spliced_putInPlace`). From this follows that detaching, clearing, appending and
replacing keep a document sound, and what they do to owners.
-/

namespace Hypertemplate.Document

variable {d d' : Document} {i j p q c r : NodeId} {is : List NodeId}

/-! ## Lists of children -/

theorem filter_ne_of_nodup {before after : List NodeId} (h : (before ++ c :: after).Nodup) :
    (before ++ c :: after).filter (· != c) = before ++ after := by
  rw [List.nodup_append] at h
  obtain ⟨-, hca, hdis⟩ := h
  rw [List.nodup_cons] at hca
  have hb : ∀ x ∈ before, (x != c) = true := by
    intro x hx
    simpa using hdis x hx c (by simp)
  have ha : ∀ x ∈ after, (x != c) = true := by
    intro x hx
    simp only [bne_iff_ne]
    rintro rfl
    exact hca.1 hx
  rw [List.filter_append, List.filter_eq_self.mpr hb, List.filter_cons, List.filter_eq_self.mpr ha]
  simp

/-- A list is what stands before an element, the element, and what stands behind it. -/
theorem takeWhile_append_drop {cs : List NodeId} (h : c ∈ cs) :
    cs.takeWhile (· != c) ++ [c] ++ (cs.dropWhile (· != c)).drop 1 = cs := by
  induction cs with
  | nil => cases h
  | cons x rest ih =>
    by_cases hx : x = c
    · simp [hx]
    · have hc : c ∈ rest := by simpa [Ne.symm hx] using h
      simpa [hx] using ih hc

/-- To see an exchange it is enough to look at the places of the table. -/
theorem SameFrame.spliced {before out new after : List NodeId} (f : SameFrame d d')
    (hbefore : d.children p = before ++ out ++ after) (hp : p < d.nodes.size)
    (hnew : ∀ c ∈ new, c < d.nodes.size)
    (hnode : ∀ j < d.nodes.size, d'.node j = { d.node j with
      parent := if j ∈ new then some p else if j ∈ out then none else d.parent j
      children := if j = p then before ++ new ++ after else d.children j }) :
    Spliced d p before out new after d' where
  toSameFrame := f
  children_before := hbefore
  node_eq := by
    intro j
    by_cases hj : j < d.nodes.size
    · exact hnode j hj
    · have hout := Nat.le_of_not_lt hj
      have hjp : j ≠ p := by
        rintro rfl
        exact hj hp
      have hjn : j ∉ new := fun hmem => hj (hnew j hmem)
      rw [parent_eq, children_eq, node_of_size_le (f.size_eq ▸ hout), node_of_size_le hout]
      simp [hjp, hjn, Node.vacant]

/-! ## Taking out -/

theorem detach_of_parent_eq_none (hp : d.parent i = none) : d.detach i = d := by
  simp [detach, hp]

/-- A node that is detached loses its parent, and the parent the child. -/
theorem node_detach (d : Document) (i j : NodeId) :
    (d.detach i).node j = { d.node j with
      parent := if j = i then none else d.parent j
      children := if d.parent i = some j then (d.children j).filter (· != i) else d.children j } := by
  cases hp : d.parent i with
  | none =>
    rw [detach_of_parent_eq_none hp]
    by_cases hji : j = i
    · have hnone : (d.node j).parent = none := hji ▸ hp
      rw [if_pos hji, if_neg (by simp), ← hnone]
      rfl
    · simp [hji, parent, children]
  | some p =>
    have hdetach : d.detach i =
        (d.setParent i none).modifyNode p fun n => { n with children := n.children.filter (· != i) } := by
      simp [detach, hp]
    rw [hdetach, node_modifyNode (Or.inr rfl), node_setParent (Or.inr rfl), node_setParent (Or.inr rfl)]
    by_cases hpj : p = j
    · subst hpj
      by_cases hpi : p = i <;> simp [hpi, parent, children]
    · by_cases hji : j = i
      · subst hji
        simp [hpj, Ne.symm hpj, children]
      · simp [hpj, Ne.symm hpj, hji, parent, children]

theorem sameFrame_detach (d : Document) (i : NodeId) : SameFrame d (d.detach i) := by
  unfold detach
  split
  · exact SameFrame.rfl
  · exact (sameFrame_setParent d i _).trans (sameFrame_modifyNode _ _ _)

/-- Detaching takes one child out. -/
theorem spliced_detach (h : d.Sound) (hp : d.parent i = some p) :
    ∃ before after, Spliced d p before [i] [] after (d.detach i) := by
  have hmem : i ∈ d.children p := h.child_iff.mpr hp
  obtain ⟨before, after, hcs⟩ := List.append_of_mem hmem
  have hnd := h.children_nodup p
  rw [hcs] at hnd
  refine ⟨before, after, ?_⟩
  refine
    { toSameFrame := sameFrame_detach d i
      children_before := by simpa using hcs
      node_eq := fun j => ?_ }
  rw [node_detach, hp]
  by_cases hjp : j = p
  · subst hjp
    simp [hcs, filter_ne_of_nodup hnd]
  · simp [hjp, Ne.symm hjp]

/-- Clearing takes all children out. -/
theorem spliced_clearChildren (d : Document) (i : NodeId) :
    Spliced d i [] (d.children i) [] [] (d.clearChildren i).2 where
  toSameFrame := (sameFrame_setChildren d i _).trans (sameFrame_setParents _ _ _)
  children_before := by simp
  node_eq := by
    intro j
    change ((d.setChildren i []).setParents (d.children i) none).node j = _
    rw [node_setParents (Or.inr rfl), node_setChildren (Or.inr rfl)]
    by_cases hji : j = i
    · subst hji
      by_cases hjc : j ∈ d.children j <;> simp [hjc, parent]
    · by_cases hjc : j ∈ d.children i
      · simp only [hji, hjc, if_true, if_false, List.not_mem_nil]
        rfl
      · simp only [hji, hjc, if_false, List.not_mem_nil]
        rfl

/-- `is` are the nodes that go in when `i` is inserted, taken out of a document. -/
structure Taken (d : Document) (i : NodeId) (is : List NodeId) (d' : Document) : Prop
    extends SameFrame d d' where
  sound : d'.Sound
  nodup : is.Nodup
  orphan : ∀ c ∈ is, d'.Orphan c
  kind_ne : ∀ c ∈ is, d.kind c ≠ .fragment
  under : ∀ c ∈ is, d.Under i c
  isLive_eq : ∀ j, d'.isLive j = d.isLive j
  kind_eq : ∀ j, d'.kind j = d.kind j
  owner : ∀ {q c}, d'.Owns q c → d.Owns q c
  orphan_cases : ∀ {c}, d'.Orphan c → d.Orphan c ∨ c ∈ is
  node_eq : ∀ j, j ∉ is → j ≠ i → d.parent i ≠ some j → d'.node j = d.node j

theorem Taken.wellFormed (t : Taken d i is d') (h : d.WellFormed) : d'.WellFormed :=
  h.of_sound t.sound t.pinned_eq fun _ hl => (t.isLive_eq _).trans hl

theorem taken_children (h : d.Sound) (hl : d.isLive i = true) :
    Taken d i (d.children i) (d.clearChildren i).2 := by
  have s := spliced_clearChildren d i
  exact
    { toSameFrame := s.toSameFrame
      sound := s.sound h hl fits_nil
      nodup := h.children_nodup i
      orphan := fun c hc => (s.orphan_iff h fits_nil).mpr (Or.inr hc)
      kind_ne := fun c hc => h.kind_of_child hc
      under := fun c hc => Under.of_owns (owns_iff.mpr (Or.inl hc))
      isLive_eq := s.isLive_eq
      kind_eq := s.kind_eq
      owner := fun hq => (((s.owns_iff h).mp hq).resolve_right (by simp)).1
      orphan_cases := fun o => ((s.orphan_iff h fits_nil).mp o).imp_left And.left
      node_eq := fun j hj hji _ => s.node_eq_of_ne hji hj (by simp) }

theorem taken_detached (h : d.Sound) (hl : d.isLive i = true) (hk : d.kind i ≠ .fragment) :
    Taken d i [i] (d.detach i) := by
  cases hp : d.parent i with
  | none =>
    rw [detach_of_parent_eq_none hp]
    exact
      { toSameFrame := SameFrame.rfl
        sound := h
        nodup := by simp
        orphan := by simpa using h.orphan_of_parent hl hp hk
        kind_ne := by simpa using hk
        under := by simpa using Under.refl
        isLive_eq := fun _ => rfl
        kind_eq := fun _ => rfl
        owner := id
        orphan_cases := Or.inl
        node_eq := fun _ _ _ _ => rfl }
  | some p =>
    obtain ⟨before, after, s⟩ := spliced_detach h hp
    exact
      { toSameFrame := s.toSameFrame
        sound := s.sound h (h.live_of_parent hp).2 fits_nil
        nodup := by simp
        orphan := fun c hc => (s.orphan_iff h fits_nil).mpr (Or.inr hc)
        kind_ne := by simpa using hk
        under := by simpa using Under.refl
        isLive_eq := s.isLive_eq
        kind_eq := s.kind_eq
        owner := fun hq => (((s.owns_iff h).mp hq).resolve_right (by simp)).1
        orphan_cases := fun o => ((s.orphan_iff h fits_nil).mp o).imp_left And.left
        node_eq := fun j hj hji hjp => s.node_eq_of_ne (fun he => hjp (he ▸ hp)) hj (by simp) }

theorem takeInsertables_fragment (hk : d.kind i = .fragment) :
    d.takeInsertables i = d.clearChildren i := by
  simp [takeInsertables, hk]

theorem takeInsertables_detached (hk : d.kind i ≠ .fragment) :
    d.takeInsertables i = ([i], d.detach i) := by
  unfold takeInsertables
  split
  · next hf => exact absurd hf hk
  · rfl

theorem taken_takeInsertables (h : d.Sound) (hl : d.isLive i = true) :
    Taken d i (d.takeInsertables i).1 (d.takeInsertables i).2 := by
  by_cases hk : d.kind i = .fragment
  · rw [takeInsertables_fragment hk]
    exact taken_children h hl
  · rw [takeInsertables_detached hk]
    exact taken_detached h hl hk

/-- What was taken out fits below every node that was not below it. -/
theorem Taken.fits (t : Taken d i is d') (hnot : ¬ d.Under i p) : d'.Fits p is where
  nodup := t.nodup
  orphan := t.orphan
  kind_ne := fun c hc => by rw [t.kind_eq]; exact t.kind_ne c hc
  not_under := fun c hc hu => hnot ((t.under c hc).trans (hu.mono t.owner))

/-! ## Putting in -/

theorem sameFrame_adopt (d : Document) (p c : NodeId) : SameFrame d (d.adopt p c) :=
  (sameFrame_setParent d c _).trans (sameFrame_modifyNode _ p _)

/-- What adopting does, read at a place of the table. -/
theorem node_adopt_of_lt (hj : j < d.nodes.size) (p c : NodeId) :
    (d.adopt p c).node j = { d.node j with
      parent := if j = c then some p else d.parent j
      children := if j = p then d.children p ++ [c] else d.children j } := by
  have hset : ∀ k < d.nodes.size, (d.setParent c (some p)).node k =
      if k = c then { d.node c with parent := some p } else d.node k :=
    fun k hk => node_modifyNode_of_lt hk c _
  rw [adopt, node_modifyNode_of_lt ((sameFrame_setParent d c _).size_eq ▸ hj)]
  by_cases hjp : j = p
  · subst hjp
    rw [if_pos rfl, hset j hj]
    by_cases hjc : j = c <;> simp_all [children, parent]
  · rw [if_neg hjp, hset j hj]
    by_cases hjc : j = c <;> simp_all [children, parent]

theorem node_adoptAll_of_lt (p : NodeId) (is : List NodeId) : ∀ {d : Document}, j < d.nodes.size →
    (is.foldl (fun d i => d.adopt p i) d).node j = { d.node j with
      parent := if j ∈ is then some p else d.parent j
      children := if j = p then d.children p ++ is else d.children j } := by
  induction is with
  | nil =>
    intro d _
    by_cases hjp : j = p <;> simp [hjp, children, parent]
  | cons c rest ih =>
    intro d hj
    have hnode := node_adopt_of_lt hj p c
    rw [List.foldl_cons, ih ((sameFrame_adopt d p c).size_eq ▸ hj), parent_eq, children_eq, children_eq]
    by_cases hjp : j = p
    · subst hjp
      simp only [hnode, if_true, List.mem_cons]
      by_cases hjc : j = c <;> simp [hjc]
    · simp only [hnode, hjp, if_false, List.mem_cons]
      by_cases hjc : j = c <;> simp [hjc]

theorem sameFrame_adoptAll (p : NodeId) (is : List NodeId) :
    ∀ d : Document, SameFrame d (is.foldl (fun d i => d.adopt p i) d) := by
  induction is with
  | nil => exact fun _ => SameFrame.rfl
  | cons c rest ih => exact fun d => (sameFrame_adopt d p c).trans (ih _)

/-- Nodes that are adopted one after the other come to stand behind the children that are there. -/
theorem spliced_adoptAll (hp : d.isLive p = true) (hl : ∀ c ∈ is, d.isLive c = true) :
    Spliced d p (d.children p) [] is [] (is.foldl (fun d i => d.adopt p i) d) := by
  refine (sameFrame_adoptAll p is d).spliced (by simp) (lt_size_of_isLive hp)
    (fun c hc => lt_size_of_isLive (hl c hc)) fun j hj => ?_
  simpa using node_adoptAll_of_lt p is hj

theorem spliced_adopt (hp : d.isLive p = true) (hc : d.isLive c = true) :
    Spliced d p (d.children p) [] [c] [] (d.adopt p c) := by
  have s : Spliced d p (d.children p) [] [c] [] ([c].foldl (fun d i => d.adopt p i) d) :=
    spliced_adoptAll hp (by simpa using hc)
  exact s

theorem appendChild_eq (d : Document) (p c : NodeId) :
    d.appendChild p c =
      (d.takeInsertables c).1.foldl (fun d i => d.adopt p i) (d.takeInsertables c).2 := rfl

/-- A node without owner has to be taken from nowhere. -/
theorem takeInsertables_orphan (h : d.Sound) (ho : d.Orphan c) (hk : d.kind c ≠ .fragment) :
    d.takeInsertables c = ([c], d) := by
  rw [takeInsertables_detached hk, detach_of_parent_eq_none (h.parent_of_orphan ho)]

theorem appendChild_eq_adopt (h : d.Sound) (ho : d.Orphan c) (hk : d.kind c ≠ .fragment) :
    d.appendChild p c = d.adopt p c := by
  rw [appendChild_eq, takeInsertables_orphan h ho hk]
  rfl

/-- Appending exchanges nothing for what was taken out. -/
theorem spliced_appendChild (h : d.Sound) (hp : d.isLive p = true) (hc : d.isLive c = true) :
    Spliced (d.takeInsertables c).2 p ((d.takeInsertables c).2.children p) []
      (d.takeInsertables c).1 [] (d.appendChild p c) := by
  have t := taken_takeInsertables h hc
  exact spliced_adoptAll (by rw [t.isLive_eq]; exact hp) fun x hx => (t.orphan x hx).live

theorem Sound.appendChild (h : d.Sound) (hp : d.isLive p = true)
    (hc : d.isLive c = true) (hnot : ¬ d.Under c p) : (d.appendChild p c).Sound := by
  have t := taken_takeInsertables h hc
  exact (spliced_appendChild h hp hc).sound t.sound (by rw [t.isLive_eq]; exact hp)
    (t.fits hnot)

/-- The change that puts `is` in the place of the child `i` of `p`. -/
def putInPlace (d : Document) (p i : NodeId) (is : List NodeId) : Document :=
  ((d.setParents is (some p)).setChildren p
    ((d.children p).takeWhile (· != i) ++ is ++ ((d.children p).dropWhile (· != i)).drop 1)).setParent i
    none

theorem sameFrame_putInPlace (d : Document) (p i : NodeId) (is : List NodeId) :
    SameFrame d (d.putInPlace p i is) :=
  ((sameFrame_setParents is (some p) d).trans (sameFrame_setChildren _ _ _)).trans (sameFrame_setParent _ _ _)

theorem node_putInPlace_of_lt (hj : j < d.nodes.size) (p i : NodeId) (is : List NodeId) :
    (d.putInPlace p i is).node j = { d.node j with
      parent := if j = i then none else if j ∈ is then some p else d.parent j
      children := if j = p then (d.children p).takeWhile (· != i) ++ is ++
        ((d.children p).dropWhile (· != i)).drop 1 else d.children j } := by
  have hparents := sameFrame_setParents is (some p) d
  have hset : ∀ cs, ∀ k < d.nodes.size, ((d.setParents is (some p)).setChildren p cs).node k =
      { d.node k with
        parent := if k ∈ is then some p else d.parent k
        children := if k = p then cs else d.children k } := by
    intro cs k hk
    rw [setChildren, node_modifyNode_of_lt (hparents.size_eq ▸ hk)]
    by_cases hkp : k = p
    · subst hkp
      rw [if_pos rfl, node_setParents_of_lt _ _ hk]
      by_cases hki : k ∈ is <;> simp [hki, parent]
    · rw [if_neg hkp, node_setParents_of_lt _ _ hk]
      by_cases hki : k ∈ is <;> simp [hki, hkp, parent, children]
  have hchildren := hparents.trans (sameFrame_setChildren _ p
    ((d.children p).takeWhile (· != i) ++ is ++ ((d.children p).dropWhile (· != i)).drop 1))
  rw [putInPlace, setParent, node_modifyNode_of_lt (hchildren.size_eq ▸ hj)]
  by_cases hji : j = i
  · subst hji
    rw [if_pos rfl, hset _ j hj]
    simp
  · rw [if_neg hji, hset _ j hj]
    simp [hji]

theorem spliced_putInPlace (hp : d.isLive p = true) (hi : i ∈ d.children p) (f : d.Fits p is) :
    Spliced d p ((d.children p).takeWhile (· != i)) [i] is
      (((d.children p).dropWhile (· != i)).drop 1) (d.putInPlace p i is) := by
  refine (sameFrame_putInPlace d p i is).spliced (takeWhile_append_drop hi).symm (lt_size_of_isLive hp)
    (fun c hc => lt_size_of_isLive (f.orphan c hc).live) fun j hj => ?_
  have hnew : i ∉ is := fun hn => f.not_mem_children hn p hi
  rw [node_putInPlace_of_lt hj]
  by_cases hji : j = i
  · subst hji
    simp [hnew]
  · simp [hji]

/-- Replacing puts what was taken out in the place of a child, unless taking it out removed the child. -/
theorem replaceWith_eq (hp : d.parent i = some p) (r : NodeId) :
    d.replaceWith i r =
      if i ∈ (d.takeInsertables r).2.children p then
        (d.takeInsertables r).2.putInPlace p i (d.takeInsertables r).1
      else (d.takeInsertables r).2 := by
  simp [replaceWith, hp, putInPlace]

theorem replaceWith_of_parent_eq_none (hp : d.parent i = none) (r : NodeId) :
    d.replaceWith i r = d := by
  simp [replaceWith, hp]

theorem Sound.replaceWith (h : d.Sound) (hr : d.isLive r = true)
    (hnot : ∀ p, d.parent i = some p → ¬ d.Under r p) : (d.replaceWith i r).Sound := by
  cases hp : d.parent i with
  | none => rwa [replaceWith_of_parent_eq_none hp]
  | some p =>
    have t := taken_takeInsertables h hr
    rw [replaceWith_eq hp]
    split
    · next hi =>
      have hpl : (d.takeInsertables r).2.isLive p = true := by
        rw [t.isLive_eq]
        exact (h.live_of_parent hp).2
      have f := t.fits (hnot p hp)
      exact (spliced_putInPlace hpl hi f).sound t.sound hpl f
    · exact t.sound

theorem Sound.detach (h : d.Sound) (i : NodeId) : (d.detach i).Sound := by
  cases hp : d.parent i with
  | none => rwa [detach_of_parent_eq_none hp]
  | some p =>
    obtain ⟨before, after, s⟩ := spliced_detach h hp
    exact s.sound h (h.live_of_parent hp).2 fits_nil

theorem WellFormed.clearChildren (h : d.WellFormed) (hl : d.isLive i = true) :
    (d.clearChildren i).2.WellFormed :=
  (spliced_clearChildren d i).wellFormed h hl fits_nil

end Hypertemplate.Document
