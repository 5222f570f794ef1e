import Hypertemplate.Proofs.Document.Climbs
import Hypertemplate.Proofs.Document.Moves

/-!
# Links of any document

What moves of nodes do to links when nothing is known about the links that are there: children and parents may
disagree, nodes may be below themselves, and places that were given back may be moved like others.
`Relinked d p new d'` says that no node got a parent or a child but the nodes `new`, which came to stand below
`p`, and that no node lost its place among the children of a parent that it kept. Detaching, clearing and
taking out put no node anywhere; appending and replacing put down what was taken out.
-/

namespace Hypertemplate.Document

variable {d d' d'' : Document} {i j p q c : NodeId} {is new : List NodeId}

theorem lt_size_of_mem_children (h : c ∈ d.children p) : p < d.nodes.size := by
  by_contra hp
  rw [children_eq, node_of_size_le (Nat.le_of_not_lt hp)] at h
  cases h

/-- The nodes `new` came to stand below `p`; apart from them no node got a parent or a child. -/
structure Relinked (d : Document) (p : NodeId) (new : List NodeId) (d' : Document) : Prop
    extends SameFrame d d' where
  node_eq : ∀ j, d'.node j = { d.node j with parent := d'.parent j, children := d'.children j }
  parent_cases : ∀ {c q}, d'.parent c = some q → d.parent c = some q ∨ (c ∈ new ∧ q = p)
  children_cases : ∀ {q c}, c ∈ d'.children q → c ∈ d.children q ∨ (c ∈ new ∧ q = p)
  children_kept : ∀ {q c}, d'.parent c = some q → c ∈ d.children q → c ∈ d'.children q
  children_new : ∀ {c}, c ∈ new → p < d.nodes.size → c ∈ d'.children p

/-- It is enough to look at the places of the table. -/
theorem SameFrame.relinked (hframe : SameFrame d d') (above : NodeId → Option NodeId)
    (below : NodeId → List NodeId)
    (hnode : ∀ j < d.nodes.size, d'.node j = { d.node j with parent := above j, children := below j })
    (habove : ∀ c q, above c = some q → d.parent c = some q ∨ (c ∈ new ∧ q = p))
    (hbelow : ∀ q c, c ∈ below q → c ∈ d.children q ∨ (c ∈ new ∧ q = p))
    (hkept : ∀ q c, above c = some q → c ∈ d.children q → c ∈ below q)
    (hnew : ∀ c ∈ new, c ∈ below p) : Relinked d p new d' := by
  have hlt : ∀ {j}, j < d'.nodes.size → j < d.nodes.size := fun h => hframe.size_eq ▸ h
  have hparent : ∀ {c q}, d'.parent c = some q → above c = some q := by
    intro c q hc
    rwa [parent_eq, hnode c (hlt (lt_size_of_parent hc))] at hc
  have hchildren : ∀ {q}, q < d.nodes.size → d'.children q = below q := fun hq => by
    rw [children_eq, hnode _ hq]
  refine
    { toSameFrame := hframe
      node_eq := fun j => ?_
      parent_cases := fun hc => habove _ _ (hparent hc)
      children_cases := fun {q c} hc => ?_
      children_kept := fun {q c} hc hmem => ?_
      children_new := fun hc hp => by rw [hchildren hp]; exact hnew _ hc }
  · by_cases hj : j < d.nodes.size
    · rw [parent_eq, children_eq, hnode j hj]
    · have hout := Nat.le_of_not_lt hj
      rw [parent_eq, children_eq, node_of_size_le hout, node_of_size_le (hframe.size_eq ▸ hout)]
  · rw [hchildren (hlt (lt_size_of_mem_children hc))] at hc
    exact hbelow q c hc
  · rw [hchildren (lt_size_of_mem_children hmem)]
    exact hkept q c (hparent hc) hmem

namespace Relinked

theorem isLive_eq (r : Relinked d p new d') (j : NodeId) : d'.isLive j = d.isLive j := by
  rw [Document.isLive_eq, r.node_eq]
  rfl

theorem kind_eq (r : Relinked d p new d') (j : NodeId) : d'.kind j = d.kind j := by
  rw [Document.kind_eq, r.node_eq]
  rfl

theorem content?_eq (r : Relinked d p new d') (j : NodeId) : d'.content? j = d.content? j := by
  rw [Document.content?_eq, Document.content?_eq, ← Document.kind_eq, r.kind_eq]
  rfl

/-- Nodes are put somewhere after others were taken out. -/
theorem put (r : Relinked d p [] d') (r' : Relinked d' p new d'') : Relinked d p new d'' where
  toSameFrame := r.toSameFrame.trans r'.toSameFrame
  node_eq j := by rw [r'.node_eq, r.node_eq]
  parent_cases hc := (r'.parent_cases hc).imp_left fun h => (r.parent_cases h).resolve_right (by simp)
  children_cases hc := (r'.children_cases hc).imp_left fun h => (r.children_cases h).resolve_right (by simp)
  children_kept hc hmem := by
    rcases r'.parent_cases hc with h | ⟨hnew, rfl⟩
    · exact r'.children_kept hc (r.children_kept h hmem)
    · exact r'.children_new hnew (r.size_eq ▸ lt_size_of_mem_children hmem)
  children_new hc hp := r'.children_new hc (r.size_eq ▸ hp)

theorem wellFormed (r : Relinked d p new d') (h : d.WellFormed) (h' : d'.Sound) : d'.WellFormed :=
  h.of_sound h' r.pinned_eq fun _ hl => (r.isLive_eq _).trans hl

theorem accounted (r : Relinked d p new d') (h : d.Accounted) : d'.Accounted :=
  h.congr r.size_eq r.free_eq r.isLive_eq

theorem parent_eq_none (r : Relinked d p new d') (hc : d.parent c = none) (hnew : c ∉ new) :
    d'.parent c = none := by
  by_contra hne
  obtain ⟨q, hq⟩ := Option.ne_none_iff_exists'.mp hne
  rcases r.parent_cases hq with hq | ⟨hmem, -⟩
  · rw [hc] at hq
    cases hq
  · exact hnew hmem

/-- If no node comes to stand below itself, then no node is above itself. -/
theorem rising (r : Relinked d p new d') (h : d.Rising) (hnew : ∀ x ∈ new, ∀ k, d.above? k p ≠ some x) :
    d'.Rising :=
  h.of_parent_cases r.parent_cases hnew

/-- A node that comes to own another one puts it below itself or owned it before. -/
theorem owner (r : Relinked d p new d') (hc : d'.Owns q c) : d.Owns q c ∨ (c ∈ new ∧ q = p) := by
  rw [owns_iff, r.content?_eq] at hc
  rw [owns_iff]
  rcases hc with hc | hc
  · exact (r.children_cases hc).imp_left Or.inl
  · exact Or.inl (Or.inr hc)

end Relinked

/-! ## Taking out -/

theorem relinked_detach (d : Document) (p i : NodeId) : Relinked d p [] (d.detach i) := by
  refine (sameFrame_detach d i).relinked _ _ (fun j _ => node_detach d i j) ?_ ?_ ?_ (by simp)
  · intro c r hc
    exact Or.inl (Option.ite_none_left_eq_some.mp hc).2
  · intro r c hc
    refine Or.inl ?_
    split at hc
    · exact (List.mem_filter.mp hc).1
    · exact hc
  · intro r c hc hmem
    have hci := (Option.ite_none_left_eq_some.mp hc).1
    split
    · exact List.mem_filter.mpr ⟨hmem, by simpa using hci⟩
    · exact hmem

theorem relinked_clearChildren (d : Document) (p i : NodeId) : Relinked d p [] (d.clearChildren i).2 := by
  have s := spliced_clearChildren d i
  refine s.toSameFrame.relinked _ _ (fun j _ => s.node_eq j) ?_ ?_ ?_ (by simp)
  · intro c q hc
    simp only [List.not_mem_nil, if_false] at hc
    exact Or.inl (Option.ite_none_left_eq_some.mp hc).2
  · intro q c hc
    split at hc
    · cases hc
    · exact Or.inl hc
  · intro q c hc hmem
    simp only [List.not_mem_nil, if_false] at hc
    have hci := (Option.ite_none_left_eq_some.mp hc).1
    split
    · next hq => exact absurd (hq ▸ hmem) hci
    · exact hmem

theorem relinked_takeInsertables (d : Document) (p i : NodeId) :
    Relinked d p [] (d.takeInsertables i).2 := by
  by_cases hk : d.kind i = .fragment
  · rw [takeInsertables_fragment hk]
    exact relinked_clearChildren d p i
  · rw [takeInsertables_detached hk]
    exact relinked_detach d p i

/-! ## Putting in -/

theorem relinked_adoptAll (d : Document) (p : NodeId) (is : List NodeId) :
    Relinked d p is (is.foldl (fun d i => d.adopt p i) d) := by
  refine (sameFrame_adoptAll p is d).relinked _ _ (fun j hj => node_adoptAll_of_lt p is hj) ?_ ?_ ?_ ?_
  · intro c q hc
    split at hc
    · next hmem => exact Or.inr ⟨hmem, (Option.some.inj hc).symm⟩
    · exact Or.inl hc
  · intro q c hc
    split at hc
    · next hq =>
      subst hq
      exact (List.mem_append.mp hc).imp_right fun h => ⟨h, rfl⟩
    · exact Or.inl hc
  · intro q c _ hmem
    split
    · next hq =>
      subst hq
      exact List.mem_append_left _ hmem
    · exact hmem
  · intro c hc
    rw [if_pos rfl]
    exact List.mem_append_right _ hc

theorem relinked_putInPlace (hi : i ∈ d.children p) (is : List NodeId) :
    Relinked d p is (d.putInPlace p i is) := by
  have hsplit := takeWhile_append_drop hi
  have hframe := sameFrame_putInPlace d p i is
  refine hframe.relinked _ _ (fun j hj => node_putInPlace_of_lt hj p i is) ?_ ?_ ?_ ?_
  · intro c q hc
    have hc := (Option.ite_none_left_eq_some.mp hc).2
    split at hc
    · next hmem => exact Or.inr ⟨hmem, (Option.some.inj hc).symm⟩
    · exact Or.inl hc
  · intro q c hc
    split at hc
    · next hq =>
      subst hq
      rw [List.mem_append, List.mem_append] at hc
      rw [← hsplit]
      rcases hc with (hc | hc) | hc
      · exact Or.inl (by simp [hc])
      · exact Or.inr ⟨hc, rfl⟩
      · exact Or.inl (List.mem_append_right _ hc)
    · exact Or.inl hc
  · intro q c hc hmem
    have hci := (Option.ite_none_left_eq_some.mp hc).1
    split
    · next hq =>
      subst hq
      rw [← hsplit, List.mem_append, List.mem_append, List.mem_singleton] at hmem
      rw [List.mem_append, List.mem_append]
      rcases hmem with (hmem | hmem) | hmem
      · exact Or.inl (Or.inl hmem)
      · exact absurd hmem hci
      · exact Or.inr hmem
    · exact hmem
  · intro c hc
    rw [if_pos rfl]
    simp [hc]

theorem relinked_appendChild (d : Document) (p c : NodeId) :
    Relinked d p (d.takeInsertables c).1 (d.appendChild p c) :=
  (relinked_takeInsertables d p c).put (relinked_adoptAll _ p _)

/-- Replacing puts down what was taken out, unless taking it out removed the child. -/
theorem relinked_replaceWith (hp : d.parent i = some p) (r : NodeId) :
    Relinked d p (if i ∈ (d.takeInsertables r).2.children p then (d.takeInsertables r).1 else [])
      (d.replaceWith i r) := by
  rw [replaceWith_eq hp]
  split
  · next hi => exact (relinked_takeInsertables d p r).put (relinked_putInPlace hi _)
  · exact relinked_takeInsertables d p r

theorem relinked_adopt (d : Document) (p c : NodeId) : Relinked d p [c] (d.adopt p c) := by
  have r := relinked_adoptAll d p [c]
  exact r

end Hypertemplate.Document
