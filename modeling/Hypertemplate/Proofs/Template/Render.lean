import Hypertemplate.Proofs.Template.Fragment

/-!
# Nothing stays behind

`Tidy d spare`: in a well-formed document whose root has no owner, every live node is below the root, below a
pinned node or below one of the nodes `spare`. A rendering makes one spare node, the fragment; putting it
into a target makes what is taken out spare as well, and all that is spare is given back (`tidy_render`).
-/

namespace Hypertemplate.Document

open Json

variable {d d' : Document} {f i j t template target : NodeId} {spare : List NodeId}

/-- The root has no owner, and no other live node is without one unless it is pinned or spare. -/
structure Tidy (d : Document) (spare : List NodeId) : Prop where
  wellFormed : d.WellFormed
  orphan_root : d.Orphan root
  orphan_cases : ∀ {j}, d.Orphan j → j = root ∨ j ∈ d.pinned ∨ j ∈ spare

theorem Tidy.sound (h : d.Tidy spare) : d.Sound := h.wellFormed.sound

/-- Whatever is live hangs on the root, on a pinned node or on a spare one. -/
theorem Tidy.exists_under (h : d.Tidy spare) (hj : d.isLive j = true) :
    ∃ a, (a = root ∨ a ∈ d.pinned ∨ a ∈ spare) ∧ d.Under a j := by
  obtain ⟨a, ho, hu⟩ := h.wellFormed.exists_orphan hj
  exact ⟨a, h.orphan_cases ho, hu⟩

/-- A new node is spare. -/
theorem Made.tidy (m : Made d f d') (h : d.Tidy []) : d'.Tidy [f] where
  wellFormed := m.wellFormed h.wellFormed
  orphan_root := (m.ext.orphan_iff h.sound h.orphan_root.live).mpr h.orphan_root
  orphan_cases := by
    intro j ho
    rw [m.ext.pinned_eq]
    rcases m.orphan_cases ho with rfl | ho | hj | hj
    · exact Or.inr (Or.inr (by simp))
    · rcases h.orphan_cases ho with hj | hj | hj
      · exact Or.inl hj
      · exact Or.inr (Or.inl hj)
      · cases hj
    · exact Or.inl hj
    · exact Or.inr (Or.inl hj)

/-! ## Giving spare nodes back -/

/-- Another orphan stays an orphan. -/
theorem Dropped.orphan {s : NodeId} (r : Dropped d s d') (ho : d.Orphan j) (hj : j ≠ s) :
    d'.Orphan j :=
  ⟨r.isLive (fun hu => hj (ho.eq_of_under hu).symm) ho.live, fun p hp => ho.unowned p (r.owner hp)⟩

theorem orphan_root_release (h : d.Sound) (ho : d.Orphan i) (hr : d.Orphan root) :
    (d.release i).Orphan root := by
  by_cases hi : i = root
  · rw [hi, release_root]
    exact hr
  · exact (dropped_release h ho).orphan hr (Ne.symm hi)

theorem Tidy.release (h : d.Tidy (i :: spare)) (ho : d.Orphan i) : (d.release i).Tidy spare := by
  have r := dropped_release h.sound ho
  refine
    { wellFormed := r.wellFormed h.wellFormed
      orphan_root := orphan_root_release h.sound ho h.orphan_root
      orphan_cases := fun {j} hj => ?_ }
  rw [r.pinned_eq]
  rcases r.orphan_cases hj with hj | hj | ⟨hj, hji⟩
  · exact Or.inr (Or.inl hj)
  · exact Or.inl hj
  · rcases h.orphan_cases hj with hj | hj | hj
    · exact Or.inl hj
    · exact Or.inr (Or.inl hj)
    · exact Or.inr (Or.inr ((List.mem_cons.mp hj).resolve_left hji))

/-- Several orphans are given back one after the other. -/
theorem Tidy.releaseAll {old : List NodeId} (hnd : old.Nodup) :
    ∀ {d : Document}, d.Tidy (old ++ spare) → (∀ i ∈ old, d.Orphan i) →
      (old.foldl Document.release d).Tidy spare ∧ (old.foldl Document.release d).pinned = d.pinned ∧
      (∀ {q j}, (old.foldl Document.release d).Owns q j → d.Owns q j) ∧
      ∀ {j}, (∀ i ∈ old, ¬ d.Under i j) → (old.foldl Document.release d).node j = d.node j := by
  induction old with
  | nil => exact fun h _ => ⟨h, rfl, id, fun _ => rfl⟩
  | cons i rest ih =>
    intro d h ho
    rw [List.nodup_cons] at hnd
    have hi := ho i (by simp)
    have r := dropped_release h.sound hi
    have hother : ∀ j ∈ rest, (d.release i).Orphan j := fun j hj =>
      r.orphan (ho j (by simp [hj])) (by rintro rfl; exact hnd.1 hj)
    obtain ⟨ht, hp, howner, hnode⟩ := ih hnd.2 (h.release hi) hother
    refine ⟨ht, hp.trans r.pinned_eq, fun hq => r.owner (howner hq), fun {j} hj => ?_⟩
    exact (hnode fun k hk hu => hj k (by simp [hk]) (hu.mono r.owner)).trans
      (r.node_eq (hj i (by simp)))

/-! ## Putting the fragment in -/

/-- A fragment that can be put into a target. -/
structure Loose (d : Document) (f target : NodeId) : Prop where
  orphan : d.Orphan f
  kind_eq : d.kind f = .fragment
  isLive : d.isLive target = true
  not_under : ¬ d.Under f target

theorem Orphan.clearChildren (o : d.Orphan j) (h : d.Sound) (f : NodeId) :
    (d.clearChildren f).2.Orphan j ∧ j ∉ d.children f :=
  ⟨((spliced_clearChildren d f).orphan_iff h fits_nil).mpr (Or.inl ⟨o, by simp⟩), fun hj =>
    o.unowned f (owns_iff.mpr (Or.inl hj))⟩

/-- Appending a fragment leaves the fragment without owner. -/
theorem Tidy.append (h : d.Tidy spare) (l : d.Loose f target) :
    (d.appendChild target f).Tidy spare ∧ (d.appendChild target f).Orphan f ∧
      (d.appendChild target f).pinned = d.pinned := by
  have t := taken_children h.sound l.orphan.live
  have fits := t.fits l.not_under
  have s := spliced_appendChild h.sound l.isLive l.orphan.live
  rw [takeInsertables_fragment l.kind_eq] at s
  change Spliced (d.clearChildren f).2 target _ [] (d.children f) [] _ at s
  have horphan := fun {j} => s.orphan_iff t.sound fits (c := j)
  have hpinned : (d.appendChild target f).pinned = d.pinned := s.pinned_eq.trans t.pinned_eq
  refine ⟨
    { wellFormed := s.wellFormed (t.wellFormed h.wellFormed) ((t.isLive_eq target).trans l.isLive) fits
      orphan_root := horphan.mpr (Or.inl (h.orphan_root.clearChildren h.sound f))
      orphan_cases := fun {j} ho => ?_ },
    horphan.mpr (Or.inl (l.orphan.clearChildren h.sound f)), hpinned⟩
  rw [hpinned]
  rcases horphan.mp ho with ⟨hj, hjf⟩ | hj
  · exact h.orphan_cases ((t.orphan_cases hj).resolve_right hjf)
  · cases hj

/-- Putting a fragment in the place of a target makes the target spare. -/
theorem Tidy.replace (h : d.Tidy spare) (l : d.Loose f target) (hp : (d.parent target).isSome = true) :
    (d.replaceWith target f).Tidy (target :: spare) ∧ (d.replaceWith target f).Orphan target ∧
      (d.replaceWith target f).Orphan f ∧ (d.replaceWith target f).pinned = d.pinned := by
  obtain ⟨p, hp⟩ := Option.isSome_iff_exists.mp hp
  have hown : d.Owns p target := owns_iff.mpr (Or.inl (h.wellFormed.child_iff.mpr hp))
  have hfp : ¬ d.Under f p := fun hu => l.not_under (hu.tail hown)
  have t := taken_children h.sound l.orphan.live
  have fits := t.fits hfp
  have hmem : target ∈ (d.clearChildren f).2.children p := by
    rw [(spliced_clearChildren d f).children_ne (ne_of_not_under hfp)]
    exact h.wellFormed.child_iff.mpr hp
  have hpl : (d.clearChildren f).2.isLive p = true :=
    (t.isLive_eq p).trans (h.wellFormed.live_of_owns hown).1
  have s := spliced_putInPlace hpl hmem fits
  have hreplace : d.replaceWith target f =
      (d.clearChildren f).2.putInPlace p target (d.children f) := by
    rw [replaceWith_eq hp, takeInsertables_fragment l.kind_eq, if_pos hmem]
    rfl
  rw [← hreplace] at s
  have horphan := fun {j} => s.orphan_iff t.sound fits (c := j)
  have hpinned : (d.replaceWith target f).pinned = d.pinned := s.pinned_eq.trans t.pinned_eq
  refine ⟨
    { wellFormed := s.wellFormed (t.wellFormed h.wellFormed) hpl fits
      orphan_root := horphan.mpr (Or.inl (h.orphan_root.clearChildren h.sound f))
      orphan_cases := fun {j} ho => ?_ },
    horphan.mpr (Or.inr (by simp)),
    horphan.mpr (Or.inl (l.orphan.clearChildren h.sound f)), hpinned⟩
  rw [hpinned]
  rcases horphan.mp ho with ⟨hj, hjf⟩ | hj
  · refine (h.orphan_cases ((t.orphan_cases hj).resolve_right hjf)).imp_right fun hj => ?_
    exact hj.imp_right (List.mem_cons_of_mem _)
  · exact Or.inr (Or.inr (by rw [List.mem_singleton.mp hj]; simp))

/-- Clearing a target makes its children spare. -/
theorem Tidy.clear (h : d.Tidy spare) (ht : d.isLive target = true) :
    (d.clearChildren target).2.Tidy (d.children target ++ spare) := by
  have s := spliced_clearChildren d target
  have horphan := fun {j} => s.orphan_iff h.sound fits_nil (c := j)
  refine
    { wellFormed := h.wellFormed.clearChildren ht
      orphan_root := horphan.mpr (Or.inl ⟨h.orphan_root, by simp⟩)
      orphan_cases := fun {j} ho => ?_ }
  rw [s.pinned_eq]
  rcases horphan.mp ho with ⟨hj, -⟩ | hj
  · refine (h.orphan_cases hj).imp_right fun hj => ?_
    exact hj.imp_right (List.mem_append_right _)
  · exact Or.inr (Or.inr (List.mem_append_left _ hj))

/-- An update gives the old children of the target back and puts the fragment in. -/
theorem Tidy.update (h : d.Tidy spare) (l : d.Loose f target) :
    ((d.children target).foldl Document.release (d.clearChildren target).2).Tidy spare ∧
      ((d.children target).foldl Document.release (d.clearChildren target).2).Loose f target ∧
      ((d.children target).foldl Document.release (d.clearChildren target).2).pinned = d.pinned := by
  have s := spliced_clearChildren d target
  have h₁ := h.clear l.isLive
  have horphan := fun {j} => s.orphan_iff h.sound fits_nil (c := j)
  have howns : ∀ {q j}, (d.clearChildren target).2.Owns q j → d.Owns q j := fun hq =>
    (((s.owns_iff h.sound).mp hq).resolve_right (by simp)).1
  obtain ⟨h₂, hpinned, howner, hnode⟩ := h₁.releaseAll (h.wellFormed.children_nodup target)
    fun i hi => horphan.mpr (Or.inr hi)
  have hf : (d.clearChildren target).2.Orphan f := horphan.mpr (Or.inl ⟨l.orphan, by simp⟩)
  -- Neither the target nor the fragment is below an old child.
  have htarget := hnode (j := target) fun i hi hu =>
    h.wellFormed.not_under_of_owns (owns_iff.mpr (Or.inl hi)) (hu.mono howns)
  have hfragment := hnode (j := f) fun i hi hu => by
    have hif := hf.eq_of_under hu
    subst hif
    exact l.orphan.unowned target (owns_iff.mpr (Or.inl hi))
  refine ⟨h₂,
    { orphan := ⟨?_, fun q hq => hf.unowned q (howner hq)⟩
      kind_eq := ?_
      isLive := ?_
      not_under := fun hu => l.not_under ((hu.mono howner).mono howns) }, hpinned.trans s.pinned_eq⟩
  · rw [isLive_eq, hfragment]
    exact hf.live
  · rw [kind_eq, hfragment, ← kind_eq, s.kind_eq, l.kind_eq]
  · rw [isLive_eq, htarget, ← isLive_eq, s.isLive_eq, l.isLive]

/-! ## Rendering -/

/-- Whatever is done with a fragment, it and what is taken out are given back. -/
theorem tidy_applyAction (h : d.Tidy [f]) (l : d.Loose f target) (action : Action) :
    (d.applyAction action target f).Tidy [] ∧ (d.applyAction action target f).pinned = d.pinned := by
  have hdrop : ∀ {e : Document}, e.Tidy [f] → e.Orphan f → e.pinned = d.pinned →
      (e.release f).Tidy [] ∧ (e.release f).pinned = d.pinned := fun he ho hp =>
    ⟨he.release ho, (dropped_release he.wellFormed.sound ho).pinned_eq.trans hp⟩
  cases action with
  | append =>
    obtain ⟨h₁, ho, hp⟩ := h.append l
    exact hdrop h₁ ho hp
  | swap =>
    by_cases hp : (d.parent target).isSome = true
    · obtain ⟨h₁, ht, hf, hpinned⟩ := h.replace l hp
      have r := dropped_release h₁.wellFormed.sound ht
      have hne : f ≠ target := fun he => l.not_under (he ▸ Under.refl)
      have := hdrop (h₁.release ht) (r.orphan hf hne) (r.pinned_eq.trans hpinned)
      simpa [applyAction, hp] using this
    · simpa [applyAction, hp] using hdrop h l.orphan rfl
  | update =>
    obtain ⟨h₁, l₁, hp⟩ := h.update l
    obtain ⟨h₂, ho, hp₂⟩ := h₁.append l₁
    exact hdrop h₂ ho (hp₂.trans hp)

/-- A rendering leaves nothing behind. -/
theorem tidy_render (h : d.Tidy []) (ht : d.isLive target = true) (marker : String)
    (template : NodeId) (data : Value) (action : Action) :
    (d.render marker template data target action).2.Tidy [] ∧
      (d.render marker template data target action).2.pinned = d.pinned := by
  cases hc : d.content? template with
  | none =>
    have hnone : d.renderFragment marker template data = none := by simp [renderFragment, hc]
    simp only [render, hnone]
    exact ⟨h, trivial⟩
  | some content =>
    obtain ⟨fragment, d', hrender, g⟩ := growing_renderFragment h.sound hc marker data
    have m := g.made
    have l : d'.Loose fragment target :=
      { orphan := m.orphan
        kind_eq := Kind.plain_eq_fragment_iff.mp g.kind_eq
        isLive := m.ext.isLive ht
        not_under := m.not_under h.sound ht }
    obtain ⟨hd, hp⟩ := tidy_applyAction (m.tidy h) l action
    simp only [render, hrender]
    exact ⟨hd, hp.trans m.ext.pinned_eq⟩

end Hypertemplate.Document
