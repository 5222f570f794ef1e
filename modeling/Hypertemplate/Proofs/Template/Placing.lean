import Hypertemplate.Proofs.Template.Render

/-!
# Putting a fragment in place

The three actions put the children of a new fragment in the place of some children of a node, and give back what
they took out (`Placing`): the walk over it (`Met`) gives back the nodes that are not pinned and detaches those
that are. Every other node but the one whose children were exchanged is as it was.
-/

namespace Hypertemplate.Document

variable {d d₁ d' e : Document} {f j p target : NodeId} {before out after old : List NodeId}
  {trees : List Tree}

/-! ## Giving several nodes back -/

theorem releaseAll_append (d : Document) (xs ys : List NodeId) :
    d.releaseAll (xs ++ ys) = (d.releaseAll xs).releaseAll ys := by
  fun_induction releaseAll d xs with
  | case1 d => rfl
  | case2 d i rest hl hi ih => rw [← ih, List.cons_append, releaseAll, dif_pos hl, if_pos hi]
  | case3 d i rest hl hi ih =>
    rw [← ih, List.cons_append, releaseAll, dif_pos hl, if_neg hi]
    simp only [List.append_assoc]
  | case4 d i rest hl ih => rw [← ih, List.cons_append, releaseAll, dif_neg hl]

theorem Released.parent_eq_none (r : Released d old d') (h : d.parent j = none) : d'.parent j = none := by
  by_cases hm : d.Met old j
  · by_cases hl : d.isLive j = true
    · exact (r.parent_eq j).2 hm hl
    · rw [Document.parent_eq, r.kept j fun _ => by simpa using hl]
      exact h
  · rw [(r.parent_eq j).1 hm, h]

/-- Releasing nodes without parent one after the other is one walk from all of them. -/
theorem foldl_release_eq (old : List NodeId) : ∀ {d : Document},
    (∀ i ∈ old, d.parent i = none ∧ i ≠ root) → old.foldl release d = d.releaseAll old := by
  induction old with
  | nil =>
    intro d _
    rw [releaseAll]
    rfl
  | cons i rest ih =>
    intro d h
    obtain ⟨hp, hr⟩ := h i (by simp)
    have hrel : d.release i = d.releaseAll [i] := by
      rw [release, if_neg hr, detach_of_parent_eq_none hp]
    have hrest : ∀ j ∈ rest, (d.release i).parent j = none ∧ j ≠ root := by
      intro j hj
      obtain ⟨hpj, hrj⟩ := h j (by simp [hj])
      exact ⟨(released_release hp hr).parent_eq_none hpj, hrj⟩
    rw [List.foldl_cons, ih hrest, hrel, ← releaseAll_append, List.singleton_append]

theorem sound_foldl_release (hnd : old.Nodup) : ∀ {d : Document}, d.Sound →
    (∀ i ∈ old, d.Orphan i) → (old.foldl release d).Sound := by
  induction old with
  | nil => exact fun h _ => h
  | cons i rest ih =>
    intro d h ho
    rw [List.nodup_cons] at hnd
    have r := dropped_release h (ho i (by simp))
    refine ih hnd.2 r.sound fun j hj => ?_
    exact r.orphan (ho j (by simp [hj])) (by rintro rfl; exact hnd.1 hj)

/-- Giving the children of a node back one after the other is one walk. -/
theorem foldl_release_clearChildren (hr : root ∉ d.children target) :
    (d.clearChildren target).1.foldl release (d.clearChildren target).2 =
      (d.clearChildren target).2.releaseAll (d.children target) := by
  have s := spliced_clearChildren d target
  apply foldl_release_eq
  intro i hi
  refine ⟨?_, fun he => hr (he ▸ hi)⟩
  rw [s.parent_eq, if_neg (by simp)]
  exact if_pos hi

theorem sound_clear_release (h : d.Sound) (ht : d.isLive target = true) :
    ((d.clearChildren target).1.foldl release (d.clearChildren target).2).Sound := by
  have s := spliced_clearChildren d target
  apply sound_foldl_release (h.children_nodup target) (s.sound h ht fits_nil)
  intro i hi
  exact (s.orphan_iff h fits_nil).mpr (Or.inr hi)

/-! ## Putting the children of a fragment in -/

/-- The children of the fragment `f` took the place of the children `out` of `p`. -/
structure Poured (d : Document) (f p : NodeId) (before out after : List NodeId) (d' : Document) : Prop
    extends SameFrame d d' where
  sound : d'.Sound
  children_before : d.children p = before ++ out ++ after
  node_eq : ∀ j, d'.node j = { d.node j with
    parent := if j ∈ d.children f then some p else if j ∈ out then none else d.parent j
    children := if j = p then before ++ d.children f ++ after
      else if j = f then [] else d.children j }
  orphan : d'.Orphan f
  orphan_out : ∀ i ∈ out, d'.Orphan i

theorem Spliced.poured (h : d.Sound) (l : d.Loose f target) (hfp : ¬ d.Under f p)
    (hp : d.isLive p = true) (s : Spliced (d.clearChildren f).2 p before out (d.children f) after d') :
    Poured d f p before out after d' := by
  have s₁ := spliced_clearChildren d f
  have t := taken_children h l.orphan.live
  have fits := t.fits hfp
  have hpf : p ≠ f := by
    rintro rfl
    exact hfp Under.refl
  refine
    { toSameFrame := s₁.toSameFrame.trans s.toSameFrame
      sound := s.sound t.sound ((t.isLive_eq p).trans hp) fits
      children_before := by rw [← s₁.children_ne hpf, s.children_before]
      node_eq := fun j => ?_
      orphan := (s.orphan_iff t.sound fits).mpr (Or.inl (l.orphan.clearChildren h f))
      orphan_out := fun i hi => (s.orphan_iff t.sound fits).mpr (Or.inr hi) }
  have hchildren : (d.clearChildren f).2.children j = if j = f then [] else d.children j := by
    split
    · next hj => rw [hj, s₁.children_self]; rfl
    · next hj => exact s₁.children_ne hj
  rw [s.node_eq, hchildren, s₁.parent_eq, s₁.node_eq]
  by_cases hj : j ∈ d.children f
  · simp [hj]
  · simp [hj]

theorem poured_appendChild (h : d.Sound) (l : d.Loose f target) :
    Poured d f target (d.children target) [] [] (d.appendChild target f) := by
  have s := spliced_appendChild h l.isLive l.orphan.live
  rw [takeInsertables_fragment l.kind_eq, (spliced_clearChildren d f).children_ne
    (ne_of_not_under l.not_under)] at s
  exact s.poured h l l.not_under l.isLive

theorem poured_replaceWith (h : d.Sound) (l : d.Loose f target) (hp : d.parent target = some p) :
    ∃ before after, Poured d f p before [target] after (d.replaceWith target f) := by
  have hown : d.Owns p target := owns_iff.mpr (Or.inl (h.child_iff.mpr hp))
  have hfp : ¬ d.Under f p := fun hu => l.not_under (hu.tail hown)
  have hpl := (h.live_of_owns hown).1
  have t := taken_children h l.orphan.live
  have hmem : target ∈ (d.clearChildren f).2.children p := by
    rw [(spliced_clearChildren d f).children_ne (ne_of_not_under hfp)]
    exact h.child_iff.mpr hp
  have s := spliced_putInPlace ((t.isLive_eq p).trans hpl) hmem (t.fits hfp)
  have hreplace : d.replaceWith target f =
      (d.clearChildren f).2.putInPlace p target (d.children f) := by
    rw [replaceWith_eq hp, takeInsertables_fragment l.kind_eq, if_pos hmem]
    rfl
  rw [← hreplace] at s
  exact ⟨_, _, s.poured h l hfp hpl⟩

/-- Away from the exchange a node keeps everything but its parent. -/
theorem Poured.same (s : Poured d f p before out after d') (hp : j ≠ p) (hf : j ≠ f) :
    d'.isLive j = d.isLive j ∧ d'.kind j = d.kind j ∧ d'.children j = d.children j := by
  rw [isLive_eq, Document.kind_eq, Document.children_eq, s.node_eq, if_neg hp, if_neg hf]
  exact ⟨rfl, rfl, rfl⟩

theorem Poured.node_eq_of_not_mem (s : Poured d f p before out after d') (hp : j ≠ p) (hf : j ≠ f)
    (hnew : j ∉ d.children f) (hout : j ∉ out) : d'.node j = d.node j := by
  rw [s.node_eq, if_neg hp, if_neg hf, if_neg hnew, if_neg hout]
  rfl

theorem Poured.node_self (s : Poured d f p before out after d') (hnew : p ∉ d.children f)
    (hout : p ∉ out) : d'.node p = { d.node p with children := before ++ d.children f ++ after } := by
  rw [s.node_eq, if_pos rfl, if_neg hnew, if_neg hout]
  rfl

theorem Poured.children_fragment (s : Poured d f p before out after d') (hf : f ≠ p) :
    d'.children f = [] := by
  rw [Document.children_eq, s.node_eq, if_neg hf, if_pos rfl]

theorem Poured.kind_eq (s : Poured d f p before out after d') (j : NodeId) : d'.kind j = d.kind j := by
  rw [Document.kind_eq, s.node_eq]
  rfl

/-! ## Giving back what is below a node -/

/-- From `e` to `e'` what the walk from `out` meets in `d` was given back. -/
structure Walked (d : Document) (out : List NodeId) (e e' : Document) : Prop where
  pinned_eq : e'.pinned = d.pinned
  kept : ∀ {j}, ¬ d.Met out j → e'.node j = e.node j
  detached : ∀ {j}, d.Met out j → j ∈ d.pinned → e'.node j = { e.node j with parent := none }
  vacated : ∀ {j}, d.Met out j → j ∉ d.pinned → e'.isLive j = false

theorem Released.walked (r : Released e out d') (hpinned : e.pinned = d.pinned)
    (hlive : ∀ j, d.Met out j → d.isLive j = true)
    (hsame : ∀ j, d.Met out j → e.isLive j = d.isLive j ∧ e.below j = d.below j) :
    Walked d out e d' := by
  have hmet : ∀ {j}, e.Met out j ↔ d.Met out j := met_congr hpinned hsame
  have hlive' : ∀ {j}, d.Met out j → e.isLive j = true := fun hm => by
    rw [(hsame _ hm).1, hlive _ hm]
  exact
    { pinned_eq := r.pinned_eq.trans hpinned
      kept := fun hm => r.kept _ fun hm' => absurd (hmet.mp hm') hm
      detached := fun hm hp => r.detached _ (hmet.mpr hm) (hlive' hm) (hpinned ▸ hp)
      vacated := fun hm hp => by
        rw [isLive_eq, r.vacated _ (hmet.mpr hm) (hlive' hm) (hpinned ▸ hp)]
        rfl }

/-! ## What is done before the fragment is given back -/

/-- The children of the new fragment `f` of `d₁` took the place of the children `out` of `p`, and these were
given back; the empty fragment is still there. -/
structure Placing (d d₁ : Document) (f p : NodeId) (before out after : List NodeId) (e : Document) :
    Prop where
  sound : e.Sound
  pinned_eq : e.pinned = d.pinned
  children_before : d.children p = before ++ out ++ after
  node_self : e.node p = { d.node p with children := before ++ d₁.children f ++ after }
  kept : ∀ {j}, d.isLive j = true → j ≠ p → ¬ d.Met out j → e.node j = d.node j
  detached : ∀ {j}, d.Met out j → j ∈ d.pinned → e.node j = { d.node j with parent := none }
  vacated : ∀ {j}, d.Met out j → j ∉ d.pinned → e.isLive j = false
  grown : ∀ {j}, d.isLive j = false → j ≠ f →
    e.isLive j = d₁.isLive j ∧ e.kind j = d₁.kind j ∧ e.children j = d₁.children j
  orphan : e.Orphan f
  children_fragment : e.children f = []
  kind_fragment : e.kind f = .fragment

/-- The children of `target` were given back; the new fragment `f` of `d₁` is still apart from it. -/
structure Emptied (d d₁ : Document) (f target : NodeId) (d' : Document) : Prop where
  sound : d'.Sound
  pinned_eq : d'.pinned = d.pinned
  node_self : d'.node target = { d.node target with children := [] }
  kept : ∀ {j}, d.isLive j = true → j ≠ target → ¬ d.Met (d.children target) j → d'.node j = d.node j
  detached : ∀ {j}, d.Met (d.children target) j → j ∈ d.pinned →
    d'.node j = { d.node j with parent := none }
  vacated : ∀ {j}, d.Met (d.children target) j → j ∉ d.pinned → d'.isLive j = false
  grown : ∀ {j}, d.isLive j = false → d'.node j = d₁.node j
  loose : d'.Loose f target

section Actions

variable (h : d.Sound) (g : Growing d f .fragment none trees d₁)

include h g

theorem Growing.loose (ht : d.isLive target = true) : d₁.Loose f target where
  orphan := g.made.orphan
  kind_eq := Kind.plain_eq_fragment_iff.mp g.kind_eq
  isLive := g.made.ext.isLive ht
  not_under := g.made.not_under h ht

theorem placing_append (ht : d.isLive target = true) :
    Placing d d₁ f target (d.children target) [] [] (d₁.appendChild target f) := by
  have m := g.made
  have s := poured_appendChild m.sound (g.loose h ht)
  have hchildren : d₁.children target = d.children target := by
    rw [Document.children_eq, m.ext.node_eq ht, ← Document.children_eq]
  exact
    { sound := s.sound
      pinned_eq := s.pinned_eq.trans m.ext.pinned_eq
      children_before := by simp
      node_self := by
        rw [s.node_self (m.ext.not_mem_of_isLive h m.fresh ht) (by simp), m.ext.node_eq ht, hchildren]
      kept := fun hj hjt _ => by
        rw [s.node_eq_of_not_mem hjt (m.ne hj) (m.ext.not_mem_of_isLive h m.fresh hj) (by simp),
          m.ext.node_eq hj]
      detached := fun hm => absurd hm not_met_nil
      vacated := fun hm => absurd hm not_met_nil
      grown := fun hj hjf => s.same (by rintro rfl; rw [ht] at hj; cases hj) hjf
      orphan := s.orphan
      children_fragment := s.children_fragment (m.ne ht).symm
      kind_fragment := by rw [s.kind_eq, (g.loose h ht).kind_eq] }

/-- Giving back a target that the children of the new fragment took the place of. -/
theorem walked_release (s : Poured d₁ f p before [target] after e) (hown : d.Owns p target)
    (hr : target ≠ root) : Walked d [target] e (e.release target) := by
  have m := g.made
  have hout : ∀ o ∈ [target], d.Owns p o := by simpa using hown
  have hlive : ∀ j, d.Met [target] j → d.isLive j = true := fun _ => h.live_of_met hout
  have r := released_release (s.sound.parent_of_orphan (s.orphan_out target (by simp))) hr
  refine r.walked (s.pinned_eq.trans m.ext.pinned_eq) hlive fun j hm => ?_
  have hjp : j ≠ p := by
    rintro rfl
    exact (h.under_of_met hout hm).2 rfl
  have hnode := m.ext.node_eq (hlive j hm)
  obtain ⟨hsl, hsk, hsc⟩ := s.same hjp (m.ne (hlive j hm))
  rw [below, below, content?_eq, content?_eq, ← Document.kind_eq, ← Document.kind_eq, hsl, hsk, hsc,
    isLive_eq, Document.kind_eq, Document.children_eq, hnode]
  exact ⟨rfl, rfl⟩

theorem placing_swap (ht : d.isLive target = true) (hp : d.parent target = some p)
    (hr : target ≠ root) : ∃ before after,
      Placing d d₁ f p before [target] after ((d₁.replaceWith target f).release target) := by
  have m := g.made
  have l := g.loose h ht
  have hown : d.Owns p target := owns_iff.mpr (Or.inl (h.child_iff.mpr hp))
  have hpl := (h.live_of_owns hown).1
  have hout : ∀ o ∈ [target], d.Owns p o := by simpa using hown
  have hlive : ∀ {j}, d.Met [target] j → d.isLive j = true := h.live_of_met hout
  have hself : ¬ d.Met [target] p := fun hm => (h.under_of_met hout hm).2 rfl
  have hfragment : ¬ d.Met [target] f := fun hm => m.ne (hlive hm) rfl
  have hp₁ : d₁.parent target = some p := by
    rw [Document.parent_eq, m.ext.node_eq ht, ← Document.parent_eq, hp]
  obtain ⟨before, after, s⟩ := poured_replaceWith m.sound l hp₁
  generalize d₁.replaceWith target f = e at s
  have hd := dropped_release s.sound (s.orphan_out target (by simp))
  have w := walked_release h g s hown hr
  refine ⟨before, after,
    { sound := hd.sound
      pinned_eq := w.pinned_eq
      children_before := ?_
      node_self := ?_
      kept := fun {j} hj hjp hm => ?_
      detached := fun {j} hm hjp => ?_
      vacated := w.vacated
      grown := fun {j} hj hjf => ?_
      orphan := hd.orphan s.orphan (m.ne ht).symm
      children_fragment := ?_
      kind_fragment := ?_ }⟩
  · rw [← s.children_before, Document.children_eq, Document.children_eq, m.ext.node_eq hpl]
  · rw [w.kept hself, s.node_self (m.ext.not_mem_of_isLive h m.fresh hpl)
      (fun hpt => hself (.start hpt)), m.ext.node_eq hpl]
  · have hjt : j ∉ [target] := fun hj => hm (.start hj)
    rw [w.kept hm, s.node_eq_of_not_mem hjp (m.ne hj) (m.ext.not_mem_of_isLive h m.fresh hj) hjt,
      m.ext.node_eq hj]
  · have hjl := hlive hm
    have hjne : j ≠ p := by
      rintro rfl
      exact hself hm
    have hchildren : d₁.children j = (d.node j).children := by
      rw [Document.children_eq, m.ext.node_eq hjl]
    rw [w.detached hm hjp, s.node_eq, if_neg hjne, if_neg (m.ne hjl), hchildren, m.ext.node_eq hjl]
  · have hm : ¬ d.Met [target] j := fun hm => by
      rw [hlive hm] at hj
      cases hj
    rw [isLive_eq, Document.kind_eq, Document.children_eq, w.kept hm]
    exact s.same (by rintro rfl; rw [hpl] at hj; cases hj) hjf
  · rw [Document.children_eq, w.kept hfragment, ← Document.children_eq,
      s.children_fragment (m.ne hpl).symm]
  · rw [Document.kind_eq, w.kept hfragment, ← Document.kind_eq, s.kind_eq, l.kind_eq]

/-- The children of the target were taken out and given back, and nothing else changed. -/
theorem emptied_clearChildren (ht : d.isLive target = true) (hr : root ∉ d.children target) :
    Emptied d d₁ f target ((d₁.clearChildren target).1.foldl release (d₁.clearChildren target).2) := by
  have m := g.made
  have l := g.loose h ht
  have hout : ∀ o ∈ d.children target, d.Owns target o := fun o ho => owns_iff.mpr (Or.inl ho)
  have hlive : ∀ {j}, d.Met (d.children target) j → d.isLive j = true := h.live_of_met hout
  have hself : ¬ d.Met (d.children target) target := fun hm => (h.under_of_met hout hm).2 rfl
  have hnott : ∀ {j}, d.Met (d.children target) j → j ≠ target := by
    rintro j hm rfl
    exact hself hm
  have s := spliced_clearChildren d₁ target
  have hold : d₁.children target = d.children target := by
    rw [Document.children_eq, m.ext.node_eq ht, ← Document.children_eq]
  have hw := sound_clear_release m.sound l.isLive
  have howner : ∀ {q j}, (d₁.clearChildren target).2.Owns q j → d₁.Owns q j := fun hq =>
    (((s.owns_iff m.sound).mp hq).resolve_right (by simp)).1
  rw [foldl_release_clearChildren (by rwa [hold])] at hw ⊢
  rw [hold] at s hw ⊢
  generalize (d₁.clearChildren target).2 = d₂ at s hw howner ⊢
  have r := released_releaseAll d₂ (d.children target)
  -- The walk stays below the target, where `d₂` has the nodes of `d`.
  have w : Walked d (d.children target) d₂ (d₂.releaseAll (d.children target)) := by
    refine r.walked (s.pinned_eq.trans m.ext.pinned_eq) (fun _ => hlive) fun j hm => ?_
    rw [s.isLive_eq, below, below, s.children_ne (hnott hm), s.content?_eq, content?_eq, content?_eq,
      isLive_eq, Document.children_eq, m.ext.node_eq (hlive hm)]
    exact ⟨rfl, rfl⟩
  have hgrown : ∀ {j}, d.isLive j = false →
      (d₂.releaseAll (d.children target)).node j = d₁.node j := by
    intro j hj
    have hm : ¬ d.Met (d.children target) j := fun hm => by
      rw [hlive hm] at hj
      cases hj
    have hjt : j ≠ target := by
      rintro rfl
      rw [ht] at hj
      cases hj
    rw [w.kept hm, s.node_eq_of_ne hjt (fun hjo => hm (.start hjo)) (by simp)]
  have htarget : target ∉ d.children target := fun hmem => hself (.start hmem)
  have hnode : (d₂.releaseAll (d.children target)).node target = { d.node target with children := [] } := by
    rw [w.kept hself, s.node_eq, if_neg (by simp), if_neg htarget, Document.parent_eq, m.ext.node_eq ht]
    simp
  exact
    { sound := hw
      pinned_eq := w.pinned_eq
      node_self := hnode
      kept := fun hj hjt hm => by
        rw [w.kept hm, s.node_eq_of_ne hjt (fun hjo => hm (.start hjo)) (by simp), m.ext.node_eq hj]
      detached := fun {j} hm hjp => by
        have hchildren : d₁.children j = (d.node j).children := by
          rw [Document.children_eq, m.ext.node_eq (hlive hm)]
        rw [w.detached hm hjp, s.node_eq, if_neg (hnott hm), hchildren, m.ext.node_eq (hlive hm)]
      vacated := w.vacated
      grown := hgrown
      loose :=
        { orphan := by
            refine ⟨by rw [isLive_eq, hgrown m.fresh]; exact m.orphan.live, fun q hq => ?_⟩
            exact m.orphan.unowned q (howner (r.owner hq))
          kind_eq := by rw [Document.kind_eq, hgrown m.fresh]; exact l.kind_eq
          isLive := by rw [isLive_eq, hnode]; exact ht
          not_under := fun hu => l.not_under ((hu.mono r.owner).mono howner) } }

theorem placing_update (ht : d.isLive target = true) (hr : root ∉ d.children target) :
    Placing d d₁ f target [] (d.children target) []
      (((d₁.clearChildren target).1.foldl release (d₁.clearChildren target).2).appendChild target f) := by
  have m := g.made
  have x := emptied_clearChildren h g ht hr
  generalize (d₁.clearChildren target).1.foldl release (d₁.clearChildren target).2 = d₃ at x
  have hkids : d₃.children f = d₁.children f := by
    rw [Document.children_eq, x.grown m.fresh, ← Document.children_eq]
  have u := poured_appendChild x.sound x.loose
  rw [show d₃.children target = [] by rw [Document.children_eq, x.node_self]] at u
  have hnew : ∀ {j}, d.isLive j = true → j ∉ d₃.children f := by
    intro j hj
    rw [hkids]
    exact m.ext.not_mem_of_isLive h m.fresh hj
  have hpast : ∀ {j}, d.isLive j = true → j ≠ target →
      (d₃.appendChild target f).node j = d₃.node j := fun hj hjt =>
    u.node_eq_of_not_mem hjt (m.ne hj) (hnew hj) (by simp)
  have hout : ∀ o ∈ d.children target, d.Owns target o := fun o ho => owns_iff.mpr (Or.inl ho)
  have hmet : ∀ {j}, d.Met (d.children target) j → d.isLive j = true ∧ j ≠ target := fun hm =>
    ⟨h.live_of_met hout hm, (h.under_of_met hout hm).2⟩
  exact
    { sound := u.sound
      pinned_eq := u.pinned_eq.trans x.pinned_eq
      children_before := by simp
      node_self := by
        rw [u.node_self (hnew ht) (by simp), x.node_self, hkids]
      kept := fun hj hjt hm => by rw [hpast hj hjt, x.kept hj hjt hm]
      detached := fun hm hjp => by rw [hpast (hmet hm).1 (hmet hm).2, x.detached hm hjp]
      vacated := fun hm hjp => by
        rw [isLive_eq, hpast (hmet hm).1 (hmet hm).2, ← isLive_eq, x.vacated hm hjp]
      grown := fun {j} hj hjf => by
        have hjt : j ≠ target := by
          rintro rfl
          rw [ht] at hj
          cases hj
        obtain ⟨hul, huk, huc⟩ := u.same hjt hjf
        rw [hul, huk, huc, isLive_eq, Document.kind_eq, Document.children_eq, x.grown hj]
        exact ⟨rfl, rfl, rfl⟩
      orphan := u.orphan
      children_fragment := u.children_fragment (m.ne ht).symm
      kind_fragment := by rw [u.kind_eq, x.loose.kind_eq] }

end Actions

end Hypertemplate.Document
