import Hypertemplate.Proofs.Document.Moves

/-!
# What releasing does

`Released d starts d'` says node by node what a release from `starts` leaves, on every document, cyclic
ones included: the walk meets the nodes that live unpinned nodes lead to (`Met`), vacates the unpinned ones
and detaches the pinned ones. In a sound document a release of an orphan touches nothing outside of
what is below it and leaves no new orphans but pinned nodes.
-/

namespace Hypertemplate.Document

variable {d d' : Document} {i j k p q c : NodeId} {starts rest out : List NodeId}

/-! ## The nodes that the walk meets -/

/-- The walk from `starts` comes to a node; it goes on from the live nodes that are not pinned. -/
inductive Met (d : Document) (starts : List NodeId) : NodeId → Prop
  | start {i : NodeId} (hi : i ∈ starts) : Met d starts i
  | step {p c : NodeId} (hp : Met d starts p) (hl : d.isLive p = true) (hn : p ∉ d.pinned)
      (hc : d.Owns p c) : Met d starts c

theorem Met.mono {starts' : List NodeId} (hs : ∀ i ∈ starts, i ∈ starts') (h : d.Met starts j) :
    d.Met starts' j := by
  induction h with
  | start hi => exact .start (hs _ hi)
  | step _ hl hn hc ih => exact ih.step hl hn hc

theorem not_met_nil : ¬ d.Met [] j := by
  intro h
  induction h with
  | start hi => cases hi
  | step _ _ _ _ ih => exact ih

/-- What the walk meets is below a start. -/
theorem Met.exists_under (h : d.Met starts j) : ∃ i ∈ starts, d.Under i j := by
  induction h with
  | start hi => exact ⟨_, hi, Under.refl⟩
  | step _ _ _ hc ih =>
    obtain ⟨i, hi, hu⟩ := ih
    exact ⟨i, hi, hu.tail hc⟩

theorem Met.under (h : d.Met [i] j) : d.Under i j := by
  obtain ⟨k, hk, hu⟩ := h.exists_under
  rwa [List.mem_singleton.mp hk] at hu

/-- Where nothing is pinned the walk goes all the way down. -/
theorem met_of_under (h : d.Sound) (hi : i ∈ starts) (hl : d.isLive i = true)
    (hn : ∀ k, d.Under i k → k ∉ d.pinned) (hu : d.Under i j) : d.Met starts j := by
  induction hu with
  | refl => exact .start hi
  | tail hp hc ih => exact ih.step (h.live_of_under hl hp) (hn _ hp) hc

/-- A node met is the start or owned by a node that was vacated. -/
theorem Met.cases_owner (h : d.Met [i] j) :
    j = i ∨ ∃ p, d.Met [i] p ∧ d.isLive p = true ∧ p ∉ d.pinned ∧ d.Owns p j := by
  cases h with
  | start hi => exact Or.inl (List.mem_singleton.mp hi)
  | step hp hl hn hc => exact Or.inr ⟨_, hp, hl, hn, hc⟩

/-- A start that stops the walk leads no further. -/
theorem met_cons_of_stop (hi : d.isLive i = true → i ∈ d.pinned) :
    d.Met (i :: rest) j ↔ j = i ∨ d.Met rest j := by
  constructor
  · intro h
    induction h with
    | start hk => exact (List.mem_cons.mp hk).imp_right .start
    | step _ hl hn hc ih =>
      rcases ih with rfl | ih
      · exact absurd (hi hl) hn
      · exact Or.inr (ih.step hl hn hc)
  · rintro (rfl | h)
    · exact .start (by simp)
    · exact h.mono fun _ => List.mem_cons_of_mem _

theorem Met.congr (hlive : ∀ j, d'.isLive j = d.isLive j) (hpinned : d'.pinned = d.pinned)
    (howns : ∀ {p c}, d.Owns p c → d'.Owns p c) (h : d.Met starts j) : d'.Met starts j := by
  induction h with
  | start hk => exact .start hk
  | step _ hpl hpn hc ih => exact ih.step (by rwa [hlive]) (by rwa [hpinned]) (howns hc)

/-- The walk is the same in a document that agrees on the nodes that it meets. -/
theorem met_congr (hpinned : d'.pinned = d.pinned)
    (h : ∀ j, d.Met out j → d'.isLive j = d.isLive j ∧ d'.below j = d.below j) :
    d'.Met out j ↔ d.Met out j := by
  constructor
  · intro hm
    induction hm with
    | start hi => exact .start hi
    | step _ hl hn hc ih =>
      obtain ⟨hlive, hbelow⟩ := h _ ih
      exact ih.step (by rwa [← hlive]) (by rwa [← hpinned]) (by rwa [Owns, ← hbelow])
  · intro hm
    induction hm with
    | start hi => exact .start hi
    | step hp hl hn hc ih =>
      obtain ⟨hlive, hbelow⟩ := h _ hp
      exact ih.step (by rwa [hlive]) (by rwa [hpinned]) (by rwa [Owns, hbelow])

theorem node_vacate (hl : d.isLive i = true) (j : NodeId) :
    (d.vacate i).node j = if j = i then .vacant else d.node j :=
  node_setNode (lt_size_of_isLive hl) .vacant j

/-- After a start was vacated the walk starts from what the node owned. -/
theorem met_cons_of_vacate (hl : d.isLive i = true) (hn : i ∉ d.pinned) :
    d.Met (i :: rest) j ↔
      j = i ∨ (d.vacate i).Met ((d.content? i).toList ++ (d.children i).reverse ++ rest) j := by
  have hnode := node_vacate hl
  have hmem : ∀ c, c ∈ (d.content? i).toList ++ (d.children i).reverse ++ rest ↔
      d.Owns i c ∨ c ∈ rest := by
    intro c
    simp only [owns_iff, List.mem_append, List.mem_reverse, Option.mem_toList]
    exact or_congr_left or_comm
  constructor
  · intro h
    induction h with
    | start hk =>
      rcases List.mem_cons.mp hk with rfl | hk
      · exact Or.inl rfl
      · exact Or.inr (.start ((hmem _).mpr (Or.inr hk)))
    | @step p c _ hpl hpn hc ih =>
      rcases ih with rfl | ih
      · exact Or.inr (.start ((hmem _).mpr (Or.inl hc)))
      · by_cases hpi : p = i
        · subst hpi
          exact Or.inr (.start ((hmem _).mpr (Or.inl hc)))
        · have hp : (d.vacate i).node p = d.node p := by rw [hnode, if_neg hpi]
          refine Or.inr (ih.step ?_ hpn ?_)
          · rw [isLive_eq, hp]
            exact hpl
          · exact (owns_congr hp).mpr hc
  · rintro (rfl | h)
    · exact .start (by simp)
    · induction h with
      | start hk =>
        rcases (hmem _).mp hk with hc | hk
        · exact Met.step (.start (by simp)) hl hn hc
        · exact .start (by simp [hk])
      | @step p c _ hpl hpn hc ih =>
        have hpi : p ≠ i := by
          rintro rfl
          rw [isLive_eq, hnode, if_pos rfl] at hpl
          cases hpl
        have hp : (d.vacate i).node p = d.node p := by rw [hnode, if_neg hpi]
        refine ih.step ?_ hpn ?_
        · rw [isLive_eq, hp] at hpl
          exact hpl
        · exact (owns_congr hp).mp hc

/-! ## Walks from children of one node -/

namespace Sound

variable (h : d.Sound) (hout : ∀ o ∈ out, d.Owns p o)

include h hout

theorem under_of_met (hm : d.Met out j) : d.Under p j ∧ j ≠ p := by
  obtain ⟨o, ho, hu⟩ := hm.exists_under
  refine ⟨(Under.of_owns (hout o ho)).trans hu, ?_⟩
  rintro rfl
  exact h.not_under_of_owns (hout o ho) hu

theorem live_of_met (hm : d.Met out j) : d.isLive j = true := by
  obtain ⟨o, ho, hu⟩ := hm.exists_under
  exact h.live_of_under (h.live_of_owns (hout o ho)).2 hu

/-- The walk stops at a pinned node. -/
theorem not_met_below (hm : d.Met out j) (hj : j ∈ d.pinned) (hu : d.Under j k) (hne : k ≠ j) :
    ¬ d.Met out k := by
  -- The walk does not start below `j`: what it starts from has the same owner.
  have hstart : ∀ o ∈ out, d.Under j o → o = j := by
    intro o ho hjo
    by_contra hoj
    have hjp := h.under_owner hjo (Ne.symm hoj) (hout o ho)
    obtain ⟨o', ho', hu'⟩ := hm.exists_under
    exact h.not_under_of_owns (hout o' ho') (hu'.trans hjp)
  intro hk
  induction hk with
  | start ho => exact hne (hstart _ ho hu)
  | @step q c _ _ hn hc ih =>
    by_cases hqj : q = j
    · exact hn (hqj ▸ hj)
    · exact ih (h.under_owner hu hne.symm hc) hqj

end Sound

/-! ## Steps of the loop -/

theorem releaseAll_nil (d : Document) : d.releaseAll [] = d := by rw [releaseAll]

theorem releaseAll_pinned (hl : d.isLive i = true) (hi : d.isPinned i = true) :
    d.releaseAll (i :: rest) = (d.setParent i none).releaseAll rest := by
  rw [releaseAll, dif_pos hl, hi]
  rfl

theorem releaseAll_loose {next : List NodeId} (hl : d.isLive i = true) (hi : d.isPinned i = false)
    (hnext : (d.content? i).toList ++ (d.children i).reverse ++ rest = next) :
    d.releaseAll (i :: rest) = (d.vacate i).releaseAll next := by
  rw [releaseAll, dif_pos hl, hi, ← hnext]
  rfl

/-! ## The document afterwards -/

/-- A release from `starts` turns `d` into `d'`. -/
structure Released (d : Document) (starts : List NodeId) (d' : Document) : Prop where
  size_eq : d'.nodes.size = d.nodes.size
  pinned_eq : d'.pinned = d.pinned
  kept : ∀ j, (d.Met starts j → d.isLive j = false) → d'.node j = d.node j
  detached : ∀ j, d.Met starts j → d.isLive j = true → j ∈ d.pinned →
    d'.node j = { d.node j with parent := none }
  vacated : ∀ j, d.Met starts j → d.isLive j = true → j ∉ d.pinned → d'.node j = .vacant
  mem_free_iff : ∀ j, j ∈ d'.free ↔
    j ∈ d.free ∨ (d.Met starts j ∧ d.isLive j = true ∧ j ∉ d.pinned)
  free_nodup : d.free.Nodup → (∀ j ∈ d.free, d.isLive j = false) → d'.free.Nodup

theorem released_nil (d : Document) : Released d [] d where
  size_eq := rfl
  pinned_eq := rfl
  kept _ _ := rfl
  detached _ h := absurd h not_met_nil
  vacated _ h := absurd h not_met_nil
  mem_free_iff _ := ⟨Or.inl, fun h => h.resolve_right fun h => not_met_nil h.1⟩
  free_nodup h _ := h

/-- A place that is not live is passed over. -/
theorem Released.skip (hi : d.isLive i ≠ true) (r : Released d rest d') :
    Released d (i :: rest) d' := by
  have hmet : ∀ {j}, d.Met (i :: rest) j ↔ j = i ∨ d.Met rest j :=
    met_cons_of_stop fun hl => absurd hl hi
  have hne : ∀ {j}, d.Met (i :: rest) j → d.isLive j = true → d.Met rest j := fun hj hl =>
    (hmet.mp hj).resolve_left (by rintro rfl; exact hi hl)
  exact
    { size_eq := r.size_eq
      pinned_eq := r.pinned_eq
      kept := fun j hj => r.kept j fun hm => hj (hmet.mpr (Or.inr hm))
      detached := fun j hj hl => r.detached j (hne hj hl) hl
      vacated := fun j hj hl => r.vacated j (hne hj hl) hl
      mem_free_iff := fun j => by
        rw [r.mem_free_iff]
        exact or_congr_right ⟨fun ⟨hm, hl, hn⟩ => ⟨hmet.mpr (Or.inr hm), hl, hn⟩,
          fun ⟨hm, hl, hn⟩ => ⟨hne hm hl, hl, hn⟩⟩
      free_nodup := r.free_nodup }

/-- A pinned node is detached and kept. -/
theorem Released.detach (hl : d.isLive i = true) (hi : i ∈ d.pinned)
    (r : Released (d.setParent i none) rest d') : Released d (i :: rest) d' := by
  have hnode := node_setParent (d := d) (i := i) (p := none) (Or.inr rfl)
  have hframe := sameFrame_setParent d i none
  have hlive : ∀ j, (d.setParent i none).isLive j = d.isLive j := by
    intro j
    rw [isLive_eq, hnode]
    split
    · next hj => rw [hj]; rfl
    · rfl
  have howns : ∀ p c, (d.setParent i none).Owns p c ↔ d.Owns p c := by
    intro p c
    rw [owns_iff, owns_iff, children_eq, children_eq, content?_eq, content?_eq, hnode]
    split
    · next hj => rw [hj]
    · rfl
  have hrest : ∀ {j}, (d.setParent i none).Met rest j ↔ d.Met rest j := by
    intro j
    constructor
    · exact Met.congr (fun j => (hlive j).symm) hframe.pinned_eq.symm (howns _ _).mp
    · exact Met.congr hlive hframe.pinned_eq (howns _ _).mpr
  have hmet : ∀ {j}, d.Met (i :: rest) j ↔ j = i ∨ d.Met rest j := met_cons_of_stop fun _ => hi
  have hnotpin : ∀ {j}, d.Met (i :: rest) j → j ∉ d.pinned → d.Met rest j := fun hj hn =>
    (hmet.mp hj).resolve_left (by rintro rfl; exact hn hi)
  refine
    { size_eq := r.size_eq.trans hframe.size_eq
      pinned_eq := r.pinned_eq.trans hframe.pinned_eq
      kept := fun j hj => ?_
      detached := fun j hj hjl hjp => ?_
      vacated := fun j hj hjl hjn => ?_
      mem_free_iff := fun j => ?_
      free_nodup := fun hnd hf => ?_ }
  · have hji : j ≠ i := by
      rintro rfl
      rw [hj (.start (by simp))] at hl
      cases hl
    rw [r.kept j fun hm => by rw [hlive]; exact hj (hmet.mpr (Or.inr (hrest.mp hm))), hnode, if_neg hji]
  · by_cases hm : d.Met rest j
    · rw [r.detached j (hrest.mpr hm) (by rwa [hlive]) (by rwa [hframe.pinned_eq]), hnode]
      split
      · next hji => rw [hji]
      · rfl
    · have hji : j = i := (hmet.mp hj).resolve_right hm
      rw [r.kept j fun hm' => absurd (hrest.mp hm') hm, hnode, if_pos hji, hji]
  · exact r.vacated j (hrest.mpr (hnotpin hj hjn)) (by rwa [hlive]) (by rwa [hframe.pinned_eq])
  · rw [r.mem_free_iff, hframe.free_eq, hlive, hframe.pinned_eq, hrest]
    exact or_congr_right ⟨fun ⟨hm, h⟩ => ⟨hmet.mpr (Or.inr hm), h⟩,
      fun ⟨hm, h⟩ => ⟨hnotpin hm h.2, h⟩⟩
  · exact r.free_nodup (by rwa [hframe.free_eq]) fun j hj => by
      rw [hlive]
      exact hf j (by rwa [hframe.free_eq] at hj)

/-- A live node that is not pinned is vacated, and the walk goes on with what it owned. -/
theorem Released.vacate (hl : d.isLive i = true) (hn : i ∉ d.pinned)
    (r : Released (d.vacate i) ((d.content? i).toList ++ (d.children i).reverse ++ rest) d') :
    Released d (i :: rest) d' := by
  have hnode := node_vacate hl
  have hsize : (d.vacate i).nodes.size = d.nodes.size := by simp [Document.vacate, setNode]
  have hself : (d.vacate i).isLive i = false := by rw [isLive_eq, hnode, if_pos rfl]; rfl
  have hlive : ∀ {j}, j ≠ i → (d.vacate i).isLive j = d.isLive j := by
    intro j hj
    rw [isLive_eq, hnode, if_neg hj, isLive_eq]
  have hmet : ∀ {j}, d.Met (i :: rest) j ↔ j = i ∨ (d.vacate i).Met _ j := met_cons_of_vacate hl hn
  refine
    { size_eq := r.size_eq.trans hsize
      pinned_eq := r.pinned_eq
      kept := fun j hj => ?_
      detached := fun j hj hjl hjp => ?_
      vacated := fun j hj hjl hjn => ?_
      mem_free_iff := fun j => ?_
      free_nodup := fun hnd hf => ?_ }
  · have hji : j ≠ i := by
      rintro rfl
      rw [hj (.start (by simp))] at hl
      cases hl
    rw [r.kept j fun hm => by rw [hlive hji]; exact hj (hmet.mpr (Or.inr hm)), hnode, if_neg hji]
  · have hji : j ≠ i := by
      rintro rfl
      exact hn hjp
    rw [r.detached j ((hmet.mp hj).resolve_left hji) (by rwa [hlive hji]) hjp, hnode, if_neg hji]
  · by_cases hji : j = i
    · subst hji
      rw [r.kept j fun _ => hself, hnode, if_pos rfl]
    · exact r.vacated j ((hmet.mp hj).resolve_left hji) (by rwa [hlive hji]) hjn
  · rw [r.mem_free_iff]
    change (j ∈ i :: d.free ∨ _ ∧ _ ∧ j ∉ d.pinned) ↔ _
    by_cases hji : j = i
    · subst hji
      simp only [List.mem_cons, true_or, true_iff]
      exact Or.inr ⟨.start (by simp), hl, hn⟩
    · rw [hlive hji, hmet]
      simp [hji]
  · refine r.free_nodup (List.nodup_cons.mpr ⟨fun hi => ?_, hnd⟩) fun j hj => ?_
    · rw [hf i hi] at hl
      cases hl
    · rcases List.mem_cons.mp hj with rfl | hj
      · exact hself
      · by_cases hji : j = i
        · rw [hji, hself]
        · rw [hlive hji]
          exact hf j hj

/-- What the release loop does, on every document. -/
theorem released_releaseAll (d : Document) (starts : List NodeId) :
    Released d starts (d.releaseAll starts) := by
  fun_induction releaseAll d starts with
  | case1 d => exact released_nil d
  | case2 d i rest hl hi ih =>
    exact ih.detach hl (by simpa [isPinned] using hi)
  | case3 d i rest hl hi ih =>
    exact ih.vacate hl (by simpa [isPinned] using hi)
  | case4 d i rest hl ih => exact ih.skip hl

/-! ## Releasing in a sound document -/

namespace Released

variable {s : NodeId}

theorem isLive_eq_true_iff (r : Released d starts d') (j : NodeId) :
    d'.isLive j = true ↔ d.isLive j = true ∧ (d.Met starts j → j ∈ d.pinned) := by
  by_cases hl : d.isLive j = true
  · by_cases hm : d.Met starts j
    · by_cases hp : j ∈ d.pinned
      · rw [isLive_eq, r.detached j hm hl hp]
        exact iff_of_true hl ⟨hl, fun _ => hp⟩
      · rw [isLive_eq, r.vacated j hm hl hp]
        exact iff_of_false (by simp [Node.vacant]) fun h => hp (h.2 hm)
    · rw [isLive_eq, r.kept j fun h => absurd h hm]
      exact iff_of_true hl ⟨hl, fun h => absurd h hm⟩
  · rw [isLive_eq, r.kept j fun _ => by simpa using hl]
    exact iff_of_false hl fun h => hl h.1

/-- The places given back are added to the list. -/
theorem accounted (r : Released d starts d') (h : d.Accounted) : d'.Accounted := by
  refine ⟨r.free_nodup h.free_nodup fun j hj => (h.mem_free_iff.mp hj).2, fun {i} => ?_⟩
  rw [r.mem_free_iff, h.mem_free_iff, r.size_eq, ← Bool.not_eq_true, ← Bool.not_eq_true,
    r.isLive_eq_true_iff]
  by_cases hl : d.isLive i = true
  · have hs := lt_size_of_isLive hl
    simp [hl, hs]
  · simp [hl]

theorem node_eq_of_not_under (r : Released d [s] d') (hj : ¬ d.Under s j) : d'.node j = d.node j :=
  r.kept j fun hm => absurd hm.under hj

/-- No node gets a new owner. -/
theorem owner (r : Released d starts d') (hc : d'.Owns p c) : d.Owns p c := by
  by_cases hm : d.Met starts p ∧ d.isLive p = true
  · by_cases hp : p ∈ d.pinned
    · rw [owns_iff, children_eq, content?_eq, r.detached p hm.1 hm.2 hp] at hc
      exact owns_iff.mpr (by rwa [children_eq, content?_eq])
    · rw [owns_iff, children_eq, content?_eq, r.vacated p hm.1 hm.2 hp] at hc
      simp [Node.vacant, contentOf?] at hc
  · exact (owns_congr (r.kept p fun h => by simpa [h] using hm)).mp hc

/-- A node that keeps its place keeps what it owns. -/
theorem owns_of_isLive (r : Released d starts d') (hp : d'.isLive p = true) (hc : d.Owns p c) :
    d'.Owns p c := by
  rw [r.isLive_eq_true_iff] at hp
  by_cases hm : d.Met starts p
  · rw [owns_iff, children_eq, content?_eq, r.detached p hm hp.1 (hp.2 hm)]
    rwa [owns_iff, children_eq, content?_eq] at hc
  · exact (owns_congr (r.kept p fun h => absurd h hm)).mpr hc

/-- The owner of a node that the walk did not meet was not vacated. -/
theorem isLive_owner (r : Released d starts d') (h : d.Sound) (hc : d.Owns p c)
    (hm : ¬ d.Met starts c) : d'.isLive p = true := by
  refine (r.isLive_eq_true_iff p).mpr ⟨(h.live_of_owns hc).1, fun hp => ?_⟩
  by_contra hn
  exact hm (hp.step (h.live_of_owns hc).1 hn hc)

theorem parent_eq (r : Released d starts d') (j : NodeId) :
    (¬ d.Met starts j → d'.parent j = d.parent j) ∧
      (d.Met starts j → d.isLive j = true → d'.parent j = none) := by
  refine ⟨fun hm => by rw [Document.parent_eq, r.kept j fun h => absurd h hm]; rfl, fun hm hl => ?_⟩
  by_cases hp : j ∈ d.pinned
  · rw [Document.parent_eq, r.detached j hm hl hp]
  · rw [Document.parent_eq, r.vacated j hm hl hp]
    rfl

/-- The owner of a node that is kept in its place kept the node; what the walk met lost its owner. -/
theorem not_met_of_owns (r : Released d [s] d') (h : d.Sound) (ho : d.Orphan s)
    (hc : d'.Owns p c) : ¬ d.Met [s] c := by
  intro hm
  have hpc := r.owner hc
  rcases hm.cases_owner with rfl | ⟨q, hq, hql, hqn, hqc⟩
  · exact ho.unowned p hpc
  · obtain rfl := h.owns_unique hpc hqc
    rw [owns_iff, children_eq, content?_eq, r.vacated p hq hql hqn] at hc
    simp [Node.vacant, contentOf?] at hc

theorem kind_eq_of_isLive (r : Released d starts d') (hj : d'.isLive j = true) :
    d'.kind j = d.kind j := by
  rw [r.isLive_eq_true_iff] at hj
  by_cases hm : d.Met starts j
  · rw [kind_eq, r.detached j hm hj.1 (hj.2 hm)]
    rfl
  · rw [kind_eq, r.kept j fun h => absurd h hm]
    rfl

theorem children_eq_of_isLive (r : Released d starts d') (hj : d'.isLive j = true) :
    d'.children j = d.children j := by
  rw [r.isLive_eq_true_iff] at hj
  by_cases hm : d.Met starts j
  · rw [children_eq, r.detached j hm hj.1 (hj.2 hm)]
    rfl
  · rw [children_eq, r.kept j fun h => absurd h hm]
    rfl

/-- A node that lost its place reads as vacant. -/
theorem node_of_not_isLive (r : Released d starts d') (h : d.Sound)
    (hj : d'.isLive j = false) : d'.node j = .vacant := by
  by_cases hl : d.isLive j = true
  · have hno : ¬ (d.Met starts j → j ∈ d.pinned) := fun hk => by
      rw [(r.isLive_eq_true_iff j).mpr ⟨hl, hk⟩] at hj
      cases hj
    obtain ⟨hm, hp⟩ := Classical.not_imp.mp hno
    exact r.vacated j hm hl hp
  · rw [r.kept j fun _ => by simpa using hl, h.vacant (by simpa using hl)]

theorem content?_eq_of_isLive (r : Released d starts d') (hj : d'.isLive j = true) :
    d'.content? j = d.content? j := by
  rw [content?_eq, content?_eq, ← kind_eq, r.kind_eq_of_isLive hj, kind_eq]

/-- A node that has content or children is live. -/
theorem isLive_of_content (r : Released d starts d') (h : d.Sound) {f : NodeId}
    (hf : d'.content? j = some f) : d'.isLive j = true := by
  by_contra hl
  rw [content?_eq, r.node_of_not_isLive h (by simpa using hl)] at hf
  cases hf

/-- What is owned afterwards was not met, and both nodes are there. -/
theorem live_of_owns (r : Released d [s] d') (h : d.Sound) (ho : d.Orphan s) (hc : d'.Owns p c) :
    d'.isLive p = true ∧ d'.isLive c = true := by
  have hown := r.owner hc
  have hm := r.not_met_of_owns h ho hc
  exact ⟨r.isLive_owner h hown hm,
    (r.isLive_eq_true_iff _).mpr ⟨(h.live_of_owns hown).2, fun hm' => absurd hm' hm⟩⟩

theorem content_of_content (r : Released d [s] d') (h : d.Sound) (ho : d.Orphan s) {f : NodeId}
    (hf : d'.content? i = some f) : d.content? i = some f ∧ d'.isLive f = true := by
  have hl := r.isLive_of_content h hf
  exact ⟨by rwa [r.content?_eq_of_isLive hl] at hf, (r.live_of_owns h ho (owns_iff.mpr (Or.inr hf))).2⟩

/-- A node that was met has no parent afterwards. -/
theorem not_met_of_parent (r : Released d starts d') (h : d.Sound) (hc : d'.parent c = some p) :
    ¬ d.Met starts c := by
  intro hm
  by_cases hl : d.isLive c = true
  · rw [(r.parent_eq c).2 hm hl] at hc
    cases hc
  · rw [Document.parent_eq, r.kept c fun _ => by simpa using hl, h.vacant (by simpa using hl)] at hc
    cases hc

theorem child_iff (r : Released d [s] d') (h : d.Sound) (ho : d.Orphan s) :
    c ∈ d'.children p ↔ d'.parent c = some p := by
  constructor
  · intro hc
    have hpc : d'.Owns p c := owns_iff.mpr (Or.inl hc)
    rw [r.children_eq_of_isLive (r.live_of_owns h ho hpc).1, h.child_iff] at hc
    rw [(r.parent_eq c).1 (r.not_met_of_owns h ho hpc), hc]
  · intro hc
    have hm := r.not_met_of_parent h hc
    rw [(r.parent_eq c).1 hm] at hc
    have hpc : d.Owns p c := owns_iff.mpr (Or.inl (h.child_iff.mpr hc))
    rw [r.children_eq_of_isLive (r.isLive_owner h hpc hm), h.child_iff, hc]

theorem sound (r : Released d [s] d') (h : d.Sound) (ho : d.Orphan s) :
    d'.Sound := by
  constructor
  case child_iff => exact r.child_iff h ho
  case children_nodup =>
    intro p
    by_cases hl : d'.isLive p = true
    · rw [r.children_eq_of_isLive hl]
      exact h.children_nodup p
    · rw [children_eq, r.node_of_not_isLive h (by simpa using hl)]
      exact List.nodup_nil
  case live_of_parent =>
    intro p c hc
    exact (r.live_of_owns h ho (owns_iff.mpr (Or.inl ((r.child_iff h ho).mpr hc)))).symm
  case parent_of_fragment =>
    intro f hf
    by_cases hl : d'.isLive f = true
    · rw [r.kind_eq_of_isLive hl] at hf
      by_cases hm : d.Met [s] f
      · exact (r.parent_eq f).2 hm ((r.isLive_eq_true_iff f).mp hl).1
      · rw [(r.parent_eq f).1 hm, h.parent_of_fragment hf]
    · rw [Document.parent_eq, r.node_of_not_isLive h (by simpa using hl)]
      rfl
  case live_of_content => exact fun hf => (r.content_of_content h ho hf).2
  case kind_of_content =>
    intro i f hf
    obtain ⟨hf, hl⟩ := r.content_of_content h ho hf
    rw [r.kind_eq_of_isLive hl]
    exact h.kind_of_content hf
  case content_inj =>
    intro i j f hi hj
    exact h.content_inj (r.content_of_content h ho hi).1 (r.content_of_content h ho hj).1
  case content_of_template =>
    intro i e he hn
    have hl : d'.isLive i = true := by
      by_contra hl
      rw [element?_eq_some_iff, r.node_of_not_isLive h (by simpa using hl)] at he
      cases he
    rw [element?_eq_some_iff, ← kind_eq, r.kind_eq_of_isLive hl] at he
    exact h.content_of_template (element?_eq_some_iff.mpr he) hn
  case acyclic => exact Subrelation.wf (fun hc => r.owner hc) h.acyclic
  case vacant => exact fun hj => r.node_of_not_isLive h hj
  case free_nodup => exact (r.accounted h.accounted).free_nodup
  case mem_free_iff => exact (r.accounted h.accounted).mem_free_iff

/-- Pinned nodes are not given back. -/
theorem wellFormed (r : Released d [s] d') (h : d.WellFormed) (ho : d.Orphan s) : d'.WellFormed :=
  h.of_sound (r.sound h.sound ho) r.pinned_eq fun hi hl => (r.isLive_eq_true_iff _).mpr ⟨hl, fun _ => hi⟩

/-- New orphans are pinned. -/
theorem orphan_cases (r : Released d [s] d') (h : d.Sound) (hc : d'.Orphan c) :
    c ∈ d.pinned ∨ (d.Orphan c ∧ c ≠ s) := by
  have hl := (r.isLive_eq_true_iff c).mp hc.live
  by_cases hm : d.Met [s] c
  · exact Or.inl (hl.2 hm)
  · refine Or.inr ⟨⟨hl.1, fun p hp => ?_⟩, ?_⟩
    · exact hc.unowned p (r.owns_of_isLive (r.isLive_owner h hp hm) hp)
    · rintro rfl
      exact hm (.start (by simp))

end Released

theorem release_root (d : Document) : d.release root = d := by simp [release]

theorem released_release (hp : d.parent i = none) (hr : i ≠ root) :
    Released d [i] (d.release i) := by
  have hrel : d.release i = d.releaseAll [i] := by
    simp [release, hr, detach_of_parent_eq_none hp]
  rw [hrel]
  exact released_releaseAll d [i]

/-- A node that is no template's content is an orphan once it is detached. -/
theorem orphan_detach (h : d.Sound) (hl : d.isLive i = true) (hc : ∀ p, d.content? p ≠ some i) :
    (d.detach i).Orphan i := by
  cases hp : d.parent i with
  | none =>
    rw [detach_of_parent_eq_none hp]
    refine ⟨hl, fun p hown => ?_⟩
    rw [owns_iff, h.child_iff, hp] at hown
    rcases hown with hown | hown
    · cases hown
    · exact hc p hown
  | some p =>
    obtain ⟨before, after, s⟩ := spliced_detach h hp
    exact (s.orphan_iff h fits_nil).mpr (Or.inr (by simp))

end Hypertemplate.Document
