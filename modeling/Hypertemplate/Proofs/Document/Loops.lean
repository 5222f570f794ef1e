import Hypertemplate.Proofs.Document.Relinking
import Hypertemplate.Proofs.Document.Releasing
import Mathlib

/-!
# The loop of a release

A loop is given by its turn, which leads from one state to the next one or, when the loop is over, nowhere. It ends
after so many turns if these can be made and no further one (`EndsAfter`).

The loop of a release works on a list of places that grows while it goes on. Nothing is asked of the links but that
they lead to places of the table: they may go round, two nodes may have the same child, and a child may have been
given back. The loop ends all the same, after one turn for the first place and one for each link of a place that it
gives back, and it gives back no place twice (`release_ends`): a place that was given back is passed over from then
on.
-/

namespace Hypertemplate

section Loops

variable {σ : Type} {turn? : σ → Option σ} {s s' s'' : σ} {n : Nat}

/-- The state after some turns of a loop; none if the loop was over before. -/
def turns (turn? : σ → Option σ) : (n : Nat) → σ → Option σ
  | 0, s => some s
  | n + 1, s => (turn? s).bind (turns turn? n)

/-- From a state on a loop makes exactly so many turns, and then it is over. -/
def EndsAfter (turn? : σ → Option σ) (n : Nat) (s s' : σ) : Prop :=
  turns turn? n s = some s' ∧ turn? s' = none

theorem EndsAfter.zero (h : turn? s = none) : EndsAfter turn? 0 s s := ⟨rfl, h⟩

theorem EndsAfter.succ (h : turn? s = some s') (he : EndsAfter turn? n s' s'') :
    EndsAfter turn? (n + 1) s s'' := by
  refine ⟨?_, he.2⟩
  rw [turns, h]
  exact he.1

/-- What every turn keeps holds after any number of turns. -/
theorem of_turns {P : σ → Prop} (hkept : ∀ {s s'}, P s → turn? s = some s' → P s') (hs : P s)
    (h : turns turn? n s = some s') : P s' := by
  induction n generalizing s with
  | zero => exact Option.some.inj h ▸ hs
  | succ n ih =>
    obtain ⟨t, ht, hrest⟩ := Option.bind_eq_some_iff.mp h
    exact ih (hkept hs ht) hrest

end Loops

namespace Document

variable {d d' : Document} {i j : NodeId} {pending rest freed : List NodeId} {n : Nat}

/-- Where the loop of a release stands: the document, and the places that are still to be visited, the next one
first. -/
structure Sweep where
  document : Document
  pending : List NodeId

/-- One turn of the loop. A place that is not live is passed over and a pinned node loses its parent. Another node
is given back, and its template content and its children are visited next, the last child first. -/
def Sweep.turn? : Sweep → Option Sweep
  | ⟨_, []⟩ => none
  | ⟨d, i :: rest⟩ =>
    if d.isLive i then
      if d.isPinned i then some ⟨d.setParent i none, rest⟩
      else some ⟨d.vacate i, (d.content? i).toList ++ (d.children i).reverse ++ rest⟩
    else some ⟨d, rest⟩

/-! ## The end of the loop -/

/-- The links of a place that the loop follows. -/
theorem length_owned (d : Document) (i : NodeId) :
    ((d.content? i).toList ++ (d.children i).reverse).length = (d.below i).length := by
  simp [below, Nat.add_comm]

/-- From a list of places on the loop gives back the places `freed`, the last one first, and ends in `d'`. It makes
one turn for each place on the list and one for each link of a place that it gives back. -/
structure Ends (d : Document) (pending freed : List NodeId) (d' : Document) : Prop where
  ends : EndsAfter Sweep.turn? (pending.length + (freed.map fun j => (d.below j).length).sum)
    ⟨d, pending⟩ ⟨d', []⟩
  free_eq : d'.free = freed ++ d.free
  nodup : freed.Nodup
  mem_iff : ∀ j, j ∈ freed ↔ d.isLive j = true ∧ d'.isLive j = false

theorem ends_nil (d : Document) : Ends d [] [] d where
  ends := .zero rfl
  free_eq := rfl
  nodup := List.nodup_nil
  mem_iff j := by simp

theorem Ends.skip (hl : d.isLive i ≠ true) (e : Ends d rest freed d') : Ends d (i :: rest) freed d' where
  ends := by
    rw [List.length_cons, Nat.add_right_comm]
    exact .succ (by simp [Sweep.turn?, hl]) e.ends
  free_eq := e.free_eq
  nodup := e.nodup
  mem_iff := e.mem_iff

/-- A pinned node keeps what it owns, so that the rest of the loop is the same. -/
theorem Ends.detach (hl : d.isLive i = true) (hi : d.isPinned i = true)
    (e : Ends (d.setParent i none) rest freed d') : Ends d (i :: rest) freed d' := by
  have hnode := node_setParent (d := d) (i := i) (p := none) (Or.inr rfl)
  have hbelow : (d.setParent i none).below = d.below := by
    funext j
    rw [below, below, children_eq, children_eq, content?_eq, content?_eq, hnode]
    split
    · next hj => rw [hj]
    · rfl
  have hlive : ∀ j, (d.setParent i none).isLive j = d.isLive j := by
    intro j
    rw [isLive_eq, hnode, isLive_eq]
    split
    · next hj => rw [hj]
    · rfl
  refine ⟨?_, ?_, e.nodup, fun j => ?_⟩
  · rw [List.length_cons, Nat.add_right_comm, ← hbelow]
    exact .succ (by simp [Sweep.turn?, hl, hi]) e.ends
  · rw [e.free_eq, (sameFrame_setParent d i none).free_eq]
  · rw [e.mem_iff, hlive]

/-- A node that is given back is not live from then on, so that it is not given back again. -/
theorem Ends.vacate (hl : d.isLive i = true) (hn : d.isPinned i = false)
    (hdead : ∀ {j}, (d.vacate i).isLive j = false → d'.isLive j = false)
    (e : Ends (d.vacate i) ((d.content? i).toList ++ (d.children i).reverse ++ rest) freed d') :
    Ends d (i :: rest) (freed ++ [i]) d' := by
  have hnode := node_vacate hl
  have hself : (d.vacate i).isLive i = false := by rw [isLive_eq, hnode, if_pos rfl]; rfl
  have hlive : ∀ {j}, j ≠ i → (d.vacate i).isLive j = d.isLive j := by
    intro j hj
    rw [isLive_eq, hnode, if_neg hj, isLive_eq]
  have hfresh : i ∉ freed := by
    rw [e.mem_iff, hself]
    simp
  -- The places that are given back later have their links still.
  have hbelow : freed.map (fun j => ((d.vacate i).below j).length) =
      freed.map fun j => (d.below j).length := by
    refine List.map_congr_left fun j hj => ?_
    have hji : j ≠ i := by
      rintro rfl
      exact hfresh hj
    rw [below, below, children_eq, children_eq, content?_eq, content?_eq, hnode, if_neg hji]
  refine ⟨?_, ?_, ?_, fun j => ?_⟩
  · have hcount : (i :: rest).length + ((freed ++ [i]).map fun j => (d.below j).length).sum =
        ((d.content? i).toList ++ (d.children i).reverse ++ rest).length +
          (freed.map fun j => ((d.vacate i).below j).length).sum + 1 := by
      rw [hbelow, List.length_append, length_owned]
      simp only [List.length_cons, List.map_append, List.map_cons, List.map_nil, List.sum_append,
        List.sum_singleton]
      omega
    rw [hcount]
    exact .succ (by simp [Sweep.turn?, hl, hn]) e.ends
  · rw [e.free_eq, List.append_assoc]
    rfl
  · rw [List.nodup_append]
    refine ⟨e.nodup, List.nodup_singleton i, fun j hj k hk => ?_⟩
    rintro rfl
    exact hfresh (List.mem_singleton.mp hk ▸ hj)
  · rw [List.mem_append, List.mem_singleton, e.mem_iff]
    by_cases hji : j = i
    · subst hji
      simp [hl, hself, hdead hself]
    · simp [hji, hlive hji]

/-- The loop ends on every document. -/
theorem exists_ends (d : Document) (pending : List NodeId) :
    ∃ freed, Ends d pending freed (d.releaseAll pending) := by
  fun_induction releaseAll d pending with
  | case1 d => exact ⟨[], ends_nil d⟩
  | case2 d i rest hl hi ih =>
    obtain ⟨freed, e⟩ := ih
    exact ⟨freed, e.detach hl hi⟩
  | case3 d i rest hl hi ih =>
    obtain ⟨freed, e⟩ := ih
    have r := released_releaseAll (d.vacate i) ((d.content? i).toList ++ (d.children i).reverse ++ rest)
    refine ⟨freed ++ [i], e.vacate hl (by simpa using hi) fun {j} hj => ?_⟩
    rw [isLive_eq, r.kept j fun _ => hj]
    exact hj
  | case4 d i rest hl ih =>
    obtain ⟨freed, e⟩ := ih
    exact ⟨freed, e.skip hl⟩

/-! ## Places of the table -/

/-- All links lead to places of the table. -/
def InRange (d : Document) : Prop := ∀ i < d.nodes.size, ∀ j ∈ d.linked i, j < d.nodes.size

instance (d : Document) : Decidable d.InRange :=
  inferInstanceAs (Decidable (∀ i < d.nodes.size, ∀ j ∈ d.linked i, j < d.nodes.size))

theorem mem_linked_iff : j ∈ d.linked i ↔ d.Owns i j ∨ d.parent i = some j := by
  simp [linked, Owns]

theorem InRange.of_linked (h : d.InRange) (hsize : d'.nodes.size = d.nodes.size)
    (hsub : ∀ {i j}, j ∈ d'.linked i → j ∈ d.linked i) : d'.InRange := by
  intro i hi j hj
  rw [hsize] at hi ⊢
  exact h i hi j (hsub hj)

theorem InRange.detach (h : d.InRange) (i : NodeId) : (d.detach i).InRange := by
  have r := relinked_detach d root i
  refine h.of_linked r.size_eq fun hj => ?_
  rw [mem_linked_iff] at hj ⊢
  exact hj.imp (fun hc => (r.owner hc).resolve_right (by simp))
    fun hp => (r.parent_cases hp).resolve_right (by simp)

theorem InRange.setParent_none (h : d.InRange) (i : NodeId) : (d.setParent i none).InRange := by
  have hnode := node_setParent (d := d) (i := i) (p := none) (Or.inr rfl)
  refine h.of_linked (sameFrame_setParent d i none).size_eq fun {k j} hj => ?_
  rw [mem_linked_iff, owns_iff, children_eq, content?_eq, parent_eq, hnode] at hj
  rw [mem_linked_iff, owns_iff, children_eq, content?_eq, parent_eq]
  split at hj
  · next hk =>
    rw [hk]
    exact Or.inl (hj.resolve_right (by simp))
  · exact hj

theorem InRange.vacate (h : d.InRange) (hl : d.isLive i = true) : (d.vacate i).InRange := by
  have hnode := node_vacate hl
  refine h.of_linked (by simp [Document.vacate, setNode]) fun {k j} hj => ?_
  rw [mem_linked_iff, owns_iff, children_eq, content?_eq, parent_eq, hnode] at hj
  rw [mem_linked_iff, owns_iff, children_eq, content?_eq, parent_eq]
  split at hj
  · simp [Node.vacant, contentOf?] at hj
  · exact hj

/-- The loop works on a table of `n` places, and nothing leads out of it. -/
structure Sweep.Within (n : Nat) (s : Sweep) : Prop where
  size_eq : s.document.nodes.size = n
  inRange : s.document.InRange
  pending : ∀ j ∈ s.pending, j < n

theorem Sweep.Within.turn {s s' : Sweep} (h : s.Within n) (ht : s.turn? = some s') : s'.Within n := by
  obtain ⟨d, pending⟩ := s
  obtain ⟨rfl, hrange, hpending⟩ := h
  cases pending with
  | nil => cases ht
  | cons i rest =>
    have hrest : ∀ j ∈ rest, j < d.nodes.size := fun j hj => hpending j (List.mem_cons_of_mem _ hj)
    simp only [turn?] at ht
    split at ht
    · next hl =>
      split at ht
      · obtain rfl := Option.some.inj ht
        exact ⟨(sameFrame_setParent d i none).size_eq, hrange.setParent_none i, hrest⟩
      · obtain rfl := Option.some.inj ht
        refine ⟨by simp [Document.vacate, setNode], hrange.vacate hl, fun j hj => ?_⟩
        rcases List.mem_append.mp hj with hj | hj
        · refine hrange i (lt_size_of_isLive hl) j (mem_linked_iff.mpr (Or.inl ?_))
          rw [owns_iff]
          simpa [or_comm] using hj
        · exact hrest j hj
    · obtain rfl := Option.some.inj ht
      exact ⟨rfl, hrange, hrest⟩

/-! ## The release -/

/-- Whatever a document's links are like, as long as they lead to places of the table, a release ends. Its loop
makes one turn for the node and one for each child and each template content of a place that it gives back, and
at none of them it leaves the table. It gives back the places that were live and not pinned and that it came to, each
of them once. -/
theorem release_ends (h : d.InRange) (hi : i < d.nodes.size) :
    (i = root → d.release i = d) ∧
    (i ≠ root → ∃ freed : List NodeId,
      EndsAfter Sweep.turn? (1 + (freed.map fun j => ((d.detach i).below j).length).sum)
        ⟨d.detach i, [i]⟩ ⟨d.release i, []⟩ ∧
      (d.release i).free = freed ++ d.free ∧ freed.Nodup ∧
      (∀ j, j ∈ freed ↔ (d.detach i).Met [i] j ∧ d.isLive j = true ∧ j ∉ d.pinned) ∧
      (∀ j ∈ freed, (d.release i).node j = .vacant) ∧
      ∀ n s, turns Sweep.turn? n ⟨d.detach i, [i]⟩ = some s → s.Within d.nodes.size) := by
  refine ⟨fun hr => by rw [hr, release_root], fun hr => ?_⟩
  have f := relinked_detach d root i
  have hrel : d.release i = (d.detach i).releaseAll [i] := by rw [release, if_neg hr]
  obtain ⟨freed, e⟩ := exists_ends (d.detach i) [i]
  have r := released_releaseAll (d.detach i) [i]
  rw [← hrel] at e r
  have hmem : ∀ j, j ∈ freed ↔ (d.detach i).Met [i] j ∧ d.isLive j = true ∧ j ∉ d.pinned := by
    intro j
    rw [e.mem_iff, ← Bool.not_eq_true, r.isLive_eq_true_iff, f.isLive_eq, f.pinned_eq]
    tauto
  refine ⟨freed, e.ends, by rw [e.free_eq, f.free_eq], e.nodup, hmem, fun j hj => ?_, fun n s hs => ?_⟩
  · obtain ⟨hm, hl, hn⟩ := (hmem j).mp hj
    exact r.vacated j hm (by rwa [f.isLive_eq]) (by rwa [f.pinned_eq])
  · exact of_turns Sweep.Within.turn ⟨f.size_eq, h.detach i, by simpa using hi⟩ hs

/-- A division and a template below each other, the template below the division twice and its content above the
division, with a text that is pinned and a child that was given back before. -/
theorem release_ends_on_circles :
    let d : Document :=
      { nodes := #[{ kind := .document },
          { kind := .element { name := "div" }, children := [2, 2, 3] },
          { kind := .element { name := "template", content := some 4 }, parent := some 1, children := [1, 3] },
          .vacant,
          { kind := .fragment, children := [1, 5] },
          { kind := .text "a", parent := some 4 }]
        free := [3]
        pinned := [5] }
    d.InRange ∧ 1 < d.nodes.size ∧
      ∃ freed : List NodeId, freed.Nodup ∧ (d.release 1).free = freed ++ [3] ∧
        (∀ j ∈ [1, 2, 4], j ∈ freed) ∧ (∀ j ∈ [3, 5], j ∉ freed) ∧
        EndsAfter Sweep.turn? (1 + (freed.map fun j => ((d.detach 1).below j).length).sum)
          ⟨d.detach 1, [1]⟩ ⟨d.release 1, []⟩ := by
  intro d
  have h : d.InRange := by decide +kernel
  have hi : 1 < d.nodes.size := by decide
  obtain ⟨freed, hends, hfree, hnodup, hmem, -⟩ := (release_ends h hi).2 (by decide)
  obtain ⟨hlive, hpinned, hdiv, htemplate⟩ : (∀ j ∈ [1, 2, 4], d.isLive j = true ∧ j ∉ d.pinned) ∧
      (∀ j ∈ [3, 5], d.isLive j = false ∨ j ∈ d.pinned) ∧
      2 ∈ (d.detach 1).below 1 ∧ 4 ∈ (d.detach 1).below 2 := by
    decide +kernel
  obtain ⟨hl1, hn1⟩ : (d.detach 1).isLive 1 = true ∧ 1 ∉ (d.detach 1).pinned := by decide +kernel
  obtain ⟨hl2, hn2⟩ : (d.detach 1).isLive 2 = true ∧ 2 ∉ (d.detach 1).pinned := by decide +kernel
  have m1 : (d.detach 1).Met [1] 1 := .start (by simp)
  have m2 : (d.detach 1).Met [1] 2 := m1.step hl1 hn1 hdiv
  have m4 : (d.detach 1).Met [1] 4 := m2.step hl2 hn2 htemplate
  refine ⟨h, hi, freed, hnodup, hfree, fun j hj => (hmem j).mpr ⟨?_, hlive j hj⟩, fun j hj hf => ?_, hends⟩
  · rcases List.mem_cons.mp hj with rfl | hj
    · exact m1
    rcases List.mem_cons.mp hj with rfl | hj
    · exact m2
    · exact List.mem_singleton.mp hj ▸ m4
  · obtain ⟨-, hl, hn⟩ := (hmem j).mp hf
    rcases hpinned j hj with hdead | hpin
    · rw [hl] at hdead
      cases hdead
    · exact hn hpin

end Document

end Hypertemplate
