import Mathlib
import Hypertemplate.Proofs.Document.Effects

/-!
# Places that were given back

A place that was given back reads as an empty fragment without parent, until something is put below it or it
is put below something itself. So such places stay empty, and no node has a parent that does not list it, where
nothing is put below them and they are put nowhere, and there only (`inert_iff`). Any other edit may be asked
for on them.
-/

namespace Hypertemplate

/-- The nodes that an edit is asked for on. -/
def Edit.nodes : Edit → List NodeId
  | .append parent child => [parent, child]
  | .replace node replacement => [node, replacement]
  | .detach node | .clear node | .clone node _ | .setText node _ | .setAttribute node _ _
  | .removeAttribute node _ | .setValue node _ | .pin node | .release node => [node]
  | .createElement _ | .createText _ | .createComment _ | .createFragment | .setDoctype _ => []

namespace Document

variable {d d' : Document} {e : Edit} {i p : NodeId} {l : NodeId × NodeId} {is new starts : List NodeId}
  {result : Option NodeId × Document}

/-- Places that were given back read as empty fragments without parent, and parents list their children. -/
structure Inert (d : Document) : Prop where
  vacant : ∀ i ∈ d.free, d.kind i = .fragment ∧ d.parent i = none ∧ d.children i = []
  listed : ∀ x p, d.parent x = some p → x ∈ d.children p

/-- An edit is asked for on places of the table. -/
def InTable (d : Document) (e : Edit) : Prop := ∀ i ∈ e.nodes, i < d.nodes.size

/-- An edit puts nothing below a place that was given back, and puts no such place below a node. -/
def LeavesFree (d : Document) (e : Edit) : Prop := ∀ l ∈ d.puts e, l.1 ∉ d.free ∧ l.2 ∉ d.free

instance (d : Document) (e : Edit) : Decidable (InTable d e) :=
  inferInstanceAs (Decidable (∀ i ∈ e.nodes, i < d.nodes.size))

instance (d : Document) (e : Edit) : Decidable (LeavesFree d e) :=
  inferInstanceAs (Decidable (∀ l ∈ d.puts e, l.1 ∉ d.free ∧ l.2 ∉ d.free))

theorem Sound.inert (h : d.Sound) : Inert d where
  vacant i hi := by
    have hv := h.vacant (h.mem_free_iff.mp hi).2
    rw [kind_eq, parent_eq, children_eq, hv]
    exact ⟨rfl, rfl, rfl⟩
  listed _ _ := h.child_iff.mpr

namespace Inert

/-- It is enough to look at the nodes. -/
theorem congr (h : Inert d) (hfree : ∀ i ∈ d'.free, i ∈ d.free)
    (hkind : ∀ j, d.kind j = .fragment → d'.kind j = .fragment)
    (hparent : ∀ j, d'.parent j = d.parent j) (hchildren : ∀ j, d'.children j = d.children j) : Inert d' where
  vacant i hi := by
    obtain ⟨hk, hp, hc⟩ := h.vacant i (hfree i hi)
    exact ⟨hkind i hk, by rw [hparent, hp], by rw [hchildren, hc]⟩
  listed x p hp := by
    rw [hparent] at hp
    rw [hchildren]
    exact h.listed x p hp

/-- A place that is not live has no children. -/
theorem children_eq_nil (h : Inert d) (ha : d.Accounted) (hi : d.isLive i = false) : d.children i = [] := by
  by_cases hlt : i < d.nodes.size
  · exact (h.vacant i (ha.mem_free_iff.mpr ⟨hlt, hi⟩)).2.2
  · rw [children_eq, node_of_size_le (Nat.le_of_not_lt hlt)]
    rfl

/-- A node with a parent is live. -/
theorem isLive_of_parent (h : Inert d) (ha : d.Accounted) (hp : d.parent i = some p) : d.isLive i = true := by
  by_contra hl
  have hi := ha.mem_free_iff.mpr ⟨lt_size_of_parent hp, by simpa using hl⟩
  rw [(h.vacant i hi).2.1] at hp
  cases hp

theorem allocate (h : Inert d) (ha : d.Accounted) (k : Kind) : Inert (d.allocate k).2 where
  vacant i hi := by
    obtain ⟨hi, hne⟩ := ((free_allocate ha k).2 i).mp hi
    rw [kind_eq, parent_eq, children_eq, (allocated_allocate ha k).node_ne hne]
    exact h.vacant i hi
  listed x p hp := by
    have a := allocated_allocate ha k
    by_cases hx : x = (d.allocate k).1
    · rw [hx, a.parent_self] at hp
      cases hp
    · rw [parent_eq, a.node_ne hx] at hp
      have hmem := h.listed x p hp
      have hpne : p ≠ (d.allocate k).1 := by
        rintro rfl
        rw [h.children_eq_nil ha a.fresh] at hmem
        cases hmem
      rwa [children_eq, a.node_ne hpne]

theorem relinked (h : Inert d) (r : Relinked d p new d')
    (hnew : ∀ x ∈ new, x ∉ d.free ∧ p ∉ d.free ∧ p < d.nodes.size) : Inert d' where
  vacant i hi := by
    rw [r.free_eq] at hi
    obtain ⟨hk, hp, hc⟩ := h.vacant i hi
    refine ⟨by rw [r.kind_eq, hk], r.parent_eq_none hp fun hmem => (hnew i hmem).1 hi, ?_⟩
    rw [List.eq_nil_iff_forall_not_mem]
    intro c hmem
    rcases r.children_cases hmem with hmem | ⟨hmem, rfl⟩
    · rw [hc] at hmem
      cases hmem
    · exact (hnew c hmem).2.1 hi
  listed x q hq := by
    rcases r.parent_cases hq with hold | ⟨hmem, rfl⟩
    · exact r.children_kept hq (h.listed x q hold)
    · exact r.children_new hmem (hnew x hmem).2.2

theorem allocates (h : Inert d) (ha : d.Accounted) (a : Allocates d is d') : Inert d' := by
  induction a with
  | refl => exact h
  | allocate a k _ ih => exact ih.allocate (a.accounted ha) k
  | @adopt is d' p c a hp hc _ _ ih =>
    have hlive : ∀ {j}, j ∈ is → d'.isLive j = true := fun hj => (a.isLive_iff ha).mpr (Or.inr hj)
    have hfree : ∀ {j}, j ∈ is → j ∉ d'.free := by
      intro j hj hmem
      have hdead := ((a.accounted ha).mem_free_iff.mp hmem).2
      rw [hlive hj] at hdead
      cases hdead
    refine ih.relinked (relinked_adopt d' p c) fun x hx => ?_
    obtain rfl := List.mem_singleton.mp hx
    exact ⟨hfree hc, hfree hp, lt_size_of_isLive (hlive hp)⟩

/-- The children of a place that is given back lose their parent. -/
theorem released (h : Inert d) (ha : d.Accounted) (r : Released d starts d') : Inert d' where
  vacant i hi := by
    rcases (r.mem_free_iff i).mp hi with hi | ⟨hm, hl, hn⟩
    · have hdead := (ha.mem_free_iff.mp hi).2
      rw [kind_eq, parent_eq, children_eq, r.kept i fun _ => hdead]
      exact h.vacant i hi
    · rw [kind_eq, parent_eq, children_eq, r.vacated i hm hl hn]
      exact ⟨rfl, rfl, rfl⟩
  listed x q hq := by
    have hold : ¬ d.Met starts x ∧ d.parent x = some q := by
      by_cases hm : d.Met starts x
      · exfalso
        by_cases hl : d.isLive x = true
        · rw [(r.parent_eq x).2 hm hl] at hq
          cases hq
        · have hdead : d.isLive x = false := by simpa using hl
          rw [parent_eq, r.kept x fun _ => hdead] at hq
          exact hl (h.isLive_of_parent ha hq)
      · exact ⟨hm, by rwa [(r.parent_eq x).1 hm] at hq⟩
    have hmem := h.listed x q hold.2
    have hql : d.isLive q = true := by
      by_contra hl
      rw [h.children_eq_nil ha (by simpa using hl)] at hmem
      cases hmem
    have hkept : d'.isLive q = true := by
      refine (r.isLive_eq_true_iff q).mpr ⟨hql, fun hm => ?_⟩
      by_contra hn
      exact hold.1 (hm.step hql hn (owns_iff.mpr (Or.inl hmem)))
    rwa [r.children_eq_of_isLive hkept]

theorem lt_size_of_mem_puts (h : Inert d) (he : InTable d e) (hl : l ∈ d.puts e) : l.1 < d.nodes.size := by
  rcases puts_cases hl with ⟨child, rfl, -⟩ | ⟨node, replacement, rfl, hp, -⟩
  · exact he l.1 (by simp [Edit.nodes])
  · exact lt_size_of_mem_children (h.listed node l.1 hp)

theorem effect (h : Inert d) (ha : d.Accounted) (f : Effect d e result) (he : InTable d e)
    (hfree : LeavesFree d e) : Inert result.2 := by
  cases f with
  | make y =>
    obtain ⟨is, a, -, -⟩ := y
    exact h.allocates ha a
  | relabel r =>
    refine h.congr (fun i hi => by rwa [r.free_eq] at hi) (fun j hj => ?_) r.parent_eq r.children_eq
    exact eq_fragment_of_shape (r.shape_eq j).symm hj
  | @keep d' hnodes hf =>
    have hnode : ∀ j, d'.node j = d.node j := fun j => by simp only [node, hnodes]
    refine h.congr (fun i hi => by rwa [hf] at hi) (fun j hj => ?_) (fun j => ?_) fun j => ?_
    · rw [kind_eq, hnode]
      exact hj
    · rw [parent_eq, hnode, parent_eq]
    · rw [children_eq, hnode, children_eq]
  | relink r hputs =>
    refine h.relinked r fun x hx => ?_
    have hmem := hputs x hx
    exact ⟨(hfree _ hmem).2, (hfree _ hmem).1, h.lt_size_of_mem_puts he hmem⟩
  | @release d' i _ r =>
    have hdetach := relinked_detach d root i
    exact (h.relinked hdetach (by simp)).released (hdetach.accounted ha) r

/-- An edit after which places that were given back are empty put nothing there, and none of them down. -/
theorem leavesFree (h : Inert d) (ha : d.Accounted) {n : Nat} (h' : Inert (d.performWithin n e).2) :
    LeavesFree d e := by
  intro l hl
  obtain ⟨new, r, hnew⟩ : ∃ new, Relinked d l.1 new (d.performWithin n e).2 ∧ l.2 ∈ new :=
    relinked_of_mem_puts hl
  constructor
  · intro hi
    have hmem := r.children_new hnew (ha.mem_free_iff.mp hi).1
    rw [(h'.vacant l.1 (r.free_eq ▸ hi)).2.2] at hmem
    cases hmem
  · intro hi
    have hnone := (h.vacant l.2 hi).2.1
    have hp : (d.performWithin n e).2.parent l.2 = some l.1 :=
      parent_of_mem_puts hl (ha.mem_free_iff.mp hi).1 (by simp [hnone])
    rw [(h'.vacant l.2 (r.free_eq ▸ hi)).2.1] at hp
    cases hp

end Inert

/-- In a sequence of edits, asked for on released nodes too, places that were given back read as empty
fragments without parent until they are taken again, and no node has a parent that does not list it, if and
only if no edit puts anything below such a place or puts such a place below a node. -/
theorem inert_iff (page : Option String) (levels : Document → Nat) (es : List Edit)
    (h : AtEach levels InTable (opened page) es) :
    Throughout levels Inert (opened page) es ↔ AtEach levels LeavesFree (opened page) es :=
  throughout_iff_atEach (I := fun d => d.Accounted ∧ Inert d) And.right
    (fun n e h he hfree => ⟨h.1.performWithin n e, h.2.effect h.1 (effect_performWithin h.1 n e) he hfree⟩)
    (fun _ _ h _ h' => h.2.leavesFree h.1 h') es
    ⟨(wellFormed_opened page).accounted, (wellFormed_opened page).inert⟩ h

/-- A released node may be renamed, cleared, detached, pinned, copied and released again. -/
theorem inert_iff_released_again :
    AtEach copyLevels InTable (opened none)
        [.createText "a", .release 1, .setText 1 "b", .clear 1, .detach 1, .clone 1 true, .release 1,
          .append root 1, .createText "c"] ∧
      Throughout copyLevels Inert (opened none)
        [.createText "a", .release 1, .setText 1 "b", .clear 1, .detach 1, .clone 1 true, .release 1,
          .append root 1, .createText "c"] := by
  have h : AtEach copyLevels InTable (opened none)
      [.createText "a", .release 1, .setText 1 "b", .clear 1, .detach 1, .clone 1 true, .release 1,
        .append root 1, .createText "c"] := of_decide_eq_true (by cbv)
  exact ⟨h, (inert_iff none copyLevels _ h).mpr (of_decide_eq_true (by cbv))⟩

/-- A node is put below a released one. The place of this is taken again by a node without children, and the
node below keeps that as parent. -/
theorem child_below_released :
    AtEach copyLevels InTable (opened none)
        [.createElement "div", .createElement "p", .release 1, .append 1 2, .createText "a"] ∧
      ¬ Throughout copyLevels Inert (opened none)
        [.createElement "div", .createElement "p", .release 1, .append 1 2, .createText "a"] ∧
      ((opened none).edited
        [.createElement "div", .createElement "p", .release 1, .append 1 2]).children 1 = [2] ∧
      1 ∈ ((opened none).edited
        [.createElement "div", .createElement "p", .release 1, .append 1 2]).free := by
  refine ⟨of_decide_eq_true (by cbv), fun h => ?_, by cbv, of_decide_eq_true (by cbv)⟩
  have hparent : ((opened none).edited [.createElement "div", .createElement "p", .release 1, .append 1 2,
      .createText "a"]).parent 2 = some 1 := by cbv
  have hchildren : ((opened none).edited [.createElement "div", .createElement "p", .release 1, .append 1 2,
      .createText "a"]).children 1 = [] := by cbv
  have hmem := h.edited.listed 2 1 hparent
  rw [hchildren] at hmem
  cases hmem

end Document

end Hypertemplate
