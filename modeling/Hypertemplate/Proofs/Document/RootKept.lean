import Mathlib
import Hypertemplate.Proofs.Document.Effects
import Hypertemplate.Proofs.Document.Walks

/-!
# The root stays

A release passes over the root that it is asked for, but not over a root that it comes to from above. So the
root stays where nothing puts it below another node, and there only (`root_stays_iff`).
-/

namespace Hypertemplate.Document

variable {d d' : Document} {e : Edit} {i p : NodeId} {is new : List NodeId}
  {result : Option NodeId × Document}

/-- The root is there as the document, no edit returns it as a new node, and the connected nodes are the root
and those that it is above. -/
def RootStays (d : Document) : Prop :=
  d.isLive root = true ∧ d.kind root = .document ∧ (∀ n e, (d.performWithin n e).1 ≠ some root) ∧
    ∀ i, d.isConnected i = true ↔ ∃ k, d.above? k i = some root

/-- An edit puts no node below itself. -/
def NotBelowItself (d : Document) (e : Edit) : Prop := ∀ l ∈ d.puts e, l.2 ∉ d.ancestors l.1

/-- An edit puts the root below no node. -/
def LeavesRoot (d : Document) (e : Edit) : Prop := ∀ l ∈ d.puts e, l.2 ≠ root

instance (d : Document) (e : Edit) : Decidable (NotBelowItself d e) :=
  inferInstanceAs (Decidable (∀ l ∈ d.puts e, l.2 ∉ d.ancestors l.1))

instance (d : Document) (e : Edit) : Decidable (LeavesRoot d e) :=
  inferInstanceAs (Decidable (∀ l ∈ d.puts e, l.2 ≠ root))

theorem Relinked.rising_of_puts (r : Relinked d p new d') (hputs : ∀ x ∈ new, (p, x) ∈ d.puts e)
    (h : d.Rising) (he : NotBelowItself d e) : d'.Rising :=
  r.rising h fun x hx k hk => he _ (hputs x hx) (h.mem_ancestors.mpr ⟨k, hk⟩)

/-- Where no node is put below itself, no node comes to be above itself. -/
theorem Effect.rising (f : Effect d e result) (ha : d.Accounted) (h : d.Rising) (he : NotBelowItself d e) :
    result.2.Rising := by
  cases f with
  | make y =>
    obtain ⟨is, a, -, -⟩ := y
    exact a.rising ha h
  | relabel r => exact h.of_parent fun hc => by rwa [r.parent_eq] at hc
  | keep hnodes _ => exact h.of_parent fun hc => by rwa [parent, node, hnodes] at hc
  | relink r hputs => exact r.rising_of_puts hputs h he
  | @release d' i _ r =>
    have hdetached := (relinked_detach d root i).rising h (by simp)
    refine hdetached.of_parent fun {c q} hc => ?_
    by_cases hm : (d.detach i).Met [i] c ∧ (d.detach i).isLive c = true
    · rw [(r.parent_eq c).2 hm.1 hm.2] at hc
      cases hc
    · rwa [parent_eq, r.kept c fun hmet => by simpa [hmet] using hm] at hc

/-- The root is there as the document with nothing above it, and no node is above itself. -/
structure Rooted (d : Document) : Prop where
  accounted : d.Accounted
  rising : d.Rising
  orphan : d.Orphan root
  kind_eq : d.kind root = .document
  parent_eq : d.parent root = none

namespace Rooted

theorem opened (page : Option String) : Rooted (opened page) := by
  have hw := wellFormed_opened page
  have ho : (Document.opened page).Orphan root ∧ (Document.opened page).kind root = .document := by
    cases page with
    | none => exact ⟨⟨rfl, fun _ => not_owns_empty⟩, rfl⟩
    | some html => exact ⟨orphan_root_parse html, (appended_parse html).kind_eq⟩
  exact ⟨hw.accounted, hw.rising, ho.1, ho.2, hw.parent_of_orphan ho.1⟩

theorem stays (h : Rooted d) : RootStays d := by
  refine ⟨h.orphan.live, h.kind_eq, fun n e hi => ?_, fun i => ?_⟩
  · obtain ⟨is, a, hmem⟩ := h.accounted.allocates hi
    exact a.not_mem h.accounted h.orphan.live hmem
  · rw [h.rising.isConnected_iff]
    exact and_iff_left h.parent_eq

/-- It is enough that the root is as before and got no owner. -/
theorem of_node_eq (h : Rooted d) (haccounted : d'.Accounted) (hrising : d'.Rising)
    (hnode : d'.node root = d.node root) (hown : ∀ p, d'.Owns p root → ∃ q, d.Owns q root) : Rooted d' where
  accounted := haccounted
  rising := hrising
  orphan :=
    { live := by
        rw [isLive_eq, hnode]
        exact h.orphan.live
      unowned := fun p hp => by
        obtain ⟨q, hq⟩ := hown p hp
        exact h.orphan.unowned q hq }
  kind_eq := by
    rw [Document.kind_eq, hnode]
    exact h.kind_eq
  parent_eq := by
    rw [Document.parent_eq, hnode]
    exact h.parent_eq

theorem allocates (h : Rooted d) (a : Allocates d is d') (hrising : d'.Rising) : Rooted d' := by
  refine h.of_node_eq (a.accounted h.accounted) hrising (a.node_eq h.accounted h.orphan.live) fun p hp => ?_
  exact (a.owned_cases h.accounted hp).resolve_left (a.not_mem h.accounted h.orphan.live)

theorem relabelled (h : Rooted d) (r : Relabelled d d') (haccounted : d'.Accounted) (hrising : d'.Rising) :
    Rooted d' where
  accounted := haccounted
  rising := hrising
  orphan := r.orphan_iff.mpr h.orphan
  kind_eq := by
    have hshape := r.shape_eq root
    rw [h.kind_eq] at hshape
    cases hk : d'.kind root <;> simp_all [Kind.shape]
  parent_eq := by
    rw [r.parent_eq]
    exact h.parent_eq

theorem relinked (h : Rooted d) (r : Relinked d p new d') (hnew : root ∉ new) (hrising : d'.Rising) :
    Rooted d' where
  accounted := r.accounted h.accounted
  rising := hrising
  orphan :=
    { live := by
        rw [r.isLive_eq]
        exact h.orphan.live
      unowned := fun q hq => by
        rcases r.owner hq with hq | ⟨hmem, -⟩
        · exact h.orphan.unowned q hq
        · exact hnew hmem }
  kind_eq := by
    rw [r.kind_eq]
    exact h.kind_eq
  parent_eq := r.parent_eq_none h.parent_eq hnew

/-- A release does not come to the root from above. -/
theorem released (h : Rooted d) (hi : i ≠ root) (r : Released d [i] d') (hrising : d'.Rising) :
    Rooted d' := by
  have hmet : ¬ d.Met [i] root := by
    intro hm
    rcases hm.cases_owner with he | ⟨p, -, -, -, hp⟩
    · exact hi he.symm
    · exact h.orphan.unowned p hp
  exact h.of_node_eq (r.accounted h.accounted) hrising (r.kept root fun hm => absurd hm hmet) fun p hp =>
    ⟨p, r.owner hp⟩

theorem effect (h : Rooted d) (f : Effect d e result) (he : NotBelowItself d e) (hroot : LeavesRoot d e) :
    Rooted result.2 := by
  have hrising := f.rising h.accounted h.rising he
  have haccounted := f.accounted h.accounted
  cases f with
  | make y =>
    obtain ⟨is, a, -, -⟩ := y
    exact h.allocates a hrising
  | relabel r => exact h.relabelled r haccounted hrising
  | @keep d' hnodes _ =>
    have hnode : ∀ j, d'.node j = d.node j := fun j => by simp only [node, hnodes]
    exact h.of_node_eq haccounted hrising (hnode root) fun p hp => ⟨p, (owns_congr (hnode p)).mp hp⟩
  | relink r hputs => exact h.relinked r (fun hmem => hroot _ (hputs root hmem) rfl) hrising
  | @release d' i hi r =>
    have hdetach := relinked_detach d root i
    exact (h.relinked hdetach (by simp) (hdetach.rising h.rising (by simp))).released hi r hrising

/-- An edit after which the root stays did not put it below a node. -/
theorem leavesRoot (h : Rooted d) {n : Nat} (he : NotBelowItself d e)
    (hstays : RootStays (d.performWithin n e).2) : LeavesRoot d e := by
  intro l hl hroot
  have hrising := (effect_performWithin h.accounted n e).rising h.accounted h.rising he
  have hconnected := (hstays.2.2.2 root).mpr ⟨0, rfl⟩
  have hnone := (hrising.isConnected_iff.mp hconnected).2
  have hparent : (d.performWithin n e).2.parent l.2 = some l.1 := by
    refine parent_of_mem_puts hl ?_ ?_
    · rw [hroot]
      exact lt_size_of_isLive h.orphan.live
    · rw [hroot, h.parent_eq]
      simp
  rw [hroot, hnone] at hparent
  cases hparent

end Rooted

/-- In a sequence of edits that put no node below itself, the root stays live and the document, is returned as
no new node, and is above just the connected nodes, if and only if no edit puts it below a node. -/
theorem root_stays_iff (page : Option String) (levels : Document → Nat) (es : List Edit)
    (h : AtEach levels NotBelowItself (opened page) es) :
    Throughout levels RootStays (opened page) es ↔ AtEach levels LeavesRoot (opened page) es :=
  throughout_iff_atEach (I := Rooted) Rooted.stays
    (fun n e h he hroot => h.effect (effect_performWithin h.accounted n e) he hroot)
    (fun _ _ h he hstays => h.leavesRoot he hstays) es (Rooted.opened page) h

/-- The root stays when a template below it is replaced and released, and its content is kept. -/
theorem root_stays_iff_replaced_template :
    AtEach copyLevels NotBelowItself (opened none)
        [.createElement "template", .append root 2, .pin 1, .createText "a", .replace 2 3, .release 2] ∧
      Throughout copyLevels RootStays (opened none)
        [.createElement "template", .append root 2, .pin 1, .createText "a", .replace 2 3, .release 2] := by
  have h : AtEach copyLevels NotBelowItself (opened none)
      [.createElement "template", .append root 2, .pin 1, .createText "a", .replace 2 3, .release 2] :=
    of_decide_eq_true (by cbv)
  exact ⟨h, (root_stays_iff none copyLevels _ h).mpr (of_decide_eq_true (by cbv))⟩

/-- The root is given back with the element that it was put below, and its place is taken by the next node. -/
theorem root_released_below_element :
    AtEach copyLevels NotBelowItself (opened none) [.createElement "div", .append 1 root, .release 1] ∧
      ¬ Throughout copyLevels RootStays (opened none) [.createElement "div", .append 1 root, .release 1] ∧
      ((opened none).edited [.createElement "div", .append 1 root, .release 1]).liveNodes = 0 ∧
      (((opened none).edited [.createElement "div", .append 1 root, .release 1]).perform
        (.createText "a")).1 = some root := by
  refine ⟨of_decide_eq_true (by cbv), fun h => ?_, by cbv, by cbv⟩
  have hdead : ((opened none).edited [.createElement "div", .append 1 root, .release 1]).isLive root
      = false := by
    cbv
  rw [h.edited.1] at hdead
  cases hdead

end Hypertemplate.Document
