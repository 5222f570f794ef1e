import Hypertemplate.Proofs.Document.Allocation
import Hypertemplate.Proofs.Document.Census
import Hypertemplate.Proofs.Document.Edits

/-!
# Edits of any document

An edit can be asked for on every document, also where its caller did not see to anything: on nodes that were
released, on links that lead round, on a template whose content was released under it. `Effect` says what one
edit does then, and takes nothing for it but a right list of free places. So this list stays right in every
sequence of edits, and new nodes come to places that are not live (`creation_takes_free_places`).

On broken links a copy may go down further than there are places in the table, so that everything here is
shown for copies with any number of levels (`performWithin`). What holds throughout a sequence of edits is
proved from one edit to the next (`throughout_iff_atEach`).
-/

namespace Hypertemplate.Document

variable {d d' : Document} {e : Edit} {i j p x : NodeId} {l : NodeId × NodeId} {levels : Nat}

/-- Perform an edit, with copies that go at most `levels` levels down. -/
def performWithin (levels : Nat) (d : Document) : Edit → Option NodeId × Document
  | .clone node deep => (cloneWithin levels d node deep).map some id
  | e => d.perform e

/-- How far down copies go. -/
def copyLevels (d : Document) : Nat := d.nodes.size + 1

theorem perform_eq (d : Document) (e : Edit) : d.perform e = d.performWithin d.copyLevels e := by
  cases e <;> rfl

/-! ## Nodes that an edit puts down -/

/-- The nodes that an edit puts below a node, each one behind the node that it is put below. -/
def puts (d : Document) : Edit → List (NodeId × NodeId)
  | .append parent child => (d.takeInsertables child).1.map fun x => (parent, x)
  | .replace node replacement =>
    match d.parent node with
    | none => []
    | some p =>
      if node ∈ (d.takeInsertables replacement).2.children p then
        (d.takeInsertables replacement).1.map fun x => (p, x)
      else []
  | _ => []

/-- An edit that puts nodes down appends them, or puts them in the place of a child. -/
theorem puts_cases (hl : l ∈ d.puts e) :
    (∃ child, e = .append l.1 child ∧ l.2 ∈ (d.takeInsertables child).1) ∨
      ∃ node replacement, e = .replace node replacement ∧ d.parent node = some l.1 ∧
        node ∈ (d.takeInsertables replacement).2.children l.1 ∧ l.2 ∈ (d.takeInsertables replacement).1 := by
  cases e with
  | append parent child =>
    obtain ⟨x, hx, rfl⟩ := List.mem_map.mp hl
    exact Or.inl ⟨child, rfl, hx⟩
  | replace node replacement =>
    cases hp : d.parent node with
    | none => simp [puts, hp] at hl
    | some p =>
      simp only [puts, hp] at hl
      split at hl
      · next hmem =>
        obtain ⟨x, hx, rfl⟩ := List.mem_map.mp hl
        exact Or.inr ⟨node, replacement, rfl, hp, hmem, hx⟩
      · cases hl
  | _ => cases hl

/-- A node that was put down and was no child of the node before has it as parent. -/
theorem parent_of_mem_puts (hl : l ∈ d.puts e) (hx : l.2 < d.nodes.size) (hne : d.parent l.2 ≠ some l.1) :
    (d.performWithin levels e).2.parent l.2 = some l.1 := by
  rcases puts_cases hl with ⟨child, rfl, hmem⟩ | ⟨node, replacement, rfl, hp, hnode, hmem⟩
  · have hlt := (relinked_takeInsertables d l.1 child).size_eq ▸ hx
    change (d.appendChild l.1 child).parent l.2 = _
    rw [appendChild_eq, parent_eq, node_adoptAll_of_lt _ _ hlt, if_pos hmem]
  · have hlt := (relinked_takeInsertables d l.1 replacement).size_eq ▸ hx
    have hxn : l.2 ≠ node := by
      intro he
      exact hne (he ▸ hp)
    change (d.replaceWith node replacement).parent l.2 = _
    rw [replaceWith_eq hp, if_pos hnode, parent_eq, node_putInPlace_of_lt hlt, if_neg hxn, if_pos hmem]

theorem relinked_of_mem_puts (hl : l ∈ d.puts e) :
    ∃ new, Relinked d l.1 new (d.performWithin levels e).2 ∧ l.2 ∈ new := by
  rcases puts_cases hl with ⟨child, rfl, hmem⟩ | ⟨node, replacement, rfl, hp, hnode, hmem⟩
  · exact ⟨_, relinked_appendChild d l.1 child, hmem⟩
  · change ∃ new, Relinked d l.1 new (d.replaceWith node replacement) ∧ _
    exact ⟨_, relinked_replaceWith hp replacement, by rwa [if_pos hnode]⟩

/-! ## What one edit does -/

/-- An edit makes nodes, or changes labels, or changes nothing but pins, or moves nodes, or releases a node
that is not the root. -/
inductive Effect (d : Document) (e : Edit) : Option NodeId × Document → Prop
  | make {made : NodeId × Document} (y : Yields d made) : Effect d e (some made.1, made.2)
  | relabel {d' : Document} (r : Relabelled d d') : Effect d e (none, d')
  | keep {d' : Document} (hnodes : d'.nodes = d.nodes) (hfree : d'.free = d.free) : Effect d e (none, d')
  | relink {d' : Document} {p : NodeId} {new : List NodeId} (r : Relinked d p new d')
      (hputs : ∀ x ∈ new, (p, x) ∈ d.puts e) : Effect d e (none, d')
  | release {d' : Document} {i : NodeId} (hi : i ≠ root) (r : Released (d.detach i) [i] d') :
      Effect d e (none, d')

theorem effect_replace (d : Document) (i r : NodeId) :
    Effect d (.replace i r) (none, d.replaceWith i r) := by
  cases hp : d.parent i with
  | none =>
    rw [replaceWith_of_parent_eq_none hp]
    exact .keep rfl rfl
  | some p =>
    refine .relink (relinked_replaceWith hp r) fun x hx => ?_
    split at hx
    · next hi =>
      simp only [puts, hp, if_pos hi]
      exact List.mem_map_of_mem hx
    · cases hx

theorem effect_release (d : Document) (i : NodeId) : Effect d (.release i) (none, d.release i) := by
  by_cases hi : i = root
  · rw [hi, release_root]
    exact .keep rfl rfl
  · rw [release, if_neg hi]
    exact .release hi (released_releaseAll _ _)

theorem effect_performWithin (h : d.Accounted) (levels : Nat) (e : Edit) :
    Effect d e (d.performWithin levels e) := by
  cases e with
  | createElement name => exact .make (yields_createElement h name)
  | createText text => exact .make (yields_allocate h rfl)
  | createComment text => exact .make (yields_allocate h rfl)
  | createFragment => exact .make (yields_allocate h rfl)
  | append parent child =>
    exact .relink (relinked_appendChild d parent child) fun _ hx => List.mem_map_of_mem hx
  | replace node replacement => exact effect_replace d node replacement
  | detach node => exact .relink (relinked_detach d root node) (by simp)
  | clear node => exact .relink (relinked_clearChildren d root node) (by simp)
  | clone node deep => exact .make (yields_cloneWithin levels h node deep)
  | setText node text => exact .relabel (relabelled_setText text)
  | setAttribute node name value => exact .relabel (relabelled_setAttribute name value)
  | removeAttribute node name => exact .relabel (relabelled_removeAttribute name)
  | setValue node value => exact .relabel (relabelled_setValue value)
  | setDoctype name => exact .keep rfl rfl
  | pin node =>
    refine .keep ?_ ?_ <;>
    · simp only [pin]
      split <;> rfl
  | release node => exact effect_release d node

theorem Effect.accounted {result : Option NodeId × Document} (f : Effect d e result) (h : d.Accounted) :
    result.2.Accounted := by
  cases f with
  | make y =>
    obtain ⟨is, a, -, -⟩ := y
    exact a.accounted h
  | relabel r => exact h.congr r.size_eq r.free_eq r.isLive_eq
  | keep hnodes hfree => exact h.congr (by rw [hnodes]) hfree fun j => by simp only [isLive, node, hnodes]
  | relink r _ => exact r.accounted h
  | release _ r => exact r.accounted ((relinked_detach d root _).accounted h)

theorem Accounted.performWithin (h : d.Accounted) (levels : Nat) (e : Edit) :
    (d.performWithin levels e).2.Accounted :=
  (effect_performWithin h levels e).accounted h

/-- An edit that returns a node made it. -/
theorem Accounted.allocates (h : d.Accounted) (hi : (d.performWithin levels e).1 = some i) :
    ∃ is, Allocates d is (d.performWithin levels e).2 ∧ i ∈ is := by
  cases hr : d.performWithin levels e with
  | mk result d' =>
    have f := effect_performWithin h levels e
    rw [hr] at f hi
    cases f with
    | make y =>
      obtain ⟨is, a, hmem, -⟩ := y
      exact ⟨is, a, Option.some.inj hi ▸ hmem⟩
    | _ => cases hi

/-! ## Sequences of edits -/

/-- The document that edits start from: a page, or the empty document. -/
def opened : Option String → Document
  | none => .empty
  | some html => .parse html

theorem wellFormed_opened (page : Option String) : (opened page).WellFormed := by
  cases page with
  | none => exact wellFormed_empty
  | some html => exact wellFormed_parse html

/-- The document after edits. -/
def edited (d : Document) (es : List Edit) : Document := es.foldl (fun d e => (d.perform e).2) d

/-- A property holds before, between and after edits; copies go `levels` levels down. -/
def Throughout (levels : Document → Nat) (P : Document → Prop) : Document → List Edit → Prop
  | d, [] => P d
  | d, e :: es => P d ∧ Throughout levels P (d.performWithin (levels d) e).2 es

/-- Every edit meets a condition in the document that it is asked for on. -/
def AtEach (levels : Document → Nat) (Q : Document → Edit → Prop) : Document → List Edit → Prop
  | _, [] => True
  | d, e :: es => Q d e ∧ AtEach levels Q (d.performWithin (levels d) e).2 es

instance decidableAtEach (levels : Document → Nat) (Q : Document → Edit → Prop)
    [∀ d e, Decidable (Q d e)] : ∀ d es, Decidable (AtEach levels Q d es)
  | _, [] => isTrue trivial
  | d, e :: es =>
    have := decidableAtEach levels Q (d.performWithin (levels d) e).2 es
    inferInstanceAs (Decidable (Q d e ∧ AtEach levels Q (d.performWithin (levels d) e).2 es))

section Sequences

variable {levels : Document → Nat} {P I : Document → Prop} {A Q : Document → Edit → Prop}

theorem Throughout.head {es : List Edit} (h : Throughout levels P d es) : P d := by
  cases es with
  | nil => exact h
  | cons e es => exact h.1

theorem Throughout.edited {es : List Edit} : ∀ {d}, Throughout copyLevels P d es → P (d.edited es) := by
  induction es with
  | nil => exact id
  | cons e es ih =>
    intro d h
    change P ((d.perform e).2.edited es)
    rw [perform_eq]
    exact ih h.2

/-- What every edit keeps holds throughout. -/
theorem throughout_of_kept (hgives : ∀ {d}, I d → P d)
    (hkept : ∀ {d} n e, I d → I (d.performWithin n e).2) (es : List Edit) :
    ∀ {d}, I d → Throughout levels P d es := by
  induction es with
  | nil => exact hgives
  | cons e es ih => exact fun h => ⟨hgives h, ih (hkept _ e h)⟩

/-- If `Q` is what an edit has to meet so that the invariant is kept, and if `P` fails after the first edit
that does not meet it, then `P` holds throughout just if every edit meets `Q`. -/
theorem throughout_iff_atEach (hgives : ∀ {d}, I d → P d)
    (hkept : ∀ {d} n e, I d → A d e → Q d e → I (d.performWithin n e).2)
    (hneeds : ∀ {d} n e, I d → A d e → P (d.performWithin n e).2 → Q d e) (es : List Edit) :
    ∀ {d}, I d → AtEach levels A d es → (Throughout levels P d es ↔ AtEach levels Q d es) := by
  induction es with
  | nil => exact fun h _ => iff_of_true (hgives h) trivial
  | cons e es ih =>
    intro d h ha
    constructor
    · rintro ⟨-, hrest⟩
      have hq := hneeds _ e h ha.1 hrest.head
      exact ⟨hq, (ih (hkept _ e h ha.1 hq) ha.2).mp hrest⟩
    · rintro ⟨hq, hrest⟩
      exact ⟨hgives h, (ih (hkept _ e h ha.1 hq) ha.2).mpr hrest⟩

end Sequences

/-- Whatever edits are asked for, on whatever nodes, the places that were given back are listed once each and
are those that are not live, the number of nodes is the number of live places, and an edit that returns a new
node took different places that were not live, and no others became live. -/
theorem creation_takes_free_places (page : Option String) (levels : Document → Nat) (es : List Edit) :
    Throughout levels (fun d =>
      d.free.Nodup ∧
      (∀ i, i ∈ d.free ↔ i < d.nodes.size ∧ d.isLive i = false) ∧
      d.liveNodes = d.liveSet.card ∧
      ∀ n e i, (d.performWithin n e).1 = some i →
        ∃ is, Allocates d is (d.performWithin n e).2 ∧ i ∈ is ∧ is.Nodup ∧
          (∀ j ∈ is, d.isLive j = false) ∧
          ∀ j, (d.performWithin n e).2.isLive j = true ↔ d.isLive j = true ∨ j ∈ is)
      (opened page) es := by
  refine throughout_of_kept (I := Accounted) ?_ (fun n e h => h.performWithin n e) es
    (wellFormed_opened page).accounted
  intro d h
  refine ⟨h.free_nodup, fun _ => h.mem_free_iff, h.liveNodes_eq, fun n e i hi => ?_⟩
  obtain ⟨is, a, hmem⟩ := h.allocates hi
  obtain ⟨hfresh, hnodup⟩ := a.fresh_nodup h
  exact ⟨is, a, hmem, hnodup, hfresh, fun _ => a.isLive_iff h⟩

end Hypertemplate.Document
