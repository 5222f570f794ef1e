import Hypertemplate.Proofs.Document.Undisturbed
import Hypertemplate.Proofs.Engine.NoLeak

/-!
# Bound nodes stay

The start of a page pins the nodes of its bindings. From then on they keep their places, whatever calls, ends
of runs and edits follow in whatever order, even if the edits break the links of the document
(`bound_nodes_stay`). So a listener is always on the element that it was added to.
-/

namespace Hypertemplate

/-- What happens to an engine: a call, the end of any run, or an edit of its document. -/
inductive Move where
  | call (c : Call)
  | complete (b : Binding) (fetched : Fetched)
  | edit (x : Edit)

namespace Engine

open Document

variable {e : Engine} {bs : List Binding} {d₀ d d' : Document} {marker : String}

def move (e : Engine) : Move → Engine
  | .call c => e.call c
  | .complete b fetched => e.complete b fetched
  | .edit x => { e with document := (e.document.perform x).2 }

/-- The engine after several moves, one after the other. -/
def moving (e : Engine) (moves : List Move) : Engine := moves.foldl move e

/-- The nodes of some bindings are kept, and their places were never given back or taken on the way from a
document to another one. -/
def Bound (bs : List Binding) (d₀ d : Document) : Prop :=
  ∀ b ∈ bs, ∀ i ∈ b.nodes, d.Kept i ∧ Undisturbed i d₀ d

theorem Bound.of_spares (h : Bound bs d₀ d) (hs : ∀ i, Spares i d d') : Bound bs d₀ d' := by
  intro b hb i hi
  obtain ⟨hk, hu⟩ := h b hb i hi
  have hu' := hs i hk
  exact ⟨hu'.kept hk, hu.trans hu'⟩

theorem undisturbed_pinBindings (i : NodeId) (bs : List Binding) (d : Document) :
    Undisturbed i d (bs.foldl pinBinding d) := by
  induction bs generalizing d with
  | nil => exact .refl
  | cons b rest ih =>
    have hpin : Undisturbed i d (pinBinding d b) := ((Undisturbed.refl.pin _).pin _).pin _
    exact hpin.trans (ih _)

/-- The start keeps the nodes of all bindings: they are live in a well-formed document. -/
theorem bound_of_pinBindings (ht : d₀.Tidy []) {names : AttributeNames} :
    Bound (d₀.bindings names) d₀ ((d₀.bindings names).foldl pinBinding d₀) := by
  intro b hb i hi
  have hu := undisturbed_pinBindings i (d₀.bindings names) d₀
  have huse := ht.wellFormed.inUse (isLive_of_mem_bindings ht.wellFormed ht.orphan_root.live hb hi)
  exact ⟨{ (hu.inUse huse).1 with pinned := mem_pinned_pinBindings.mpr (Or.inr ⟨b, hb, hi⟩) }, hu⟩

/-! ## Moves -/

/-- A started engine whose bound nodes are kept. -/
structure Holds (bs : List Binding) (d₀ : Document) (marker : String) (e : Engine) : Prop where
  started : e.started = true
  keeps : Keeps (Bound bs d₀) bs marker e

theorem Bound.render (h : Bound bs d₀ d) (marker : String) (b : Binding) (data : Json.Value) :
    Bound bs d₀ (d.render marker b.template data b.target b.action).2 :=
  h.of_spares fun _ => spares_render d marker b.template data b.target b.action

theorem Holds.dispatch (h : Holds bs d₀ marker e) (node : NodeId) (event : String) :
    Holds bs d₀ marker (e.dispatch node event).2 where
  started := (started_dispatch e node event).trans h.started
  keeps := h.keeps.dispatch (fun b _ _ data hd => hd.render _ b data) node event

theorem Holds.call (h : Holds bs d₀ marker e) (c : Call) : Holds bs d₀ marker (e.call c) := by
  cases c with
  | start =>
    rw [Engine.call, start_of_started h.started]
    exact h
  | dispatch node event => exact h.dispatch node event
  | dispatchAt selector event =>
    rcases dispatchAt_cases e selector event with hc | ⟨node, hc⟩
    · rwa [hc]
    · rw [hc]
      exact h.dispatch node event

theorem Holds.move (h : Holds bs d₀ marker e) (m : Move) : Holds bs d₀ marker (e.move m) := by
  cases m with
  | call c => exact h.call c
  | complete b fetched =>
    exact
      { started := (complete_cases e b fetched).1.2.2.trans h.started
        keeps := h.keeps.complete (fun _ data hd => hd.render _ b data) fetched }
  | edit x =>
    exact
      { started := h.started
        keeps :=
          { document := h.keeps.document.of_spares fun _ hk => (spares_perform e.document x hk).2
            marker_eq := h.keeps.marker_eq
            listening := h.keeps.listening } }

theorem Holds.moving (moves : List Move) : ∀ {e : Engine}, Holds bs d₀ marker e →
    Holds bs d₀ marker (e.moving moves) := by
  induction moves with
  | nil => exact fun h => h
  | cons m rest ih => exact fun h => ih (h.move m)

theorem holds_start (html : String) (settings : Settings) (transport : Transport) (handlers : Handlers)
    (journal : Journal) :
    Holds ((Document.parse html).bindings settings.names) (.parse html)
      settings.nestedArrayAttribute (onPage html settings transport handlers journal).start.2 where
  started := started_start _
  keeps := keeps_start (e := onPage html settings transport handlers journal) rfl rfl
    (bound_of_pinBindings (tidy_parse html)) fun b _ _ data hd => hd.render _ b data

/-- After the start of any page and any moves, a node of a binding is live and not free, no change since the
page was read gave it back or took it for a new node, it is still of the same kind, and the next edit does not
return it as a new node either. A listener is on the event target of its binding, so all this is said of its
node too. -/
theorem bound_nodes_stay (html : String) (settings : Settings) (transport : Transport)
    (handlers : Handlers) (journal : Journal) (moves : List Move) :
    let page := Document.parse html
    let e := ((onPage html settings transport handlers journal).start.2).moving moves
    (∀ b ∈ page.bindings settings.names, ∀ i ∈ b.nodes,
      e.document.isLive i = true ∧ i ∉ e.document.free ∧ Undisturbed i page e.document ∧
        (e.document.kind i).shape = (page.kind i).shape ∧
        ∀ x, (e.document.perform x).1 ≠ some i) ∧
    ∀ l ∈ e.listeners.entries,
      l.binding ∈ page.bindings settings.names ∧ l.node = l.binding.eventTarget := by
  intro page e
  have h : Holds (page.bindings settings.names) page settings.nestedArrayAttribute e :=
    Holds.moving moves (holds_start html settings transport handlers journal)
  refine ⟨fun b hb i hi => ?_, h.keeps.listening⟩
  obtain ⟨hk, hu⟩ := h.keeps.document b hb i hi
  have ht := tidy_parse html
  have huse := ht.wellFormed.inUse (isLive_of_mem_bindings ht.wellFormed ht.orphan_root.live hb hi)
  exact ⟨hk.live, hk.not_free, hu, (hu.inUse huse).2, fun x => (spares_perform _ x hk).1⟩

end Engine

end Hypertemplate
