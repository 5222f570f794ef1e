import Hypertemplate.Proofs.Document.Edits
import Hypertemplate.Proofs.Engine.Runs
import Hypertemplate.Proofs.Template.Render

/-!
# No run leaks

Whatever an engine is made to do, its document stays tidy: every live node is below the root or below a node
that the start pinned (`no_leak`). Before the start nothing runs, because nothing listens.
-/

namespace Hypertemplate

/-- What a caller makes an engine do. -/
inductive Call where
  | start
  | dispatch (node : NodeId) (event : String)
  | dispatchAt (selector event : String)

namespace Engine

open Document

variable {e : Engine}

/-- The engine after a call. An event that finds no element changes nothing. -/
def call (e : Engine) : Call → Engine
  | .start => e.start.2
  | .dispatch node event => (e.dispatch node event).2
  | .dispatchAt selector event =>
    match e.dispatchAt selector event with
    | .ok (_, e) => e
    | .error _ => e

/-- The engine after several calls, one after the other. -/
def calling (e : Engine) (calls : List Call) : Engine := calls.foldl call e

/-- An engine on a page, before anything ran. -/
def onPage (html : String) (settings : Settings) (transport : Transport) (handlers : Handlers)
    (journal : Journal) : Engine :=
  { document := .parse html, settings, transport, handlers, journal }

/-! ## The document at the start -/

theorem tidy_parse (html : String) : (Document.parse html).Tidy [] where
  wellFormed := wellFormed_parse html
  orphan_root := orphan_root_parse html
  orphan_cases := fun ho => Or.inl (eq_root_of_orphan_parse ho)

theorem tidy_pin {d : Document} {i : NodeId} (h : d.Tidy []) (hi : d.isLive i = true) :
    (d.pin i).Tidy [] := by
  have hsame : ∀ {j}, (d.pin i).Orphan j → d.Orphan j := by
    intro j ho
    unfold pin at ho
    split at ho
    · exact ho
    · exact ⟨ho.live, ho.unowned⟩
  refine
    { wellFormed := h.wellFormed.pin hi
      orphan_root := ?_
      orphan_cases := fun {j} ho => ?_ }
  · unfold pin
    split
    · exact h.orphan_root
    · exact ⟨h.orphan_root.live, h.orphan_root.unowned⟩
  · refine (h.orphan_cases (hsame ho)).imp_right fun hj => ?_
    exact hj.imp_left fun hj => mem_pinned_pin.mpr (Or.inl hj)

theorem tidy_pinBindings {bs : List Binding} : ∀ {d : Document}, d.Tidy [] →
    (∀ b ∈ bs, ∀ i ∈ b.nodes, d.isLive i = true) → (bs.foldl pinBinding d).Tidy [] := by
  induction bs with
  | nil => exact fun h _ => h
  | cons b rest ih =>
    intro d h hlive
    have hb := hlive b (by simp)
    refine ih ?_ fun b' hb' i hi => by
      rw [isLive_congr (nodes_pinBinding d b)]
      exact hlive b' (by simp [hb']) i hi
    have h₁ := tidy_pin h (hb b.template (by simp [Binding.nodes]))
    have h₂ := tidy_pin (i := b.target) h₁
      (by rw [isLive_congr (nodes_pin _ _)]; exact hb _ (by simp [Binding.nodes]))
    have hnodes : ((d.pin b.template).pin b.target).nodes = d.nodes := by rw [nodes_pin, nodes_pin]
    exact tidy_pin h₂ (by rw [isLive_congr hnodes]; exact hb _ (by simp [Binding.nodes]))

/-! ## Runs -/

/-- The document is tidy, and exactly the nodes of some bindings are pinned. -/
def Clean (bs : List Binding) (d : Document) : Prop :=
  d.Tidy [] ∧ ∀ i, i ∈ d.pinned ↔ ∃ b ∈ bs, i ∈ b.nodes

/-- Renderings of these bindings keep the document clean: their targets are live. -/
theorem Clean.render {bs : List Binding} {d : Document} (h : Clean bs d) {b : Binding} (hb : b ∈ bs)
    (marker : String) (data : Json.Value) :
    Clean bs (d.render marker b.template data b.target b.action).2 := by
  have htarget : d.isLive b.target = true :=
    h.1.wellFormed.pinned_live ((h.2 b.target).mpr ⟨b, hb, by simp [Binding.nodes]⟩)
  obtain ⟨ht, hp⟩ := tidy_render h.1 htarget marker b.template data b.action
  exact ⟨ht, fun i => by rw [hp]; exact h.2 i⟩

/-- An engine that did not start has the document of its page and no listeners; afterwards its document is
clean. -/
inductive Ready (e₀ : Engine) (e : Engine) : Prop
  | waiting (hstarted : e.started = false) (hdocument : e.document = e₀.document)
      (hsettings : e.settings = e₀.settings) (hlisteners : e.listeners.entries = [])
  | running (hstarted : e.started = true)
      (hkeeps : Keeps (Clean e₀.scan) e₀.scan e₀.settings.nestedArrayAttribute e)

variable {e₀ : Engine}

theorem clean_of_pinBindings (ht : e₀.document.Tidy []) (hp : e₀.document.pinned = []) :
    Clean e₀.scan (e₀.scan.foldl pinBinding e₀.document) := by
  refine ⟨tidy_pinBindings ht fun b hb i hi => ?_, fun i => ?_⟩
  · exact isLive_of_mem_bindings ht.wellFormed ht.orphan_root.live hb hi
  · rw [mem_pinned_pinBindings, hp]
    simp

theorem Ready.wellFormed (r : Ready e₀ e) (ht : e₀.document.Tidy []) : e.document.WellFormed := by
  cases r with
  | waiting _ hdocument _ _ =>
    rw [hdocument]
    exact ht.wellFormed
  | running _ hkeeps => exact hkeeps.document.1.wellFormed

theorem Ready.start (r : Ready e₀ e) (ht : e₀.document.Tidy []) (hp : e₀.document.pinned = []) :
    Ready e₀ e.start.2 := by
  cases r with
  | waiting hstarted hdocument hsettings hlisteners =>
    have hscan : e.scan = e₀.scan := by rw [scan, scan, hdocument, hsettings]
    have hclean : Clean e.scan (e.scan.foldl pinBinding e.document) := by
      rw [hscan, hdocument]
      exact clean_of_pinBindings ht hp
    have k := keeps_start hstarted hlisteners hclean fun b hb d data hd => hd.render hb _ data
    rw [hscan, hsettings] at k
    exact .running (started_start e) k
  | running hstarted hkeeps =>
    rw [start_of_started hstarted]
    exact .running hstarted hkeeps

theorem Ready.dispatch (r : Ready e₀ e) (node : NodeId) (event : String) :
    Ready e₀ (e.dispatch node event).2 := by
  cases r with
  | waiting hstarted hdocument hsettings hlisteners =>
    have hreached : e.listeners.reached e.document node event = [] := by
      simp [Listeners.reached, Listeners.onNode, hlisteners]
    have hsame : (e.dispatch node event).2 = { e with transport := e.transport } := by
      simp [Engine.dispatch, hreached, triggerAll, finish, sendAll, byArrival]
    rw [hsame]
    exact .waiting hstarted hdocument hsettings hlisteners
  | running hstarted hkeeps =>
    exact .running ((started_dispatch e node event).trans hstarted)
      (hkeeps.dispatch (fun b hb d data hd => hd.render hb _ data) node event)

theorem dispatchAt_cases (e : Engine) (selector event : String) :
    e.call (.dispatchAt selector event) = e ∨
      ∃ node, e.call (.dispatchAt selector event) = (e.dispatch node event).2 := by
  simp only [call, dispatchAt]
  cases e.document.select selector with
  | error failure => exact Or.inl rfl
  | ok found =>
    cases found with
    | none => exact Or.inl rfl
    | some node => exact Or.inr ⟨node, rfl⟩

theorem Ready.call (r : Ready e₀ e) (ht : e₀.document.Tidy []) (hp : e₀.document.pinned = [])
    (c : Call) : Ready e₀ (e.call c) := by
  cases c with
  | start => exact r.start ht hp
  | dispatch node event => exact r.dispatch node event
  | dispatchAt selector event =>
    rcases dispatchAt_cases e selector event with h | ⟨node, h⟩
    · rwa [h]
    · rw [h]
      exact r.dispatch node event

theorem Ready.calling (ht : e₀.document.Tidy []) (hp : e₀.document.pinned = []) (calls : List Call) :
    ∀ {e : Engine}, Ready e₀ e → Ready e₀ (e.calling calls) := by
  induction calls with
  | nil => exact fun r => r
  | cons c rest ih => exact fun r => ih (r.call ht hp c)

/-- After any calls of an engine on any page, with any answers to its requests: the document is well formed,
every live node is below the root or below a pinned node, and nothing is pinned but the nodes of the bindings
that the page declares. -/
theorem no_leak (html : String) (settings : Settings) (transport : Transport) (handlers : Handlers)
    (journal : Journal) (calls : List Call) :
    let d := ((onPage html settings transport handlers journal).calling calls).document
    d.WellFormed ∧
    (∀ i, i ∈ d.free ↔ i < d.nodes.size ∧ d.isLive i = false) ∧
    (∀ j, d.isLive j = true → ∃ a, (a = root ∨ a ∈ d.pinned) ∧ Relation.ReflTransGen d.Owns a j) ∧
    ∀ i ∈ d.pinned, ∃ b ∈ (Document.parse html).bindings settings.names, i ∈ b.nodes := by
  intro d
  have ht := tidy_parse html
  have hp := pinned_parse html
  have hready : Ready (onPage html settings transport handlers journal)
      ((onPage html settings transport handlers journal).calling calls) :=
    Ready.calling ht hp calls (.waiting rfl rfl rfl rfl)
  have htidy : d.Tidy [] ∧
      ∀ i ∈ d.pinned, ∃ b ∈ (Document.parse html).bindings settings.names, i ∈ b.nodes := by
    cases hready with
    | waiting _ hdocument _ _ =>
      have hd : d = Document.parse html := hdocument
      rw [hd, hp]
      exact ⟨ht, by simp⟩
    | running _ hkeeps => exact ⟨hkeeps.document.1, fun i hi => (hkeeps.document.2 i).mp hi⟩
  refine ⟨htidy.1.wellFormed, fun i => htidy.1.wellFormed.mem_free_iff, fun j hj => ?_, htidy.2⟩
  obtain ⟨a, ha, hu⟩ := htidy.1.exists_under hj
  exact ⟨a, ha.imp_right fun ha => ha.resolve_right (by simp), hu⟩

end Engine

end Hypertemplate
