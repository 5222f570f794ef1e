import Hypertemplate.Engine.Run
import Hypertemplate.Proofs.Document.Table
import Hypertemplate.Proofs.Document.Walks

/-!
# What runs do to the document

An engine changes its document when it starts, by pinning the nodes of its bindings, and when a run of a
binding ends with data, by rendering. So a property of documents that holds after the pinning and that
renderings of the bindings keep holds as long as the engine runs (`Engine.Keeps`).
-/

namespace Hypertemplate

/-- The nodes that a binding is about. -/
def Binding.nodes (b : Binding) : List NodeId := [b.template, b.target, b.eventTarget]

namespace Document

variable {d : Document} {i j : NodeId}

/-! ## The nodes of bindings -/

/-- What a selector finds hangs on the root. -/
theorem hangs_of_find? {selector : String} (h : d.find? selector = some j) : d.Hangs root j := by
  unfold find? select at h
  cases hq : Query.parse selector with
  | error p => simp [hq] at h
  | ok q =>
    simp only [hq] at h
    exact hangs_of_mem_descendants (List.mem_of_find?_eq_some h)

/-- The nodes of a binding that a document declares hang on the root, and its template is one. -/
theorem hangs_of_mem_bindings (h : d.WellFormed) {names : AttributeNames} {b : Binding}
    (hb : b ∈ d.bindings names) :
    (∀ i ∈ b.nodes, d.Hangs root i) ∧ d.tagName? b.template = some "template" := by
  obtain ⟨t, ht, hbt⟩ := List.mem_filterMap.mp hb
  obtain ⟨hmem, htag⟩ := List.mem_filter.mp ht
  obtain ⟨endpoint, -, rfl⟩ := Option.map_eq_some_iff.mp hbt
  have hangs : d.Hangs root t := hangs_of_mem_descendants hmem
  -- A node that a selector may find is in the page, if the one that stands in for it is.
  have hfound : ∀ (name : Option String) (other : NodeId), d.Hangs root other →
      d.Hangs root ((name.bind d.find?).getD other) := by
    intro name other hother
    cases hf : name.bind d.find? with
    | none => exact hother
    | some k =>
      obtain ⟨selector, -, hk⟩ := Option.bind_eq_some_iff.mp hf
      exact hangs_of_find? hk
  have hparent : d.Hangs root ((d.parent t).getD root) := by
    obtain ⟨p, hp, hangs⟩ := hangs.exists_parent h.sound (ne_of_mem_descendants h.sound hmem)
    rw [hp]
    exact hangs
  have htarget := hfound ((d.declared t names.target).value?) _ hparent
  refine ⟨fun i hi => ?_, by simpa using htag⟩
  simp only [Binding.nodes, List.mem_cons, List.not_mem_nil, or_false] at hi
  rcases hi with rfl | rfl | rfl
  · exact hangs
  · exact htarget
  · exact hfound _ _ htarget

theorem isLive_of_mem_bindings (h : d.WellFormed) (hr : d.isLive root = true) {names : AttributeNames}
    {b : Binding} (hb : b ∈ d.bindings names) (hi : i ∈ b.nodes) : d.isLive i = true :=
  h.live_of_under hr ((hangs_of_mem_bindings h hb).1 i hi).under

/-! ## Pinning -/

theorem nodes_pin (d : Document) (i : NodeId) : (d.pin i).nodes = d.nodes := by
  unfold pin
  split <;> rfl

theorem nodes_pinBinding (d : Document) (b : Binding) : (Engine.pinBinding d b).nodes = d.nodes := by
  rw [Engine.pinBinding, nodes_pin, nodes_pin, nodes_pin]

theorem nodes_pinBindings (bs : List Binding) (d : Document) :
    (bs.foldl Engine.pinBinding d).nodes = d.nodes := by
  induction bs generalizing d with
  | nil => rfl
  | cons b rest ih => rw [List.foldl_cons, ih, nodes_pinBinding]

theorem mem_pinned_pin : j ∈ (d.pin i).pinned ↔ j ∈ d.pinned ∨ j = i := by
  unfold pin
  split
  · next hi =>
    have hi : i ∈ d.pinned := by simpa [isPinned] using hi
    exact ⟨Or.inl, fun h => h.elim id fun he => he ▸ hi⟩
  · simp [or_comm]

theorem mem_pinned_pinBinding {b : Binding} :
    j ∈ (Engine.pinBinding d b).pinned ↔ j ∈ d.pinned ∨ j ∈ b.nodes := by
  simp [Engine.pinBinding, mem_pinned_pin, Binding.nodes, or_assoc]

theorem mem_pinned_pinBindings {bs : List Binding} : ∀ {d : Document},
    j ∈ (bs.foldl Engine.pinBinding d).pinned ↔ j ∈ d.pinned ∨ ∃ b ∈ bs, j ∈ b.nodes := by
  induction bs with
  | nil => simp
  | cons b rest ih =>
    intro d
    rw [List.foldl_cons, ih, mem_pinned_pinBinding, or_assoc]
    simp

end Document

namespace Engine

open Document

variable {e : Engine} {b : Binding} {P : Document → Prop} {bs : List Binding} {marker : String}

/-! ## Single runs -/

/-- The end of a run changes the document by a rendering, or not at all. -/
theorem complete_cases (e : Engine) (b : Binding) (fetched : Fetched) :
    ((e.complete b fetched).listeners = e.listeners ∧ (e.complete b fetched).settings = e.settings ∧
      (e.complete b fetched).started = e.started) ∧
    ((e.complete b fetched).document = e.document ∨ ∃ data, (e.complete b fetched).document =
      (e.document.render e.settings.nestedArrayAttribute b.template data b.target b.action).2) := by
  cases fetched with
  | failed error =>
    simp only [complete, routeError, emit]
    split
    · exact ⟨⟨rfl, rfl, rfl⟩, Or.inl rfl⟩
    · split <;> exact ⟨⟨rfl, rfl, rfl⟩, Or.inl rfl⟩
  | data data => exact ⟨⟨rfl, rfl, rfl⟩, Or.inr ⟨data, rfl⟩⟩

/-- What holds of the document and of the listeners while the engine runs. -/
structure Keeps (P : Document → Prop) (bs : List Binding) (marker : String) (e : Engine) : Prop where
  document : P e.document
  marker_eq : e.settings.nestedArrayAttribute = marker
  listening : ∀ l ∈ e.listeners.entries, l.binding ∈ bs ∧ l.node = l.binding.eventTarget

theorem Keeps.complete (k : Keeps P bs marker e)
    (hP : ∀ d data, P d → P (d.render marker b.template data b.target b.action).2) (fetched : Fetched) :
    Keeps P bs marker (e.complete b fetched) := by
  obtain ⟨⟨hl, hs, -⟩, hd⟩ := complete_cases e b fetched
  refine
    { document := ?_
      marker_eq := by rw [hs, k.marker_eq]
      listening := by rw [hl]; exact k.listening }
  rcases hd with hd | ⟨data, hd⟩
  · rw [hd]
    exact k.document
  · rw [hd, k.marker_eq]
    exact hP _ data k.document

/-! ## Runs that belong together -/

theorem map_fst_sendAll (pending : List (Binding × Request)) : ∀ transport,
    (sendAll transport pending).1.map Prod.fst = pending.map Prod.fst := by
  induction pending with
  | nil => exact fun _ => rfl
  | cons r rest ih =>
    intro transport
    simp [sendAll, ih]

/-- The end of all runs is the end of one after the other. -/
theorem Keeps.finish {pending : List (Binding × Request)} (k : Keeps P bs marker e)
    (hpending : ∀ r ∈ pending, r.1 ∈ bs)
    (hP : ∀ b ∈ bs, ∀ d data, P d → P (d.render marker b.template data b.target b.action).2) :
    Keeps P bs marker (e.finish pending) := by
  have hmem : ∀ r ∈ byArrival (sendAll e.transport pending).1, r.1 ∈ bs := by
    intro r hr
    have hr : r ∈ (sendAll e.transport pending).1 := List.mem_mergeSort.mp hr
    have hfst : r.1 ∈ pending.map Prod.fst := by
      rw [← map_fst_sendAll pending e.transport]
      exact List.mem_map_of_mem hr
    obtain ⟨s, hs, hsr⟩ := List.mem_map.mp hfst
    rw [← hsr]
    exact hpending s hs
  have key : ∀ (replies : List (Binding × Reply)) (e : Engine), (∀ r ∈ replies, r.1 ∈ bs) →
      Keeps P bs marker e →
      Keeps P bs marker (replies.foldl (fun e r => e.complete r.1 (.ofAnswer r.2.answer)) e) := by
    intro replies
    induction replies with
    | nil => exact fun _ _ k => k
    | cons r rest ih =>
      intro e hr k
      exact ih _ (fun s hs => hr s (by simp [hs])) (k.complete (hP r.1 (hr r (by simp))) _)
  exact key _ { e with transport := (sendAll e.transport pending).2 } hmem
    { document := k.document, marker_eq := k.marker_eq, listening := k.listening }

theorem started_finish (e : Engine) (pending : List (Binding × Request)) :
    (e.finish pending).started = e.started := by
  have key : ∀ (replies : List (Binding × Reply)) (e : Engine),
      (replies.foldl (fun e r => e.complete r.1 (.ofAnswer r.2.answer)) e).started = e.started := by
    intro replies
    induction replies with
    | nil => exact fun _ => rfl
    | cons r rest ih =>
      intro e
      exact (ih _).trans (complete_cases e r.1 _).1.2.2
  exact key _ _

/-- Beginning runs does not change the document. -/
theorem triggerAll_spec (reached : List Binding) : ∀ e : Engine,
    (∀ r ∈ (e.triggerAll reached).1, r.1 ∈ reached) ∧
      (e.triggerAll reached).2.document = e.document ∧
      (e.triggerAll reached).2.settings = e.settings ∧
      (e.triggerAll reached).2.listeners = e.listeners ∧
      (e.triggerAll reached).2.started = e.started := by
  induction reached with
  | nil => exact fun e => ⟨by simp [triggerAll], rfl, rfl, rfl, rfl⟩
  | cons b rest ih =>
    intro e
    obtain ⟨hmem, hd, hs, hl, ht⟩ := ih (e.trigger b).2
    refine ⟨fun r hr => ?_, hd, hs, hl, ht⟩
    rcases List.mem_cons.mp hr with rfl | hr
    · simp
    · exact List.mem_cons_of_mem _ (hmem r hr)

theorem binding_of_mem_reached {ls : Listeners} {d : Document} {node : NodeId} {event : String}
    (h : b ∈ ls.reached d node event) : ∃ l ∈ ls.entries, l.binding = b := by
  obtain ⟨i, -, hi⟩ := List.mem_flatMap.mp h
  obtain ⟨l, hl, he⟩ := List.mem_map.mp hi
  exact ⟨l, (List.mem_filter.mp hl).1, he⟩

theorem Keeps.dispatch (k : Keeps P bs marker e)
    (hP : ∀ b ∈ bs, ∀ d data, P d → P (d.render marker b.template data b.target b.action).2)
    (node : NodeId) (event : String) : Keeps P bs marker (e.dispatch node event).2 := by
  obtain ⟨hmem, hd, hs, hl, -⟩ := triggerAll_spec (e.listeners.reached e.document node event) e
  refine Keeps.finish
    { document := by rw [hd]; exact k.document
      marker_eq := by rw [hs, k.marker_eq]
      listening := by rw [hl]; exact k.listening } (fun r hr => ?_) hP
  obtain ⟨l, hle, hlb⟩ := binding_of_mem_reached (hmem r hr)
  rw [← hlb]
  exact (k.listening l hle).1

theorem started_dispatch (e : Engine) (node : NodeId) (event : String) :
    (e.dispatch node event).2.started = e.started := by
  obtain ⟨-, -, -, -, ht⟩ := triggerAll_spec (e.listeners.reached e.document node event) e
  exact (started_finish _ _).trans ht

/-! ## The start -/

/-- Binding templates does not change the document; a listener is on the event target of its binding. -/
theorem bindAll_spec (bs : List Binding) : ∀ e : Engine,
    (∀ r ∈ (e.bindAll bs).1, r.1 ∈ bs) ∧
      (e.bindAll bs).2.document = e.document ∧
      (e.bindAll bs).2.settings = e.settings ∧
      (e.bindAll bs).2.started = e.started ∧
      ∀ l ∈ (e.bindAll bs).2.listeners.entries,
        l ∈ e.listeners.entries ∨ (l.binding ∈ bs ∧ l.node = l.binding.eventTarget) := by
  induction bs with
  | nil => exact fun e => ⟨by simp [bindAll], rfl, rfl, rfl, fun l hl => Or.inl hl⟩
  | cons b rest ih =>
    intro e
    cases ht : Trigger.ofEvent b.event with
    | load =>
      obtain ⟨hmem, hd, hs, hst, hl⟩ :=
        ih ((e.emit b.template (.bindingRegistered b.endpoint b.event)).trigger b).2
      simp only [bindAll, ht]
      refine ⟨fun r hr => ?_, hd, hs, hst, fun l hle => (hl l hle).imp_right fun h => ?_⟩
      · rcases List.mem_cons.mp hr with rfl | hr
        · simp
        · exact List.mem_cons_of_mem _ (hmem r hr)
      · exact ⟨List.mem_cons_of_mem _ h.1, h.2⟩
    | event name =>
      obtain ⟨hmem, hd, hs, hst, hl⟩ :=
        ih { e.emit b.template (.bindingRegistered b.endpoint b.event) with
          listeners := e.listeners.add b.eventTarget name b }
      simp only [bindAll, ht]
      refine ⟨fun r hr => List.mem_cons_of_mem _ (hmem r hr), hd, hs, hst, fun l hle => ?_⟩
      rcases hl l hle with hle | h
      · rcases List.mem_append.mp hle with hle | hle
        · exact Or.inl hle
        · obtain rfl := List.mem_singleton.mp hle
          exact Or.inr ⟨by simp, rfl⟩
      · exact Or.inr ⟨List.mem_cons_of_mem _ h.1, h.2⟩

/-- The first start pins the nodes of all bindings, binds them and ends the runs of those that load. -/
theorem keeps_start (hstarted : e.started = false) (hlisteners : e.listeners.entries = [])
    (hdocument : P (e.scan.foldl pinBinding e.document))
    (hP : ∀ b ∈ e.scan, ∀ d data, P d →
      P (d.render e.settings.nestedArrayAttribute b.template data b.target b.action).2) :
    Keeps P e.scan e.settings.nestedArrayAttribute e.start.2 := by
  obtain ⟨hmem, hd, hs, -, hl⟩ := bindAll_spec e.scan
    { e with started := true, document := e.scan.foldl pinBinding e.document }
  simp only [start, hstarted, Bool.false_eq_true, if_false]
  refine Keeps.finish
    { document := by rw [hd]; exact hdocument
      marker_eq := by rw [hs]
      listening := fun l hle => ?_ } hmem hP
  rcases hl l hle with hle | h
  · rw [hlisteners] at hle
    cases hle
  · exact h

theorem start_of_started (h : e.started = true) : e.start.2 = e := by simp [start, h]

theorem started_start (e : Engine) : e.start.2.started = true := by
  cases h : e.started with
  | true => rw [start_of_started h, h]
  | false =>
    obtain ⟨-, -, -, hst, -⟩ := bindAll_spec e.scan
      { e with started := true, document := e.scan.foldl pinBinding e.document }
    simp only [start, h, Bool.false_eq_true, if_false]
    rw [started_finish, hst]

end Engine

end Hypertemplate
