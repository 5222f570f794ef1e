import Hypertemplate.Proofs.Engine.BoundNodes
import Hypertemplate.Proofs.Engine.Protocol

/-!
# Whom an event reaches

The start of a page adds one listener for each binding that does not load, in document order, and nothing that
follows adds or removes one (`Listening.moving`). An event goes up the parents that there are when it is fired.
So it begins one run of each binding that listens for it, and no other runs, whatever edits have moved the nodes
of the page, as long as no node is above itself (`event_reaches_listening`).
-/

namespace Hypertemplate

open Document

/-- A node stands before another one in document order. -/
def Document.Precedes (d : Document) (i j : NodeId) : Prop :=
  (d.descendants root).idxOf i < (d.descendants root).idxOf j

/-- A binding listens for an event at a node: it does not load, its event is the name behind two other
characters, and its event target is the node or above it. -/
structure Binding.Listens (b : Binding) (d : Document) (node : NodeId) (event : String) : Prop where
  not_load : b.event ≠ loadEvent
  named : String.ofList (b.event.toList.drop 2) = event
  above : ∃ k, d.above? k node = some b.eventTarget

/-- An event at a node meets a binding before another one: its event target is nearer to the node, or it is the
same and the template stands before the other one in the page. -/
def Binding.Ahead (page d : Document) (node : NodeId) (b b' : Binding) : Prop :=
  ∃ k k', d.above? k node = some b.eventTarget ∧ d.above? k' node = some b'.eventTarget ∧
    (k < k' ∨ k = k' ∧ page.Precedes b.template b'.template)

variable {page d : Document} {ls : Listeners} {bs : List Binding} {b : Binding} {i node : NodeId}
  {event : String}

theorem Trigger.ofEvent_eq_event_iff {text : String} :
    Trigger.ofEvent text = .event event ↔ text ≠ loadEvent ∧ String.ofList (text.toList.drop 2) = event := by
  unfold Trigger.ofEvent
  by_cases hload : text = loadEvent
  · simp [hload]
  · simp [hload]

/-! ## The order of a page -/

theorem pairwise_idxOf_of_nodup {is : List NodeId} (h : is.Nodup) :
    is.Pairwise fun i j => is.idxOf i < is.idxOf j := by
  rw [List.pairwise_iff_getElem]
  intro k n hk hn hkn
  rw [h.idxOf_getElem k hk, h.idxOf_getElem n hn]
  exact hkn

/-- The bindings of a page come in the order of their templates. -/
theorem pairwise_bindings (h : page.WellFormed) (names : AttributeNames) :
    (page.bindings names).Pairwise fun b b' => page.Precedes b.template b'.template := by
  have hsub := Engine.map_template_bindings_sublist page names
  have hordered := (pairwise_idxOf_of_nodup (nodup_descendants h.sound root)).sublist hsub
  exact List.pairwise_map.mp hordered

/-! ## The way of an event -/

namespace Listeners

theorem onNode_eq (h : ls.entries = bs.filterMap Binding.listener?) (event : String) (i : NodeId) :
    ls.onNode event i =
      bs.filter fun b => b.eventTarget == i && Trigger.ofEvent b.event == .event event := by
  rw [onNode, h]
  clear h
  induction bs with
  | nil => rfl
  | cons b rest ih =>
    cases ht : Trigger.ofEvent b.event with
    | load =>
      rw [List.filterMap_cons_none (by simp [Binding.listener?, ht]), List.filter_cons_of_neg (by simp [ht])]
      exact ih
    | event name =>
      rw [List.filterMap_cons_some (b := ⟨b.eventTarget, name, b⟩) (by simp [Binding.listener?, ht])]
      by_cases hhere : b.eventTarget = i ∧ name = event
      · rw [List.filter_cons_of_pos (by simpa using hhere), List.map_cons, ih,
          List.filter_cons_of_pos (by simpa [ht] using hhere)]
      · rw [List.filter_cons_of_neg (by simpa using hhere), ih,
          List.filter_cons_of_neg (by simpa [ht] using hhere)]

theorem mem_onNode (h : ls.entries = bs.filterMap Binding.listener?) :
    b ∈ ls.onNode event i ↔ b ∈ bs ∧ b.eventTarget = i ∧ Trigger.ofEvent b.event = .event event := by
  rw [onNode_eq h, List.mem_filter]
  simp

theorem mem_reached (h : ls.entries = bs.filterMap Binding.listener?) (hd : d.Rising) :
    b ∈ ls.reached d node event ↔ b ∈ bs ∧ b.Listens d node event := by
  rw [reached, List.mem_flatMap]
  constructor
  · rintro ⟨i, hi, hb⟩
    obtain ⟨hmem, rfl, htrigger⟩ := (mem_onNode h).mp hb
    obtain ⟨hload, hname⟩ := Trigger.ofEvent_eq_event_iff.mp htrigger
    exact ⟨hmem, hload, hname, hd.mem_ancestors.mp hi⟩
  · rintro ⟨hmem, hload, hname, habove⟩
    refine ⟨b.eventTarget, hd.mem_ancestors.mpr habove, ?_⟩
    exact (mem_onNode h).mpr ⟨hmem, rfl, Trigger.ofEvent_eq_event_iff.mpr ⟨hload, hname⟩⟩

theorem pairwise_reached (h : ls.entries = bs.filterMap Binding.listener?) (hd : d.Rising)
    (hbs : bs.Pairwise fun b b' => page.Precedes b.template b'.template) (node : NodeId) (event : String) :
    (ls.reached d node event).Pairwise (Binding.Ahead page d node) := by
  rw [reached, List.pairwise_flatMap]
  constructor
  · -- On one node the order of the page decides.
    intro i hi
    obtain ⟨k, hk⟩ := hd.mem_ancestors.mp hi
    have hordered : (ls.onNode event i).Pairwise fun b b' => page.Precedes b.template b'.template := by
      rw [onNode_eq h]
      exact hbs.filter _
    refine hordered.imp_of_mem ?_
    intro b b' hb hb' hbefore
    obtain ⟨-, rfl, -⟩ := (mem_onNode h).mp hb
    obtain ⟨-, hsame, -⟩ := (mem_onNode h).mp hb'
    exact ⟨k, k, hk, hsame ▸ hk, Or.inr ⟨rfl, hbefore⟩⟩
  · -- Of two nodes the nearer one comes first, because the walk lists them by their steps.
    rw [List.pairwise_iff_getElem]
    intro k n hk hn hkn b hb b' hb'
    obtain ⟨-, htarget, -⟩ := (mem_onNode h).mp hb
    obtain ⟨-, htarget', -⟩ := (mem_onNode h).mp hb'
    refine ⟨k, n, ?_, ?_, Or.inl hkn⟩
    · rw [← hd.getElem?_ancestors, List.getElem?_eq_getElem hk, htarget]
    · rw [← hd.getElem?_ancestors, List.getElem?_eq_getElem hn, htarget']

/-- What listens is met once: a binding has one listener, and no node is met twice. -/
theorem count_reached (h : ls.entries = bs.filterMap Binding.listener?) (hd : d.Rising) (hbs : bs.Nodup)
    (b : Binding) (node : NodeId) (event : String) :
    (b ∈ bs ∧ b.Listens d node event → (ls.reached d node event).count b = 1) ∧
      (¬ (b ∈ bs ∧ b.Listens d node event) → (ls.reached d node event).count b = 0) := by
  have hnodup : (ls.reached d node event).Nodup := by
    apply Engine.nodup_reached hd
    rw [h, Engine.map_binding_listeners]
    exact hbs.filter _
  rw [← mem_reached h hd]
  exact ⟨List.count_eq_one_of_mem hnodup, List.count_eq_zero_of_not_mem⟩

end Listeners

namespace Engine

variable {e : Engine}

/-- A started engine that listens for these bindings, and for each of them once. -/
structure Listening (bs : List Binding) (e : Engine) : Prop where
  started : e.started = true
  entries_eq : e.listeners.entries = bs.filterMap Binding.listener?

theorem Listening.call (h : Listening bs e) (c : Call) : Listening bs (e.call c) := by
  obtain ⟨hentries, hstarted⟩ := listeners_call e c
  have hbound : e.bound c = [] := by
    cases c <;> simp [bound, h.started]
  constructor
  · rw [hstarted, h.started, Bool.true_or]
  · rw [hentries, hbound, List.filterMap_nil, List.append_nil]
    exact h.entries_eq

theorem Listening.move (h : Listening bs e) (m : Move) : Listening bs (e.move m) := by
  cases m with
  | call c => exact h.call c
  | complete b fetched =>
    obtain ⟨⟨hlisteners, -, hstarted⟩, -⟩ := complete_cases e b fetched
    exact ⟨hstarted.trans h.started, hlisteners ▸ h.entries_eq⟩
  | edit x => exact ⟨h.started, h.entries_eq⟩

theorem Listening.moving (moves : List Move) : ∀ {e : Engine}, Listening bs e → Listening bs (e.moving moves) := by
  induction moves with
  | nil => exact fun h => h
  | cons m rest ih => exact fun h => ih (h.move m)

/-- The start adds the listeners of all bindings. -/
theorem listening_start (hstarted : e.started = false) (hnone : e.listeners.entries = []) :
    Listening e.scan e.start.2 := by
  refine ⟨started_start e, ?_⟩
  obtain ⟨hentries, -⟩ := listeners_call e .start
  have hbound : e.bound .start = e.scan := by simp [bound, hstarted]
  rw [hbound, hnone, List.nil_append] at hentries
  exact hentries

/-! ## What an event does -/

theorem defaultPrevented_foldl (bs : List Binding) : ∀ fired : Event,
    (bs.foldl (fun fired _ => fired.preventDefault) fired).defaultPrevented =
      (fired.defaultPrevented || decide (0 < bs.length)) := by
  induction bs with
  | nil => simp
  | cons b rest ih =>
    intro fired
    rw [List.foldl_cons, ih]
    simp [Event.preventDefault]

theorem dispatch_fst (e : Engine) (node : NodeId) (event : String) : (e.dispatch node event).1 =
    ⟨(e.begun (.dispatch node event)).length, decide (0 < (e.begun (.dispatch node event)).length)⟩ := by
  have hprevented := defaultPrevented_foldl (e.listeners.reached e.document node event)
    { name := event, target := node }
  rw [Bool.false_or] at hprevented
  exact congrArg (Dispatched.mk (e.listeners.reached e.document node event).length) hprevented

/-- An event records the runs that it begins, in their order, and then no further beginning of a run. -/
theorem journal_dispatch (e : Engine) (node : NodeId) (event : String) :
    ∃ closing : List (NodeId × Happening), (∀ n ∈ closing, n.2.isBegin = false) ∧
      (e.dispatch node event).2.journal =
        e.journal.emitAll ((e.begun (.dispatch node event)).map e.triggering ++ closing) := by
  obtain ⟨ends, -, hends, hjournal⟩ := journal_call e (.dispatch node event)
  exact ⟨ends.flatMap recordsOf, not_isBegin_of_mem_ends hends, hjournal⟩

/-- Whatever followed the start of a page, if no node is above itself, an event begins one run of each binding
that listens for it and no other run, those with the nearest event targets first and those with the same one in
the order of the page. The report counts these runs, and the default is prevented if there are any. Each
binding that does not load has one listener, and another start does nothing. -/
theorem event_reaches_listening (html : String) (settings : Settings) (transport : Transport)
    (handlers : Handlers) (journal : Journal) (moves : List Move) (node : NodeId) (event : String)
    (hd : (((onPage html settings transport handlers journal).start.2).moving moves).document.Rising) :
    let page := Document.parse html
    let bs := page.bindings settings.names
    let e := ((onPage html settings transport handlers journal).start.2).moving moves
    let hit := e.begun (.dispatch node event)
    (∀ b, (b ∈ bs ∧ b.Listens e.document node event → hit.count b = 1) ∧
      (¬ (b ∈ bs ∧ b.Listens e.document node event) → hit.count b = 0)) ∧
    hit.Pairwise (Binding.Ahead page e.document node) ∧
    ((e.dispatch node event).1.triggered = hit.length ∧
      ((e.dispatch node event).1.defaultPrevented = true ↔ 0 < hit.length)) ∧
    (∃ closing : List (NodeId × Happening), (∀ n ∈ closing, n.2.isBegin = false) ∧
      (e.dispatch node event).2.journal = e.journal.emitAll (hit.map e.triggering ++ closing)) ∧
    e.listeners.entries = bs.filterMap Binding.listener? ∧ e.start.2 = e := by
  intro page bs e hit
  have hw : page.WellFormed := wellFormed_parse html
  have hnodup : bs.Nodup := (nodup_template_bindings hw settings.names).of_map
  have hordered := pairwise_bindings hw settings.names
  have hstart : Listening bs (onPage html settings transport handlers journal).start.2 :=
    listening_start (e := onPage html settings transport handlers journal) rfl rfl
  have hl : Listening bs e := hstart.moving moves
  have hcount := Listeners.count_reached hl.entries_eq hd hnodup
  have hahead := Listeners.pairwise_reached hl.entries_eq hd hordered node event
  refine ⟨fun b => hcount b node event, hahead, ?_, journal_dispatch e node event, hl.entries_eq,
    start_of_started hl.started⟩
  rw [dispatch_fst]
  exact ⟨rfl, decide_eq_true_iff⟩

/-- After the paragraph has been moved into the division, a click on the paragraph first runs the template that
listens on it and then the one that listens on the division, which comes first in the page. -/
theorem event_reaches_listening_moved :
    let html := "<p id=p></p><div id=d></div>" ++
      "<template hx-endpoint=/1 hx-event=onclick hx-event-target=#d></template>" ++
      "<template hx-endpoint=/2 hx-event=onclick hx-event-target=#p></template>"
    let page := Document.parse html
    let e := ((onPage html {} (.script {}) {} {}).start.2).moving [.edit (.append 5 4)]
    let hit := e.begun (.dispatch 4 "click")
    e.document.Rising ∧ hit.map (fun b => (b.template, b.eventTarget)) = [(9, 4), (7, 5)] ∧
      hit.Pairwise (Binding.Ahead page e.document 4) ∧
      (e.dispatch 4 "click").1.triggered = 2 ∧ (e.dispatch 4 "click").1.defaultPrevented = true := by
  intro html page e hit
  obtain ⟨hd, htemplates⟩ : e.document.Rising ∧
      hit.map (fun b => (b.template, b.eventTarget)) = [(9, 4), (7, 5)] := by
    decide +kernel
  have hlength : hit.length = 2 := by
    have h := congrArg List.length htemplates
    rwa [List.length_map] at h
  obtain ⟨-, hahead, ⟨htriggered, hprevented⟩, -⟩ :=
    event_reaches_listening html {} (.script {}) {} {} [.edit (.append 5 4)] 4 "click" hd
  -- The reports are compared as they stand; an abbreviated engine would be run for that.
  subst e
  have hcount := htriggered.trans hlength
  exact ⟨hd, htemplates, hahead, hcount, hprevented.mpr (hlength ▸ Nat.two_pos)⟩

end Engine

end Hypertemplate
