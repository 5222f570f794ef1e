import Hypertemplate.Proofs.Document.Walks
import Hypertemplate.Proofs.Engine.Failures
import Hypertemplate.Proofs.Engine.Records

/-!
# The protocol of the journal

The records of one template tell that it was bound and then its runs, each from its beginning to its end
(`pipeline_protocol`). This holds however the runs of different templates overlap, because no two runs that a
call begins are of the same template: a template is bound once, and an event reaches a listener once.
-/

namespace Hypertemplate

namespace Engine

open Document

variable {e e₀ : Engine} {b : Binding} {c : Call}

/-- The records of the end of a run. -/
def recordsOf (x : Binding × List Happening) : List (NodeId × Happening) := x.2.map fun h => (x.1.template, h)

/-- What becomes of the error of a run: it goes to the handler that the binding names, if there is one. -/
def reaction (e : Engine) (b : Binding) (error : String) : Happening :=
  match b.errorHandler with
  | none => .errorSwallowed error
  | some name => if e.handlers.contains name then .handlerInvoked name error else .handlerMissing name

/-- What happens at the end of a run. -/
def endOf (e : Engine) (r : Binding × Fetched) : List Happening :=
  match r.2 with
  | .failed error => [.fetchFailed error, e.reaction r.1 error]
  | .data v => [.fetchSucceeded r.2.itemCount, .rendered r.1.action
      (e.document.render e.settings.nestedArrayAttribute r.1.template v r.1.target r.1.action).1]

theorem end_endOf (e : Engine) (r : Binding × Fetched) : r.1.End (e.endOf r) := by
  obtain ⟨b, fetched⟩ := r
  cases fetched with
  | data v => exact .rendered _ _
  | failed error =>
    cases hname : b.errorHandler with
    | none =>
      simp only [endOf, reaction, hname]
      exact .swallowed error hname
    | some name =>
      simp only [endOf, reaction, hname]
      split
      · exact .handled error name hname
      · exact .unhandled error name hname

theorem journal_complete (e : Engine) (r : Binding × Fetched) :
    (e.complete r.1 r.2).journal = e.journal.emitAll (recordsOf (r.1, e.endOf r)) := by
  obtain ⟨b, fetched⟩ := r
  cases fetched with
  | data v => rfl
  | failed error =>
    cases hname : b.errorHandler with
    | none =>
      simp only [complete, routeError, endOf, reaction, hname]
      rfl
    | some name =>
      cases hget : e.handlers.get? name with
      | none =>
        simp only [complete, routeError, endOf, reaction, emit, hname, Handlers.invoke?, Handlers.contains_eq_isSome,
          hget]
        rfl
      | some handler =>
        simp only [complete, routeError, endOf, reaction, emit, hname, Handlers.invoke?, Handlers.contains_eq_isSome,
          hget]
        rfl

/-- What happens at the ends of runs, one after the other. -/
def endsOf (e : Engine) : List (Binding × Fetched) → List (Binding × List Happening)
  | [] => []
  | r :: rest => (r.1, e.endOf r) :: (e.complete r.1 r.2).endsOf rest

theorem journal_endsOf (results : List (Binding × Fetched)) : ∀ e : Engine,
    (e.ending results).journal = e.journal.emitAll ((e.endsOf results).flatMap recordsOf) := by
  induction results with
  | nil => exact fun _ => rfl
  | cons r rest ih =>
    intro e
    change ((e.complete r.1 r.2).ending rest).journal = _
    rw [ih, journal_complete, endsOf, List.flatMap_cons, Journal.emitAll_append]

theorem endsOf_spec (results : List (Binding × Fetched)) : ∀ e : Engine,
    (e.endsOf results).map Prod.fst = results.map Prod.fst ∧ ∀ x ∈ e.endsOf results, x.1.End x.2 := by
  induction results with
  | nil => exact fun _ => ⟨rfl, by simp [endsOf]⟩
  | cons r rest ih =>
    intro e
    obtain ⟨hfst, hends⟩ := ih (e.complete r.1 r.2)
    refine ⟨by simp [endsOf, hfst], fun x hx => ?_⟩
    rcases List.mem_cons.mp hx with rfl | hx
    · exact end_endOf e r
    · exact hends x hx

theorem journal_ending (results : List (Binding × Fetched)) (e : Engine) :
    ∃ ends : List (Binding × List Happening), ends.map Prod.fst = results.map Prod.fst ∧
      (∀ x ∈ ends, x.1.End x.2) ∧ (e.ending results).journal = e.journal.emitAll (ends.flatMap recordsOf) :=
  ⟨e.endsOf results, (endsOf_spec results e).1, (endsOf_spec results e).2, journal_endsOf results e⟩

/-- A call records its opening and then the ends of the runs that it began. -/
theorem journal_call (e : Engine) (c : Call) :
    ∃ ends : List (Binding × List Happening), (ends.map Prod.fst).Perm (e.begun c) ∧
      (∀ x ∈ ends, x.1.End x.2) ∧
      (e.call c).journal = e.journal.emitAll (e.opening c ++ ends.flatMap recordsOf) := by
  rw [call_eq]
  obtain ⟨ends, hfst, hends, hjournal⟩ := journal_ending (e.results c)
    { e.opened c with transport := (sendAll e.transport (e.requests c)).2 }
  refine ⟨ends, ?_, hends, ?_⟩
  · rw [hfst]
    exact results_perm e c
  · rw [hjournal, Journal.emitAll_append]
    rfl

/-! ## How many records -/

theorem length_flatMap_recordsOf {ends : List (Binding × List Happening)}
    (h : ∀ x ∈ ends, x.1.End x.2) : (ends.flatMap recordsOf).length = 2 * ends.length := by
  induction ends with
  | nil => rfl
  | cons x rest ih =>
    have hx : (recordsOf x).length = 2 := by
      rw [recordsOf, List.length_map]
      exact (h x (by simp)).length_eq
    rw [List.flatMap_cons, List.length_append, hx, ih fun y hy => h y (by simp [hy]), List.length_cons]
    omega

theorem length_flatMap_registering (e : Engine) (bs : List Binding) :
    (bs.flatMap e.registering).length = bs.length + (bs.filter Binding.loads).length := by
  induction bs with
  | nil => rfl
  | cons b rest ih =>
    rw [List.flatMap_cons, List.length_append, ih]
    by_cases hloads : b.loads = true
    · simp [registering, hloads]
      omega
    · simp [registering, hloads]
      omega

theorem length_opening (e : Engine) (c : Call) :
    (e.opening c).length = (e.bound c).length + (e.begun c).length := by
  cases c with
  | start => exact length_flatMap_registering _ _
  | dispatch node event => simp [opening, bound]
  | dispatchAt selector event => simp [opening, bound]

theorem nextId_call (e : Engine) (c : Call) : (e.call c).journal.nextId =
    e.journal.nextId + (e.bound c).length + 3 * (e.begun c).length := by
  obtain ⟨ends, hperm, hends, hjournal⟩ := journal_call e c
  have hlength : ends.length = (e.begun c).length := by
    rw [← hperm.length_eq, List.length_map]
  rw [hjournal, (Journal.nextId_emitAll _ _).1, List.length_append, length_opening,
    length_flatMap_recordsOf hends, hlength]
  omega

theorem capacity_call (e : Engine) (c : Call) : (e.call c).journal.capacity = e.journal.capacity := by
  obtain ⟨ends, -, -, hjournal⟩ := journal_call e c
  rw [hjournal, (Journal.nextId_emitAll _ _).2]

/-! ## No template twice -/

theorem map_template_bindings_sublist (d : Document) (names : AttributeNames) :
    ((d.bindings names).map (·.template)).Sublist (d.descendants Document.root) := by
  have key : ∀ is : List NodeId, ((is.filterMap (d.binding? names)).map (·.template)).Sublist is := by
    intro is
    induction is with
    | nil => exact List.Sublist.refl _
    | cons i rest ih =>
      cases hb : d.binding? names i with
      | none =>
        rw [List.filterMap_cons_none hb]
        exact ih.cons i
      | some b =>
        obtain ⟨endpoint, -, rfl⟩ := Option.map_eq_some_iff.mp hb
        rw [List.filterMap_cons_some hb, List.map_cons]
        exact ih.cons_cons i
  exact (key _).trans List.filter_sublist

/-- A page binds a template once. -/
theorem nodup_template_bindings {d : Document} (h : d.WellFormed) (names : AttributeNames) :
    ((d.bindings names).map (·.template)).Nodup :=
  (Document.nodup_descendants h.sound _).sublist (map_template_bindings_sublist d names)

theorem map_binding_listeners (bs : List Binding) :
    (bs.filterMap Binding.listener?).map (·.binding) = bs.filter fun b => !b.loads := by
  induction bs with
  | nil => rfl
  | cons b rest ih =>
    cases ht : Trigger.ofEvent b.event with
    | load => simp [Binding.listener?, Binding.loads, ht, ih]
    | event name => simp [Binding.listener?, Binding.loads, ht, ih]

/-- An event reaches a listener once: the nodes on its way are different. -/
theorem nodup_reached {ls : Listeners} {d : Document} (h : d.Rising)
    (hnd : (ls.entries.map (·.binding)).Nodup) (node : NodeId) (event : String) :
    (ls.reached d node event).Nodup := by
  have hinj := List.inj_on_of_nodup_map hnd
  unfold Listeners.reached
  rw [List.nodup_flatMap]
  constructor
  · intro i _
    exact hnd.sublist (List.filter_sublist.map _)
  · refine (h.nodup_ancestors node).imp ?_
    intro i j hij b hi hj
    obtain ⟨l, hl, rfl⟩ := List.mem_map.mp hi
    obtain ⟨l', hl', he⟩ := List.mem_map.mp hj
    obtain ⟨hle, hli⟩ := List.mem_filter.mp hl
    obtain ⟨hle', hlj⟩ := List.mem_filter.mp hl'
    obtain rfl := hinj hle' hle he
    simp only [Bool.and_eq_true, beq_iff_eq] at hli hlj
    exact hij (hli.1.symm.trans hlj.1)

theorem listeners_ending (results : List (Binding × Fetched)) : ∀ e : Engine,
    (e.ending results).listeners = e.listeners ∧ (e.ending results).started = e.started := by
  induction results with
  | nil => exact fun _ => ⟨rfl, rfl⟩
  | cons r rest ih =>
    intro e
    obtain ⟨⟨hlisteners, -, hstarted⟩, -⟩ := complete_cases e r.1 r.2
    obtain ⟨ihl, ihs⟩ := ih (e.complete r.1 r.2)
    exact ⟨ihl.trans hlisteners, ihs.trans hstarted⟩

theorem listeners_call (e : Engine) (c : Call) :
    (e.call c).listeners.entries = e.listeners.entries ++ (e.bound c).filterMap Binding.listener? ∧
      (e.call c).started = (e.started || isStart c) := by
  rw [call_eq]
  obtain ⟨hlisteners, hstarted⟩ := listeners_ending (e.results c)
    { e.opened c with transport := (sendAll e.transport (e.requests c)).2 }
  rw [hlisteners, hstarted]
  exact ⟨rfl, rfl⟩

/-- An engine on a page whose listeners are of different bindings. -/
structure Distinct (e₀ e : Engine) : Prop where
  ready : Ready e₀ e
  listening_nodup : (e.listeners.entries.map (·.binding)).Nodup

/-- The first start makes the bindings of the page, and no other call makes any. -/
theorem Ready.bound_cases (r : Ready e₀ e) (c : Call) :
    (e.started = false ∧ (e.call c).started = true ∧ e.listeners.entries = [] ∧ e.bound c = e₀.scan) ∨
      ((e.call c).started = e.started ∧ e.bound c = []) := by
  obtain ⟨-, hstarted⟩ := listeners_call e c
  cases c with
  | dispatch node event => exact Or.inr ⟨by simpa [isStart] using hstarted, rfl⟩
  | dispatchAt selector event => exact Or.inr ⟨by simpa [isStart] using hstarted, rfl⟩
  | start =>
    cases r with
    | waiting hs hdocument hsettings hlisteners =>
      left
      refine ⟨hs, by rw [hstarted]; simp [isStart], hlisteners, ?_⟩
      simp [bound, hs, scan, hdocument, hsettings]
    | running hs _ =>
      right
      exact ⟨by rw [hstarted, hs]; rfl, by simp [bound, hs]⟩

theorem nodup_template_scan (ht : e₀.document.Tidy []) : (e₀.scan.map (·.template)).Nodup :=
  nodup_template_bindings ht.wellFormed e₀.settings.names

theorem Distinct.call (h : Distinct e₀ e) (ht : e₀.document.Tidy []) (hp : e₀.document.pinned = [])
    (c : Call) : Distinct e₀ (e.call c) where
  ready := h.ready.call ht hp c
  listening_nodup := by
    obtain ⟨hlisteners, -⟩ := listeners_call e c
    rw [hlisteners, List.map_append]
    rcases h.ready.bound_cases c with ⟨-, -, hnone, hbound⟩ | ⟨-, hbound⟩
    · rw [hnone, hbound, map_binding_listeners]
      exact (nodup_template_scan ht).of_map.sublist List.filter_sublist
    · rw [hbound, List.filterMap_nil, List.map_nil, List.append_nil]
      exact h.listening_nodup

/-- A call begins runs of different templates, which the page binds. -/
theorem Distinct.nodup_begun (h : Distinct e₀ e) (ht : e₀.document.Tidy []) (c : Call) :
    (e.begun c).Nodup ∧ ∀ b ∈ e.begun c, b ∈ e₀.scan := by
  have hreached : ∀ node event, (e.listeners.reached e.document node event).Nodup ∧
      ∀ b ∈ e.listeners.reached e.document node event, b ∈ e₀.scan := by
    intro node event
    refine ⟨nodup_reached (h.ready.wellFormed ht).rising h.listening_nodup node event, fun b hb => ?_⟩
    obtain ⟨l, hl, rfl⟩ := binding_of_mem_reached hb
    cases h.ready with
    | waiting _ _ _ hnone =>
      rw [hnone] at hl
      cases hl
    | running _ hkeeps => exact (hkeeps.listening l hl).1
  cases c with
  | start =>
    have hbound : (e.bound .start).Sublist e₀.scan := by
      rcases h.ready.bound_cases .start with ⟨-, -, -, hbound⟩ | ⟨-, hbound⟩
      · rw [hbound]
      · rw [hbound]
        exact List.nil_sublist _
    have hsub : (e.begun .start).Sublist e₀.scan := List.filter_sublist.trans hbound
    exact ⟨(nodup_template_scan ht).of_map.sublist hsub, fun b hb => hsub.subset hb⟩
  | dispatch node event => exact hreached node event
  | dispatchAt selector event =>
    cases hfound : e.document.find? selector with
    | none => simp [begun, hfound]
    | some node => simpa [begun, hfound] using hreached node event

/-! ## The records of one call -/

theorem registering_spec (e : Engine) (b : Binding) :
    (∀ n ∈ e.registering b, n.1 = b.template ∧ n.2.isFetch = false) ∧
      ((e.registering b).filter (·.2.isBegin)).length = if b.loads then 1 else 0 := by
  unfold registering
  by_cases hloads : b.loads = true
  · simp [hloads, triggering, Happening.isFetch, Happening.isBegin]
  · simp [hloads, Happening.isFetch, Happening.isBegin]

theorem Distinct.nodup_template_begun (h : Distinct e₀ e) (ht : e₀.document.Tidy []) (c : Call) :
    ((e.begun c).map (·.template)).Nodup ∧ ∀ b ∈ e₀.scan, b ∉ e.begun c →
      ∀ x ∈ e.begun c, x.template ≠ b.template := by
  have hinj := List.inj_on_of_nodup_map (nodup_template_scan ht)
  obtain ⟨hnd, hsub⟩ := h.nodup_begun ht c
  constructor
  · exact hnd.map_on fun x hx y hy he => hinj (hsub x hx) (hsub y hy) he
  · intro b hb hnot x hx he
    exact hnot (hinj (hsub x hx) hb he ▸ hx)

/-- An opening tells of a template that it is bound, if the call binds it, and that its run begins, if the
call begins one. -/
theorem Distinct.happeningsOf_opening (h : Distinct e₀ e) (ht : e₀.document.Tidy []) (hb : b ∈ e₀.scan)
    (c : Call) : ∃ method url, happeningsOf b.template (e.opening c) =
      (if b ∈ e.bound c then [.bindingRegistered b.endpoint b.event] else []) ++
        if b ∈ e.begun c then [.triggered method url] else [] := by
  obtain ⟨hnd, hother⟩ := h.nodup_template_begun ht c
  have hdispatch : e.bound c = [] → ∃ method url, happeningsOf b.template ((e.begun c).map e.triggering) =
      (if b ∈ e.bound c then [.bindingRegistered b.endpoint b.event] else []) ++
        if b ∈ e.begun c then [.triggered method url] else [] := by
    intro hbound
    refine ⟨(e.requestOf b).method, (e.requestOf b).url, ?_⟩
    rw [List.map_eq_flatMap, happeningsOf_flatMap Binding.template (by simp [triggering]), hbound]
    by_cases hmem : b ∈ e.begun c
    · rw [flatMap_key_of_mem hnd hmem, if_pos hmem]
      rfl
    · rw [flatMap_key_of_not_mem (hother b hb hmem), if_neg hmem]
      rfl
  cases c with
  | start =>
    rcases h.ready.bound_cases .start with ⟨-, -, -, hbound⟩ | ⟨-, hbound⟩
    · refine ⟨((e.pinning .start).requestOf b).method, ((e.pinning .start).requestOf b).url, ?_⟩
      rw [opening, happeningsOf_flatMap _ fun x n hn => ((registering_spec _ x).1 n hn).1, hbound,
        flatMap_key_of_mem (nodup_template_scan ht) hb, if_pos hb]
      by_cases hloads : b.loads = true
      · have hmem : b ∈ e.begun .start := List.mem_filter.mpr ⟨by rw [hbound]; exact hb, hloads⟩
        rw [if_pos hmem, registering, if_pos hloads]
        rfl
      · have hmem : b ∉ e.begun .start := fun hm => hloads (List.mem_filter.mp hm).2
        rw [if_neg hmem, registering, if_neg hloads]
        rfl
    · have hbegun : e.begun .start = [] := by rw [begun, hbound, List.filter_nil]
      have hopening : e.opening .start = [] := by rw [opening, hbound, List.flatMap_nil]
      refine ⟨"", "", ?_⟩
      rw [hopening, hbound, hbegun]
      rfl
  | dispatch node event => exact hdispatch rfl
  | dispatchAt selector event => exact hdispatch rfl

/-- The ends of the runs of a call tell of a template how its run ended, if the call began one. -/
theorem Distinct.happeningsOf_ends (h : Distinct e₀ e) (ht : e₀.document.Tidy []) (hb : b ∈ e₀.scan)
    {ends : List (Binding × List Happening)} (hperm : (ends.map Prod.fst).Perm (e.begun c))
    (hends : ∀ x ∈ ends, x.1.End x.2) :
    (b ∈ e.begun c → b.End (happeningsOf b.template (ends.flatMap recordsOf))) ∧
      (b ∉ e.begun c → happeningsOf b.template (ends.flatMap recordsOf) = []) := by
  obtain ⟨hnd, hother⟩ := h.nodup_template_begun ht c
  have hkey : ∀ x, ∀ n ∈ recordsOf x, n.1 = x.1.template := by
    intro x n hn
    obtain ⟨happening, -, rfl⟩ := List.mem_map.mp hn
    rfl
  have hrecords : ∀ x : Binding × List Happening, (recordsOf x).map (·.2) = x.2 := by
    intro x
    simp [recordsOf, List.map_map, Function.comp_def]
  have htemplates : (ends.map fun x => x.1.template).Nodup := by
    have hp := hperm.map (·.template)
    rw [List.map_map] at hp
    exact hp.nodup_iff.mpr hnd
  rw [happeningsOf_flatMap _ hkey]
  constructor
  · intro hmem
    obtain ⟨x, hx, rfl⟩ := List.mem_map.mp (hperm.mem_iff.mpr hmem)
    rw [flatMap_key_of_mem htemplates hx, hrecords]
    exact hends x hx
  · intro hmem
    apply flatMap_key_of_not_mem
    intro x hx
    exact hother b hb hmem x.1 (hperm.mem_iff.mp (List.mem_map_of_mem hx))

/-- What a call adds to the records of a template: that it is bound, if the call binds it, and whole runs. -/
theorem Distinct.happeningsOf_call (h : Distinct e₀ e) (ht : e₀.document.Tidy []) (hb : b ∈ e₀.scan)
    {ends : List (Binding × List Happening)} (hperm : (ends.map Prod.fst).Perm (e.begun c))
    (hends : ∀ x ∈ ends, x.1.End x.2) :
    ∃ runs : List (List Happening), (∀ r ∈ runs, b.Run r) ∧
      happeningsOf b.template (e.opening c ++ ends.flatMap recordsOf) =
        (if b ∈ e.bound c then [.bindingRegistered b.endpoint b.event] else []) ++ runs.flatten := by
  obtain ⟨method, url, hopening⟩ := h.happeningsOf_opening ht hb c
  obtain ⟨hend, hnone⟩ := h.happeningsOf_ends ht hb hperm hends
  rw [happeningsOf_append, hopening]
  by_cases hmem : b ∈ e.begun c
  · refine ⟨[.triggered method url :: happeningsOf b.template (ends.flatMap recordsOf)], ?_, ?_⟩
    · intro r hr
      rw [List.mem_singleton.mp hr]
      exact .mk method url (hend hmem)
    · rw [if_pos hmem]
      simp
  · refine ⟨[], by simp, ?_⟩
    rw [if_neg hmem, hnone hmem]
    simp

/-! ## The records of all calls -/

/-- The journal of an engine on a page, as long as nothing was dropped. -/
structure Told (e₀ e : Engine) : Prop where
  distinct : Distinct e₀ e
  whole : e.journal.Whole
  silent : e.started = false → e.journal.entries = []
  told : e.started = true → ∀ b ∈ e₀.scan, ∃ runs : List (List Happening), (∀ r ∈ runs, b.Run r) ∧
    e.journal.happenings b.template = .bindingRegistered b.endpoint b.event :: runs.flatten

/-- Nothing is recorded before the page starts. -/
theorem Ready.idle (r : Ready e₀ e) (h : (e.call c).started = false) : e.bound c = [] ∧ e.begun c = [] := by
  obtain ⟨-, hstarted⟩ := listeners_call e c
  rw [h, eq_comm, Bool.or_eq_false_iff] at hstarted
  obtain ⟨hs, hc⟩ := hstarted
  cases r with
  | running hrunning _ =>
    rw [hrunning] at hs
    cases hs
  | waiting _ _ _ hnone =>
    refine ⟨?_, begun_of_silent hnone hc⟩
    cases c with
    | start => cases hc
    | dispatch node event => rfl
    | dispatchAt selector event => rfl

theorem Told.call (t : Told e₀ e) (ht : e₀.document.Tidy []) (hp : e₀.document.pinned = [])
    (hroom : (e.call c).journal.nextId ≤ (e.call c).journal.capacity) :
    Told e₀ (e.call c) := by
  obtain ⟨ends, hperm, hends, hjournal⟩ := journal_call e c
  have hfits := hroom
  rw [hjournal, (Journal.nextId_emitAll _ _).1, (Journal.nextId_emitAll _ _).2] at hfits
  obtain ⟨hwhole, hentries⟩ := t.whole.emitAll _ hfits
  rw [← hjournal] at hwhole hentries
  refine
    { distinct := t.distinct.call ht hp c
      whole := hwhole
      silent := fun hstarted => ?_
      told := fun hstarted b hb => ?_ }
  · obtain ⟨hbound, hbegun⟩ := t.distinct.ready.idle hstarted
    have hopening : e.opening c = [] := by
      apply List.eq_nil_of_length_eq_zero
      rw [length_opening, hbound, hbegun]
      rfl
    have hnone : ends = [] := by
      rw [hbegun, List.perm_nil, List.map_eq_nil_iff] at hperm
      exact hperm
    have hs : e.started = false := by
      obtain ⟨-, h⟩ := listeners_call e c
      rw [hstarted, eq_comm, Bool.or_eq_false_iff] at h
      exact h.1
    rw [hentries, t.silent hs, hopening, hnone]
    rfl
  · obtain ⟨runs, hruns, hnews⟩ := t.distinct.happeningsOf_call ht hb hperm hends
    rw [Journal.happenings_eq, hentries, happeningsOf_append, hnews, ← Journal.happenings_eq]
    rcases t.distinct.ready.bound_cases c with ⟨hs, -, -, hbound⟩ | ⟨hs, hbound⟩
    · -- The call binds the page: there were no records before.
      refine ⟨runs, hruns, ?_⟩
      rw [Journal.happenings_eq, t.silent hs, hbound, if_pos hb]
      rfl
    · obtain ⟨before, hbefore, htold⟩ := t.told (hs ▸ hstarted) b hb
      refine ⟨before ++ runs, ?_, ?_⟩
      · intro r hr
        rcases List.mem_append.mp hr with hr | hr
        · exact hbefore r hr
        · exact hruns r hr
      · rw [htold, hbound, List.flatten_append]
        simp

/-- The runs that a call says it began. -/
def reported (e : Engine) : Call → Nat
  | .start => e.start.1.immediate
  | .dispatch node event => (e.dispatch node event).1.triggered
  | .dispatchAt selector event =>
    match e.dispatchAt selector event with
    | .ok (outcome, _) => outcome.triggered
    | .error _ => 0

/-- The runs that several calls say they began. -/
def reportedBy (e : Engine) : List Call → Nat
  | [] => 0
  | c :: rest => e.reported c + (e.call c).reportedBy rest

theorem reported_eq (e : Engine) (c : Call) : e.reported c = (e.begun c).length := by
  cases c with
  | start =>
    cases hstarted : e.started with
    | true => simp [reported, start, begun, bound, hstarted]
    | false => simp [reported, start, begun, bound, hstarted, bindAll_eq]
  | dispatch node event => rfl
  | dispatchAt selector event =>
    cases hselect : e.document.select selector with
    | error failure =>
      simp only [reported, dispatchAt, begun, Document.find?, hselect]
      rfl
    | ok found =>
      cases found with
      | none =>
        simp only [reported, dispatchAt, begun, Document.find?, hselect]
        rfl
      | some node =>
        simp only [reported, dispatchAt, begun, Document.find?, hselect]
        rfl

/-- Each run that a call began is recorded at its beginning, before any run of the call ends. -/
theorem opening_spec (e : Engine) (c : Call) :
    (∀ n ∈ e.opening c, n.2.isFetch = false) ∧
      ((e.opening c).filter (·.2.isBegin)).length = (e.begun c).length := by
  have hdispatch : ∀ bs : List Binding, (∀ n ∈ bs.map e.triggering, n.2.isFetch = false) ∧
      ((bs.map e.triggering).filter (·.2.isBegin)).length = bs.length := by
    intro bs
    constructor
    · intro n hn
      obtain ⟨b, -, rfl⟩ := List.mem_map.mp hn
      rfl
    · rw [List.filter_eq_self.mpr, List.length_map]
      intro n hn
      obtain ⟨b, -, rfl⟩ := List.mem_map.mp hn
      rfl
  have hstart : ∀ (e : Engine) (bs : List Binding),
      (∀ n ∈ bs.flatMap e.registering, n.2.isFetch = false) ∧
        ((bs.flatMap e.registering).filter (·.2.isBegin)).length = (bs.filter Binding.loads).length := by
    intro e bs
    constructor
    · intro n hn
      obtain ⟨b, -, hn⟩ := List.mem_flatMap.mp hn
      exact ((registering_spec e b).1 n hn).2
    · induction bs with
      | nil => rfl
      | cons b rest ih =>
        rw [List.flatMap_cons, List.filter_append, List.length_append, ih, (registering_spec e b).2]
        by_cases hloads : b.loads = true
        · rw [if_pos hloads, List.filter_cons_of_pos hloads, List.length_cons, Nat.add_comm]
        · rw [if_neg hloads, List.filter_cons_of_neg hloads, Nat.zero_add]
  cases c with
  | start => exact hstart (e.pinning .start) (e.bound .start)
  | dispatch node event => exact hdispatch _
  | dispatchAt selector event => exact hdispatch _

theorem not_isBegin_of_mem_ends {ends : List (Binding × List Happening)} (h : ∀ x ∈ ends, x.1.End x.2) :
    ∀ n ∈ ends.flatMap recordsOf, n.2.isBegin = false := by
  intro n hn
  obtain ⟨x, hx, hn⟩ := List.mem_flatMap.mp hn
  obtain ⟨happening, hmem, rfl⟩ := List.mem_map.mp hn
  exact (h x hx).not_isBegin happening hmem

/-- The bindings that are recorded: those of the page once it started. -/
def registeredCount (e₀ e : Engine) : Nat := if e.started then e₀.scan.length else 0

theorem Ready.nextId_calling (ht : e₀.document.Tidy []) (hp : e₀.document.pinned = [])
    (calls : List Call) : ∀ {e : Engine}, Ready e₀ e →
    (e.calling calls).journal.nextId + registeredCount e₀ e =
      e.journal.nextId + registeredCount e₀ (e.calling calls) + 3 * e.reportedBy calls := by
  induction calls with
  | nil => exact fun _ => rfl
  | cons c rest ih =>
    intro e r
    have hrest := ih (r.call ht hp c)
    have hnext := nextId_call e c
    rw [← reported_eq] at hnext
    change ((e.call c).calling rest).journal.nextId + _ =
      _ + registeredCount e₀ ((e.call c).calling rest) + 3 * (e.reported c + (e.call c).reportedBy rest)
    have hcount : registeredCount e₀ (e.call c) = registeredCount e₀ e + (e.bound c).length := by
      unfold registeredCount
      rcases r.bound_cases c with ⟨hs, hs', -, hbound⟩ | ⟨hs, hbound⟩
      · simp [hs, hs', hbound]
      · simp [hs, hbound]
    omega

theorem nextId_le_calling (calls : List Call) : ∀ e : Engine,
    e.journal.nextId ≤ (e.calling calls).journal.nextId ∧
      (e.calling calls).journal.capacity = e.journal.capacity := by
  induction calls with
  | nil => exact fun _ => ⟨Nat.le_refl _, rfl⟩
  | cons c rest ih =>
    intro e
    obtain ⟨hle, hcapacity⟩ := ih (e.call c)
    have hnext := nextId_call e c
    refine ⟨?_, hcapacity.trans (capacity_call e c)⟩
    change _ ≤ ((e.call c).calling rest).journal.nextId
    omega

theorem calling_append (e : Engine) (calls more : List Call) :
    e.calling (calls ++ more) = (e.calling calls).calling more :=
  List.foldl_append

theorem Told.calling (ht : e₀.document.Tidy []) (hp : e₀.document.pinned = []) (calls : List Call) :
    ∀ {e : Engine}, Told e₀ e → (e.calling calls).journal.nextId ≤ e.journal.capacity →
      Told e₀ (e.calling calls) := by
  induction calls with
  | nil => exact fun t _ => t
  | cons c rest ih =>
    intro e t hroom
    have hle := (nextId_le_calling rest (e.call c)).1
    have hroom' : ((e.call c).calling rest).journal.nextId ≤ (e.call c).journal.capacity := by
      rw [capacity_call]
      exact hroom
    exact ih (t.call ht hp (Nat.le_trans hle hroom')) hroom'

/-- After any calls of an engine on any page, if the journal has room for all records: the records of a bound
template say that it was bound and then tell its runs, each from its beginning to its end, while before the
start there are none. Each call adds an opening, which tells of no fetch and in which all runs begin that the
call reports, and then the ends of these runs, in which none begins. The records count the bindings once and
each run three times. -/
theorem pipeline_protocol (html : String) (settings : Settings) (transport : Transport)
    (handlers : Handlers) (capacity : Nat) (calls : List Call)
    (hroom : ((onPage html settings transport handlers { capacity }).calling calls).journal.nextId ≤
      capacity) :
    let page := onPage html settings transport handlers { capacity }
    let e := page.calling calls
    (e.started = true → ∀ b ∈ page.scan, ∃ runs : List (List Happening), (∀ r ∈ runs, b.Run r) ∧
      e.journal.happenings b.template = .bindingRegistered b.endpoint b.event :: runs.flatten) ∧
    (e.started = false → e.journal.records = []) ∧
    (∀ earlier c later, calls = earlier ++ c :: later → ∃ opening closing,
      ((page.calling earlier).call c).journal.entries =
        (page.calling earlier).journal.entries ++ opening ++ closing ∧
      (∀ n ∈ opening, n.2.isFetch = false) ∧ (∀ n ∈ closing, n.2.isBegin = false) ∧
      (opening.filter (·.2.isBegin)).length = (page.calling earlier).reported c) ∧
    e.journal.nextId = (if e.started then page.scan.length else 0) + 3 * page.reportedBy calls := by
  intro page e
  have ht : page.document.Tidy [] := tidy_parse html
  have hp : page.document.pinned = [] := pinned_parse html
  have start : Told page page :=
    { distinct := { ready := .waiting rfl rfl rfl rfl, listening_nodup := List.nodup_nil }
      whole := rfl
      silent := fun _ => rfl
      told := fun h => absurd h (by simp [page, onPage]) }
  have htold : Told page e := start.calling ht hp calls hroom
  refine ⟨htold.told, fun hs => List.map_eq_nil_iff.mp (htold.silent hs), ?_, ?_⟩
  · rintro earlier c later rfl
    have hrest : e = ((page.calling earlier).call c).calling later := calling_append page earlier (c :: later)
    have hle := nextId_le_calling later ((page.calling earlier).call c)
    have hcapacity := (nextId_le_calling earlier page).2
    have hmore := (nextId_le_calling [c] (page.calling earlier)).1
    rw [← hrest] at hle
    have hfits : ((page.calling earlier).call c).journal.nextId ≤ capacity := Nat.le_trans hle.1 hroom
    have hearlier : Told page (page.calling earlier) :=
      start.calling ht hp earlier (Nat.le_trans hmore hfits)
    obtain ⟨ends, -, hends, hjournal⟩ := journal_call (page.calling earlier) c
    obtain ⟨hfetch, hbegin⟩ := opening_spec (page.calling earlier) c
    rw [hjournal, (Journal.nextId_emitAll _ _).1] at hfits
    obtain ⟨-, hentries⟩ := hearlier.whole.emitAll _ (by rw [hcapacity]; exact hfits)
    refine ⟨_, _, ?_, hfetch, not_isBegin_of_mem_ends hends, by rw [hbegin, reported_eq]⟩
    rw [hjournal, hentries, List.append_assoc]
  · have hcount := start.distinct.ready.nextId_calling ht hp calls
    have hbefore : registeredCount page page = 0 := rfl
    have hnone : page.journal.nextId = 0 := rfl
    rw [hbefore, hnone, Nat.add_zero, Nat.zero_add] at hcount
    exact hcount

/-- A template that loads, on a page that is started twice, leaves four records. -/
theorem pipeline_protocol_load :
    let page := onPage "<template hx-endpoint=/x>a</template>" {} (.network .unreachable) {} { capacity := 4 }
    let calls := [.start, .start]
    (page.calling calls).journal.nextId ≤ 4 ∧
      (∀ b ∈ page.scan, ∃ runs : List (List Happening), (∀ r ∈ runs, b.Run r) ∧
        (page.calling calls).journal.happenings b.template =
          .bindingRegistered b.endpoint b.event :: runs.flatten) ∧
      page.reportedBy calls = 1 := by
  intro page calls
  have hroom : (page.calling calls).journal.nextId ≤ 4 := by decide +kernel
  obtain ⟨htold, -, -, -⟩ := pipeline_protocol _ {} (.network .unreachable) {} 4 calls hroom
  exact ⟨hroom, htold (by decide +kernel), by decide +kernel⟩

end Engine

end Hypertemplate
