import Hypertemplate.Proofs.Engine.Overlap

/-!
# The registry while runs end

A failed run looks up the handler that its binding names when it ends, so it finds the registry as the handlers that
were called before it left it. A handler that takes its own name out is therefore called once by the runs of a call,
by the first of them that fails and names it, and what a handler registers is there for the runs that end after it
(`self_removing_fires_once`). Both hold as long as no other handler interferes (`reregistered_fires_again`).
-/

namespace Hypertemplate

variable {hs : Handlers} {name other : String} {handler : Handler} {b : Behaviour} {r : Binding × Fetched}
  {results : List (Binding × Fetched)} {t : NodeId} {error : String}

/-! ## What scripts do to names -/

namespace Behaviour

/-- After this script nothing is registered under a name. -/
def Drops (b : Behaviour) (name : String) : Prop := ∀ hs : Handlers, (hs.after b).contains name = false

/-- After this script something is registered under a name. -/
def Brings (b : Behaviour) (name : String) : Prop := ∀ hs : Handlers, (hs.after b).contains name = true

/-- This script does not change what is registered under a name. -/
def Spares (b : Behaviour) (name : String) : Prop := ∀ hs : Handlers, (hs.after b).get? name = hs.get? name

/-- This script does not take a name out of the registry. -/
def Keeps (b : Behaviour) (name : String) : Prop :=
  ∀ hs : Handlers, hs.contains name = true → (hs.after b).contains name = true

theorem drops_of_last? (h : b.last? name = some none) : b.Drops name := by
  intro hs
  rw [Handlers.contains_eq_false_iff, Handlers.get?_after, h]
  rfl

theorem brings_of_last? (h : b.last? name = some (some handler)) : b.Brings name := by
  intro hs
  rw [Handlers.contains_iff, Handlers.get?_after, h]
  exact ⟨handler, rfl⟩

theorem spares_of_last? (h : b.last? name = none) : b.Spares name := by
  intro hs
  rw [Handlers.get?_after, h]
  rfl

end Behaviour

/-! ## The handlers that runs call -/

/-- A failed run whose binding names a handler, by its template and its error. -/
def failing? (name : String) (r : Binding × Fetched) : Option (NodeId × String) :=
  match r.2 with
  | .data _ => none
  | .failed error => if r.1.errorHandler = some name then some (r.1.template, error) else none

theorem failing?_eq_some_iff : failing? name r = some (t, error) ↔
    r.2 = .failed error ∧ r.1.errorHandler = some name ∧ r.1.template = t := by
  obtain ⟨b, fetched⟩ := r
  cases fetched with
  | data v => simp [failing?]
  | failed error' =>
    simp only [failing?, Option.ite_none_right_eq_some, Option.some.injEq, Prod.mk.injEq, Fetched.failed.injEq]
    exact ⟨fun ⟨h, ht, he⟩ => ⟨he, h, ht⟩, fun ⟨he, h, ht⟩ => ⟨h, ht, he⟩⟩

namespace Handlers

/-- The handler that the end of a run calls, by its name and the script that it runs. -/
def callee? (hs : Handlers) (r : Binding × Fetched) : Option (String × Behaviour) :=
  (hs.called? r).bind fun call => (hs.get? call.1).map fun handler => (call.1, handler call.2)

/-- The handlers that are called while runs end. -/
def callees : Handlers → List (Binding × Fetched) → List (String × Behaviour)
  | _, [] => []
  | hs, r :: rest => (hs.callee? r).toList ++ (hs.afterRun r).callees rest

theorem Calls.failing (h : hs.Calls r name error handler) : failing? name r = some (r.1.template, error) :=
  failing?_eq_some_iff.mpr ⟨h.failed, h.named, rfl⟩

theorem Calls.callee (h : hs.Calls r name error handler) : hs.callee? r = some (name, handler error) := by
  rw [callee?, h.called.1, Option.bind_some, get?_eq_some_iff.mpr h.registered, Option.map_some]

/-- A failed run calls the handler that its binding names, if it is registered. -/
theorem calls_of_failing (hr : failing? name r = some (t, error)) (hb : (name, handler) ∈ hs.entries) :
    hs.Calls r name error handler := by
  obtain ⟨hfailed, hname, -⟩ := failing?_eq_some_iff.mp hr
  exact ⟨hfailed, hname, hb⟩

/-- If it is not registered, the run calls none. -/
theorem called?_of_absent (hr : failing? name r = some (t, error)) (habsent : hs.contains name = false) :
    hs.called? r = none ∧ hs.afterRun r = hs := by
  obtain ⟨hfailed, hname, -⟩ := failing?_eq_some_iff.mp hr
  have hcalled : hs.called? r = none := by simp [called?, hfailed, hname, habsent]
  exact ⟨hcalled, afterRun_of_not_called hcalled⟩

/-- What the end of a run does to the registry, it does by calling one handler. -/
theorem afterRun_cases (hs : Handlers) (r : Binding × Fetched) :
    (hs.called? r = none ∧ hs.afterRun r = hs) ∨ ∃ other error handler, hs.Calls r other error handler := by
  cases hcalled : hs.called? r with
  | none => exact Or.inl ⟨rfl, afterRun_of_not_called hcalled⟩
  | some call => exact Or.inr ⟨call.1, call.2, calls_of_called? hcalled⟩

theorem afterRun_of_callee? (h : hs.callee? r = some (name, b)) : hs.afterRun r = hs.after b := by
  rcases hs.afterRun_cases r with ⟨hcalled, -⟩ | ⟨other, error, handler, hcalls⟩
  · rw [callee?, hcalled] at h
    cases h
  · rw [hcalls.callee] at h
    cases h
    exact hcalls.called.2

/-- A run that does not fail or whose binding does not name a handler does not call it, and leaves it as it is if the
handler that it calls does. -/
theorem spared_afterRun (hr : failing? name r = none)
    (hspares : ∀ x ∈ hs.callee? r, x.1 ≠ name → x.2.Spares name) :
    ((hs.called? r).toList.filter (·.1 == name)) = [] ∧ (hs.afterRun r).get? name = hs.get? name := by
  rcases hs.afterRun_cases r with ⟨hcalled, hafter⟩ | ⟨other, error, handler, h⟩
  · rw [hcalled, hafter]
    exact ⟨rfl, rfl⟩
  · have hne : other ≠ name := by
      rintro rfl
      rw [h.failing] at hr
      cases hr
    obtain ⟨hcalled, hafter⟩ := h.called
    rw [hcalled, hafter]
    exact ⟨by simp [hne], hspares (other, handler error) h.callee hne hs⟩

/-! ## Runs that end one after the other -/

theorem callsOf_append (results more : List (Binding × Fetched)) : ∀ hs : Handlers,
    hs.callsOf (results ++ more) = hs.callsOf results ++ (results.foldl afterRun hs).callsOf more := by
  induction results with
  | nil => exact fun _ => rfl
  | cons r rest ih =>
    intro hs
    rw [List.cons_append, callsOf, ih, callsOf, List.append_assoc]
    rfl

/-- What the journal tells of a handler while runs end. -/
def told (name : String) : Handlers → List (Binding × Fetched) → List (NodeId × Happening)
  | _, [] => []
  | hs, r :: rest =>
    ((failing? name r).map fun x =>
      (x.1, if hs.contains name then Happening.handlerInvoked name x.2 else .handlerMissing name)).toList ++
        (hs.afterRun r).told name rest

/-- While a handler is not registered and nobody registers it, all runs that name it miss it. -/
theorem told_of_absent (results : List (Binding × Fetched)) : ∀ {hs : Handlers}, hs.contains name = false →
    (∀ x ∈ hs.callees results, x.1 ≠ name → x.2.Spares name) →
    hs.told name results = (results.filterMap (failing? name)).map (fun x => (x.1, .handlerMissing name)) ∧
      (hs.callsOf results).filter (·.1 == name) = [] ∧
      (results.foldl afterRun hs).contains name = false := by
  induction results with
  | nil => exact fun habsent _ => ⟨rfl, rfl, habsent⟩
  | cons r rest ih =>
    intro hs habsent hspares
    have hrest : ∀ x ∈ (hs.afterRun r).callees rest, x.1 ≠ name → x.2.Spares name :=
      fun x hx => hspares x (List.mem_append_right _ hx)
    have hhere : ∀ x ∈ hs.callee? r, x.1 ≠ name → x.2.Spares name :=
      fun x hx => hspares x (List.mem_append_left _ (Option.mem_toList.mpr hx))
    cases hr : failing? name r with
    | none =>
      obtain ⟨hcalled, hget⟩ := spared_afterRun hr hhere
      have habsent' : (hs.afterRun r).contains name = false := by
        rw [contains_eq_false_iff, hget]
        exact contains_eq_false_iff.mp habsent
      obtain ⟨htold, hcalls, hafter⟩ := ih habsent' hrest
      refine ⟨?_, ?_, hafter⟩
      · rw [told, hr, htold, List.filterMap_cons_none hr]
        rfl
      · rw [callsOf, List.filter_append, hcalled, hcalls]
        rfl
    | some x =>
      obtain ⟨hcalled, hsame⟩ := called?_of_absent hr habsent
      rw [hsame] at hrest
      obtain ⟨htold, hcalls, hafter⟩ := ih habsent hrest
      refine ⟨?_, ?_, ?_⟩
      · rw [told, hr, hsame, htold, List.filterMap_cons_some hr, habsent]
        rfl
      · rw [callsOf, hcalled, hsame, List.filter_append, hcalls]
        rfl
      · rw [List.foldl_cons, hsame]
        exact hafter

/-- While a handler that takes its own name out is registered and nobody else touches it, the first run that names it
calls it and the others miss it. -/
theorem told_of_drops (results : List (Binding × Fetched)) : ∀ {hs : Handlers} {later : List (NodeId × String)},
    (name, handler) ∈ hs.entries → (handler error).Drops name →
    (∀ x ∈ hs.callees results, x.1 ≠ name → x.2.Spares name) →
    results.filterMap (failing? name) = (t, error) :: later →
    hs.told name results = (t, .handlerInvoked name error) :: later.map (fun x => (x.1, .handlerMissing name)) ∧
      (hs.callsOf results).filter (·.1 == name) = [(name, error)] ∧
      (results.foldl afterRun hs).contains name = false := by
  induction results with
  | nil => exact fun _ _ _ h => absurd h (by simp)
  | cons r rest ih =>
    intro hs later hb hdrops hspares hfailing
    have hrest : ∀ x ∈ (hs.afterRun r).callees rest, x.1 ≠ name → x.2.Spares name :=
      fun x hx => hspares x (List.mem_append_right _ hx)
    have hhere : ∀ x ∈ hs.callee? r, x.1 ≠ name → x.2.Spares name :=
      fun x hx => hspares x (List.mem_append_left _ (Option.mem_toList.mpr hx))
    cases hr : failing? name r with
    | none =>
      obtain ⟨hcalled, hget⟩ := spared_afterRun hr hhere
      rw [List.filterMap_cons_none hr] at hfailing
      have hb' : (name, handler) ∈ (hs.afterRun r).entries := by
        rw [← get?_eq_some_iff, hget]
        exact get?_eq_some_iff.mpr hb
      obtain ⟨htold, hcalls, hafter⟩ := ih hb' hdrops hrest hfailing
      refine ⟨?_, ?_, hafter⟩
      · rw [told, hr, htold]
        rfl
      · rw [callsOf, List.filter_append, hcalled, hcalls]
        rfl
    | some x =>
      rw [List.filterMap_cons_some hr, List.cons.injEq] at hfailing
      obtain ⟨rfl, rfl⟩ := hfailing
      obtain ⟨hcalled, hcall⟩ := (calls_of_failing hr hb).called
      have hgone : (hs.afterRun r).contains name = false := by
        rw [hcall]
        exact hdrops hs
      have hcontains : hs.contains name = true := contains_iff.mpr ⟨handler, get?_eq_some_iff.mpr hb⟩
      obtain ⟨htold, hcalls, hafter⟩ := told_of_absent rest hgone hrest
      refine ⟨?_, ?_, hafter⟩
      · rw [told, hr, htold, hcontains]
        rfl
      · rw [callsOf, hcalled, List.filter_append, hcalls]
        simp

/-- A name stays in the registry while no handler that is called takes it out. -/
theorem contains_foldl_afterRun (results : List (Binding × Fetched)) : ∀ {hs : Handlers},
    hs.contains name = true → (∀ x ∈ hs.callees results, x.2.Keeps name) →
    (results.foldl afterRun hs).contains name = true := by
  induction results with
  | nil => exact fun h _ => h
  | cons r rest ih =>
    intro hs hcontains hkeeps
    rw [List.foldl_cons]
    refine ih ?_ fun x hx => hkeeps x (List.mem_append_right _ hx)
    rcases hs.afterRun_cases r with ⟨-, hafter⟩ | ⟨other, error, handler, h⟩
    · rw [hafter]
      exact hcontains
    · rw [h.called.2]
      exact hkeeps (other, handler error) (List.mem_append_left _ (by simp [h.callee])) hs hcontains

end Handlers

/-- Whether a happening is that a run went to a handler with this name. -/
def Happening.concerns (name : String) : Happening → Bool
  | handlerInvoked handler _ => handler == name
  | handlerMissing handler => handler == name
  | _ => false

namespace Engine

variable {e e' : Engine} {c : Call} {ends : List (Binding × Reply)}

/-! ## What the journal tells of a handler -/

/-- The error of a failed run whose binding names a handler goes to that handler. -/
theorem endOf_failing (e : Engine) (hr : failing? name r = some (t, error)) : recordsOf (r.1, e.endOf r) =
    [(t, .fetchFailed error), (t, if e.handlers.contains name then .handlerInvoked name error
      else .handlerMissing name)] := by
  obtain ⟨b, fetched⟩ := r
  obtain ⟨rfl, hname, rfl⟩ := failing?_eq_some_iff.mp hr
  change b.errorHandler = some name at hname
  simp [recordsOf, endOf, reaction, hname]

/-- The end of another run tells nothing of it. -/
theorem endOf_not_failing (e : Engine) (hr : failing? name r = none) :
    (recordsOf (r.1, e.endOf r)).filter (·.2.concerns name) = [] := by
  obtain ⟨b, fetched⟩ := r
  cases fetched with
  | data v => rfl
  | failed error =>
    cases hname : b.errorHandler with
    | none => simp [recordsOf, endOf, reaction, hname, Happening.concerns]
    | some other =>
      have hne : other ≠ name := by
        rintro rfl
        simp [failing?, hname] at hr
      by_cases hcontains : e.handlers.contains other = true <;>
        simp [recordsOf, endOf, reaction, hname, hcontains, Happening.concerns, hne]

theorem filter_endsOf (name : String) (results : List (Binding × Fetched)) : ∀ e : Engine,
    ((e.endsOf results).flatMap recordsOf).filter (·.2.concerns name) = e.handlers.told name results := by
  induction results with
  | nil => exact fun _ => rfl
  | cons r rest ih =>
    intro e
    rw [endsOf, List.flatMap_cons, List.filter_append, ih, (handlers_complete e r).1, Handlers.told]
    congr 1
    cases hr : failing? name r with
    | none => exact endOf_not_failing e hr
    | some x =>
      rw [endOf_failing e hr]
      split <;> simp [Happening.concerns, *]

/-- Before the first run ends the journal tells nothing of handlers. -/
theorem filter_opening (e : Engine) (c : Call) (name : String) :
    (e.opening c).filter (·.2.concerns name) = [] := by
  rw [List.filter_eq_nil_iff]
  have htriggering : ∀ (e : Engine) (bs : List Binding), ∀ n ∈ bs.map e.triggering, ¬ n.2.concerns name = true := by
    intro e bs n hn
    obtain ⟨b, -, rfl⟩ := List.mem_map.mp hn
    exact Bool.false_ne_true
  cases c with
  | start =>
    intro n hn
    obtain ⟨b, -, hn⟩ := List.mem_flatMap.mp hn
    rcases List.mem_cons.mp hn with rfl | hn
    · exact Bool.false_ne_true
    · split at hn
      · rw [List.mem_singleton.mp hn]
        exact Bool.false_ne_true
      · cases hn
  | dispatch node event => exact htriggering e _
  | dispatchAt selector event => exact htriggering e _

/-! ## Runs of one call -/

theorem endsOf_append (results more : List (Binding × Fetched)) : ∀ e : Engine,
    e.endsOf (results ++ more) = e.endsOf results ++ (e.ending results).endsOf more := by
  induction results with
  | nil => exact fun _ => rfl
  | cons r rest ih =>
    intro e
    rw [List.cons_append, endsOf, ih, endsOf, List.cons_append]
    rfl

/-- The ends of runs do not depend on what answers the requests. -/
theorem endsOf_transport (results : List (Binding × Fetched)) (transport : Transport) : ∀ e : Engine,
    ({ e with transport } : Engine).endsOf results = e.endsOf results := by
  induction results with
  | nil => exact fun _ => rfl
  | cons r rest ih =>
    intro e
    rw [endsOf, endsOf, (complete_transport e transport r.1 r.2).2, ih]
    rfl

/-- What a call records if its runs end with these results, one after the other. -/
def news (e : Engine) (c : Call) (results : List (Binding × Fetched)) : List (NodeId × Happening) :=
  e.opening c ++ ((e.opened c).endsOf results).flatMap recordsOf

theorem filter_news (e : Engine) (c : Call) (results : List (Binding × Fetched)) (name : String) :
    (e.news c results).filter (·.2.concerns name) = e.handlers.told name results := by
  rw [news, List.filter_append, filter_opening, filter_endsOf]
  rfl

/-- What a call leaves of the journal, the calls and the registry, whatever the order of its sends and ends. -/
theorem Overlap.leaves (o : Overlap (e.opened c) (e.requests c) [] ends e') :
    ((ends.map resultOf).map Prod.fst).Perm (e.begun c) ∧
      e'.journal = e.journal.emitAll (e.news c (ends.map resultOf)) ∧
      e'.calls = e.calls ++ e.handlers.callsOf (ends.map resultOf) ∧
      e'.handlers = (ends.map resultOf).foldl Handlers.afterRun e.handlers := by
  obtain ⟨hperm, he⟩ := o.eq_ending
  obtain ⟨hhandlers, hcalls⟩ := handlers_ending (ends.map resultOf)
    { e.opened c with transport := (Engine.sendAll (e.opened c).transport (e.requests c)).2 }
  have hjournal := journal_endsOf (ends.map resultOf)
    { e.opened c with transport := (Engine.sendAll (e.opened c).transport (e.requests c)).2 }
  rw [← he] at hhandlers hcalls hjournal
  refine ⟨?_, ?_, hcalls, hhandlers⟩
  · have hfst := hperm.map Prod.fst
    rw [List.nil_append, map_fst_sendAll, requests, List.map_map] at hfst
    have hresult : Prod.fst ∘ resultOf = Prod.fst := rfl
    rw [List.map_map, hresult]
    simpa [Function.comp_def] using hfst
  · rw [hjournal, endsOf_transport, news, Journal.emitAll_append]
    rfl

/-- What is recorded and called up to a run does not depend on the runs that end later. -/
theorem news_append (e : Engine) (c : Call) (results : List (Binding × Fetched)) (r : Binding × Fetched)
    (more : List (Binding × Fetched)) : ∃ further, e.news c (results ++ r :: more) =
      e.news c results ++ recordsOf (r.1, ((e.opened c).ending results).endOf r) ++ further := by
  refine ⟨((((e.opened c).ending results).complete r.1 r.2).endsOf more).flatMap recordsOf, ?_⟩
  rw [news, endsOf_append, endsOf, List.flatMap_append, List.flatMap_cons, news, List.append_assoc,
    List.append_assoc]

/-- A failed run of a call finds the registry as the runs that ended before it left it. -/
theorem invoked_of_contains (e : Engine) (c : Call) {results : List (Binding × Fetched)}
    (more : List (Binding × Fetched)) (hr : failing? name r = some (t, error))
    (hcontains : (results.foldl Handlers.afterRun e.handlers).contains name = true) :
    ∃ further others,
      e.news c (results ++ r :: more) =
        e.news c results ++ (t, .fetchFailed error) :: (t, .handlerInvoked name error) :: further ∧
      e.handlers.callsOf (results ++ r :: more) = e.handlers.callsOf results ++ (name, error) :: others := by
  obtain ⟨further, hnews⟩ := news_append e c results r more
  have hhandlers : ((e.opened c).ending results).handlers = results.foldl Handlers.afterRun e.handlers :=
    (handlers_ending results (e.opened c)).1
  obtain ⟨handler, hget⟩ := Handlers.contains_iff.mp hcontains
  obtain ⟨hcalled, -⟩ := (Handlers.calls_of_failing hr (Handlers.get?_eq_some_iff.mp hget)).called
  refine ⟨further, (Handlers.afterRun (results.foldl Handlers.afterRun e.handlers) r).callsOf more, ?_, ?_⟩
  · rw [hnews, endOf_failing _ hr, hhandlers, if_pos hcontains, List.append_assoc]
    rfl
  · rw [Handlers.callsOf_append, Handlers.callsOf, hcalled]
    rfl

/-- For a call of an engine in any state whose runs end in any order: let a handler that takes its own name out be
registered, which no other handler that is called touches. Of the runs that fail and name it the first one to end
calls it and all others miss it, and the name is gone in the end. And what a handler registers, every failed run that
ends later finds, if no handler that is called in between takes it out again. -/
theorem self_removing_fires_once {e e' : Engine} {c : Call} {ends : List (Binding × Reply)}
    (o : Overlap (e.opened c) (e.requests c) [] ends e') :
    let results := ends.map resultOf
    (results.map Prod.fst).Perm (e.begun c) ∧
    e'.journal = e.journal.emitAll (e.news c results) ∧
    e'.calls = e.calls ++ e.handlers.callsOf results ∧
    (∀ name handler t error later, (name, handler) ∈ e.handlers.entries → (handler error).Drops name →
      (∀ x ∈ e.handlers.callees results, x.1 ≠ name → x.2.Spares name) →
      results.filterMap (failing? name) = (t, error) :: later →
      (e.news c results).filter (·.2.concerns name) =
        (t, .handlerInvoked name error) :: later.map (fun x => (x.1, .handlerMissing name)) ∧
      (e.handlers.callsOf results).filter (·.1 == name) = [(name, error)] ∧
      e'.handlers.contains name = false) ∧
    (∀ sooner r between x later name b other t error,
      results = (sooner ++ r :: between) ++ x :: later →
      (sooner.foldl Handlers.afterRun e.handlers).callee? r = some (name, b) → b.Brings other →
      (∀ y ∈ ((sooner ++ [r]).foldl Handlers.afterRun e.handlers).callees between, y.2.Keeps other) →
      failing? other x = some (t, error) →
      ∃ further others,
        e.news c results = e.news c (sooner ++ r :: between) ++
          (t, .fetchFailed error) :: (t, .handlerInvoked other error) :: further ∧
        e.handlers.callsOf results =
          e.handlers.callsOf (sooner ++ r :: between) ++ (other, error) :: others) := by
  intro results
  obtain ⟨hperm, hjournal, hcalls, hhandlers⟩ := o.leaves
  refine ⟨hperm, hjournal, hcalls, ?_, ?_⟩
  · intro name handler t error later hb hdrops hspares hfailing
    obtain ⟨htold, hcalled, hgone⟩ := Handlers.told_of_drops results hb hdrops hspares hfailing
    refine ⟨?_, hcalled, ?_⟩
    · rw [filter_news, htold]
    · rw [hhandlers]
      exact hgone
  · intro sooner r between x later name b other t error hresults hcallee hbrings hkeeps hx
    rw [hresults]
    apply invoked_of_contains e c later hx
    rw [List.foldl_append] at hkeeps
    rw [List.foldl_append, List.foldl_cons]
    refine Handlers.contains_foldl_afterRun between ?_ hkeeps
    rw [Handlers.afterRun_of_callee? hcallee]
    exact hbrings _

/-- Four templates that load and two handlers, one that takes its own name out and one that registers another handler.
The run that begins first ends last. -/
theorem self_removing_fires_once_load :
    let html := "<template hx-endpoint=/1 hx-error=h></template><template hx-endpoint=/2 hx-error=h></template>" ++
      "<template hx-endpoint=/3 hx-error=s></template><template hx-endpoint=/4 hx-error=s+></template>"
    let once : Handler := fun _ => .unregister "h" .done
    let spawn : Handler := fun _ => .register "s+" (fun _ => .done) .done
    let e := onPage html {} (.script {}) (({} : Handlers).register "h" once |>.register "s" spawn) {}
    let sent := (sendAll e.transport (e.requests .start)).1
    let ends := sent.drop 1 ++ sent.take 1
    let error (n : String) := "HTTP request failed: connection refused: GET /" ++ n
    ∃ e', Overlap (e.opened .start) (e.requests .start) [] ends e' ∧
      (e.news .start (ends.map resultOf)).filter (·.2.concerns "h") =
        [(6, .handlerInvoked "h" (error "2")), (4, .handlerMissing "h")] ∧
      (e.handlers.callsOf (ends.map resultOf)).filter (·.1 == "h") = [("h", error "2")] ∧
      e'.handlers.contains "h" = false ∧
      ∃ further, e.news .start (ends.map resultOf) = e.news .start ((ends.map resultOf).take 2) ++
        (10, .fetchFailed (error "4")) :: (10, .handlerInvoked "s+" (error "4")) :: further := by
  intro html once spawn e sent ends error
  have hperm : ends.Perm sent := by
    have h : ends.Perm (sent.take 1 ++ sent.drop 1) := List.perm_append_comm
    rwa [List.take_append_drop] at h
  have o : Overlap (e.opened .start) (e.requests .start) [] ends _ := overlap_of_perm hperm
  obtain ⟨-, -, -, honce, hbrought⟩ := self_removing_fires_once o
  have hfacts : (ends.map resultOf).length = 4 ∧
      (ends.map resultOf).filterMap (failing? "h") = [(6, error "2"), (4, error "1")] ∧
      (∀ x ∈ e.handlers.callees (ends.map resultOf), x.1 ≠ "h" → (x.2.last? "h").isNone = true) ∧
      (ends.map resultOf).map (failing? "s+") = [none, none, some (10, error "4"), none] ∧
      (((ends.map resultOf)[1]?).bind ((ends.map resultOf).take 1 |>.foldl Handlers.afterRun e.handlers).callee?).any
        (fun x => x.1 == "s" && ((x.2.last? "s+").map Option.isSome == some true)) = true := by
    decide +kernel
  obtain ⟨hlength, hfailing, hspared, hlast, hcallee⟩ := hfacts
  have hspares : ∀ x ∈ e.handlers.callees (ends.map resultOf), x.1 ≠ "h" → x.2.Spares "h" := fun x hx hne =>
    Behaviour.spares_of_last? (Option.isNone_iff_eq_none.mp (hspared x hx hne))
  have hentry : ("h", once) ∈ e.handlers.entries := List.mem_cons_self
  obtain ⟨htold, hcalled, hgone⟩ := honce "h" once 6 (error "2") _ hentry (Behaviour.drops_of_last? rfl)
    hspares hfailing
  refine ⟨_, o, htold, hcalled, hgone, ?_⟩
  obtain ⟨r₁, r₂, r₃, r₄, hresults⟩ : ∃ r₁ r₂ r₃ r₄, ends.map resultOf = [r₁, r₂, r₃, r₄] := by
    match ends.map resultOf, hlength with
    | [r₁, r₂, r₃, r₄], _ => exact ⟨r₁, r₂, r₃, r₄, rfl⟩
  rw [hresults] at hcallee hlast ⊢
  simp only [List.map_cons, List.map_nil, List.cons.injEq] at hlast
  obtain ⟨-, -, hlate, -⟩ := hlast
  obtain ⟨⟨name, script⟩, hcallee', hspawn⟩ := (Option.any_eq_true _ _).mp hcallee
  simp only [Bool.and_eq_true, beq_iff_eq] at hspawn
  obtain ⟨rfl, hbrought'⟩ := hspawn
  obtain ⟨left, hleft, hsome⟩ := Option.map_eq_some_iff.mp hbrought'
  obtain ⟨new, rfl⟩ := Option.isSome_iff_exists.mp hsome
  have hsplit : ends.map resultOf = ([r₁] ++ r₂ :: []) ++ r₃ :: [r₄] := hresults
  obtain ⟨further, -, hnews, -⟩ := hbrought [r₁] r₂ [] r₃ [r₄] "s" script "s+" 10 (error "4") hsplit hcallee'
    (Behaviour.brings_of_last? hleft) (by simp [Handlers.callees]) hlate
  rw [hresults] at hnews
  exact ⟨further, hnews⟩

/-- If another handler registers the name again, the next run that names it calls the new handler. And if yet another
one takes it out, the run after that misses it, although a handler of this call registered it. -/
theorem reregistered_fires_again :
    let html := "<template hx-endpoint=/1 hx-error=a+></template><template hx-endpoint=/2 hx-error=a></template>" ++
      "<template hx-endpoint=/3 hx-error=a+></template><template hx-endpoint=/4 hx-error=b></template>" ++
      "<template hx-endpoint=/5 hx-error=a+></template>"
    let spawn : Handler := fun _ => .register "a+" (fun _ => .done) .done
    let once : Handler := fun _ => .unregister "a+" .done
    let e := onPage html {} (.script {})
      (({} : Handlers).register "a" spawn |>.register "a+" once |>.register "b" once) {}
    let ends := (sendAll e.transport (e.requests .start)).1
    let error (n : String) := "HTTP request failed: connection refused: GET /" ++ n
    Overlap (e.opened .start) (e.requests .start) [] ends (e.call .start) ∧
      ("a+", once) ∈ e.handlers.entries ∧ (∀ message, (once message).Drops "a+") ∧
      ("a", spawn) ∈ e.handlers.entries ∧ (∀ message, (spawn message).Brings "a+") ∧
      (ends.map resultOf).map (failing? "a+") =
        [some (4, error "1"), none, some (8, error "3"), none, some (12, error "5")] ∧
      (ends.map resultOf).map (failing? "a") = [none, some (6, error "2"), none, none, none] ∧
      (e.news .start (ends.map resultOf)).filter (·.2.concerns "a+") =
        [(4, .handlerInvoked "a+" (error "1")), (8, .handlerInvoked "a+" (error "3")), (12, .handlerMissing "a+")] := by
  intro html spawn once e ends error
  have hfacts : ends.Pairwise (fun x y => x.2.delay ≤ y.2.delay) ∧
      (ends.map resultOf).map (failing? "a+") =
        [some (4, error "1"), none, some (8, error "3"), none, some (12, error "5")] ∧
      (ends.map resultOf).map (failing? "a") = [none, some (6, error "2"), none, none, none] ∧
      (e.news .start (ends.map resultOf)).filter (·.2.concerns "a+") =
        [(4, .handlerInvoked "a+" (error "1")), (8, .handlerInvoked "a+" (error "3")), (12, .handlerMissing "a+")] := by
    decide +kernel
  obtain ⟨hdelays, hnamed, hspawn, hnews⟩ := hfacts
  have o := overlap_call e .start
  rw [byArrival_of_pairwise hdelays] at o
  exact ⟨o, List.mem_cons_of_mem _ List.mem_cons_self, fun _ => Behaviour.drops_of_last? rfl, List.mem_cons_self,
    fun _ => Behaviour.brings_of_last? rfl, hnamed, hspawn, hnews⟩

end Engine

end Hypertemplate
