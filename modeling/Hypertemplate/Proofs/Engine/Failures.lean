import Hypertemplate.Proofs.Engine.Calls
import Hypertemplate.Proofs.Engine.Handlers

/-!
# Failed runs spare the page

Only a run that ends with data changes the document. The error of a failed run goes to the handler that the
binding names, if one is registered under this name when the run ends (`failures_spare_page`). Handlers may
change the registry, so a run finds the registry as the runs before it left it (`Handlers.Handled`).
-/

namespace Hypertemplate

open Json

/-! ## What an answer gives -/

/-- The data that a fetch gave. -/
def Fetched.value? : Fetched → Option Value
  | .data v => some v
  | .failed _ => none

/-- An answer gives data if it is a response whose status says success and whose body is JSON that states no
error. In all other cases the fetch fails. -/
theorem Fetched.ofAnswer_eq_data_iff {answer : Except TransportFailure Response} {v : Value} :
    Fetched.ofAnswer answer = .data v ↔
      ∃ response, answer = .ok response ∧ response.isSuccess = true ∧
        Value.read response.body = .ok v ∧ (v.get? "error").bind statedError? = none := by
  cases answer with
  | error failure => simp [Fetched.ofAnswer]
  | ok response =>
    simp only [Fetched.ofAnswer, Response.fetched, Except.ok.injEq, exists_eq_left']
    cases hread : Value.read response.body with
    | error p => simp
    | ok w =>
      cases hsuccess : response.isSuccess with
      | false => simp
      | true =>
        cases hstated : (w.get? "error").bind statedError? with
        | some message =>
          simp only [if_true, hstated, Except.ok.injEq, true_and, reduceCtorEq, false_iff]
          rintro ⟨rfl, hnone⟩
          rw [hnone] at hstated
          cases hstated
        | none =>
          simp only [if_true, hstated, Except.ok.injEq, true_and, Fetched.data.injEq]
          constructor
          · rintro rfl
            exact ⟨rfl, hstated⟩
          · exact And.left

/-! ## The calls of handlers -/

namespace Handlers

variable {hs : Handlers} {r : Binding × Fetched} {name error : String} {handler : Handler}

/-- A failed run whose binding names a handler, and the handler that is registered under the name. -/
structure Calls (hs : Handlers) (r : Binding × Fetched) (name error : String) (handler : Handler) : Prop where
  failed : r.2 = .failed error
  named : r.1.errorHandler = some name
  registered : (name, handler) ∈ hs.entries

/-- Runs end one after the other. Each one that fails calls the handler that its binding names with its error, if
one is registered by then, and the handler's script changes the registry. All others leave it as it is. -/
inductive Handled : Handlers → List (Binding × Fetched) → List (String × String) → Handlers → Prop
  | done (hs : Handlers) : Handled hs [] [] hs
  | called {hs hs' : Handlers} {r : Binding × Fetched} {rest : List (Binding × Fetched)}
      {called : List (String × String)} {name error : String} {handler : Handler}
      (h : hs.Calls r name error handler) (hrest : Handled (hs.after (handler error)) rest called hs') :
      Handled hs (r :: rest) ((name, error) :: called) hs'
  | uncalled {hs hs' : Handlers} {r : Binding × Fetched} {rest : List (Binding × Fetched)}
      {called : List (String × String)} (h : ∀ name error handler, ¬ hs.Calls r name error handler)
      (hrest : Handled hs rest called hs') : Handled hs (r :: rest) called hs'

/-- The handler that the end of a run calls, with the message that it gets. -/
def called? (hs : Handlers) (r : Binding × Fetched) : Option (String × String) :=
  match r.2 with
  | .data _ => none
  | .failed error =>
    r.1.errorHandler.bind fun name => if hs.contains name then some (name, error) else none

/-- The registry after the end of a run. -/
def afterRun (hs : Handlers) (r : Binding × Fetched) : Handlers :=
  ((hs.called? r).bind fun call => hs.invoke? call.1 call.2).getD hs

/-- The calls of handlers while runs end. -/
def callsOf : Handlers → List (Binding × Fetched) → List (String × String)
  | _, [] => []
  | hs, r :: rest => (hs.called? r).toList ++ (hs.afterRun r).callsOf rest

theorem called?_eq_some_iff : hs.called? r = some (name, error) ↔
    r.2 = .failed error ∧ r.1.errorHandler = some name ∧ hs.contains name = true := by
  obtain ⟨b, fetched⟩ := r
  cases fetched with
  | data v => simp [called?]
  | failed message =>
    cases hname : b.errorHandler with
    | none => simp [called?, hname]
    | some other =>
      simp only [called?, hname, Option.bind_some, Option.ite_none_right_eq_some, Option.some.injEq, Prod.mk.injEq,
        Fetched.failed.injEq]
      constructor
      · rintro ⟨hcontains, rfl, rfl⟩
        exact ⟨rfl, rfl, hcontains⟩
      · rintro ⟨rfl, rfl, hcontains⟩
        exact ⟨hcontains, rfl, rfl⟩

/-- A run that calls a handler leaves the registry that the handler's script makes. -/
theorem Calls.called (h : hs.Calls r name error handler) :
    hs.called? r = some (name, error) ∧ hs.afterRun r = hs.after (handler error) := by
  have hget : hs.get? name = some handler := get?_eq_some_iff.mpr h.registered
  have hcalled : hs.called? r = some (name, error) :=
    called?_eq_some_iff.mpr ⟨h.failed, h.named, contains_iff.mpr ⟨handler, hget⟩⟩
  refine ⟨hcalled, ?_⟩
  simp [afterRun, hcalled, invoke?, hget]

theorem calls_of_called? (h : hs.called? r = some (name, error)) : ∃ handler, hs.Calls r name error handler := by
  obtain ⟨hfailed, hname, hcontains⟩ := called?_eq_some_iff.mp h
  obtain ⟨handler, hget⟩ := contains_iff.mp hcontains
  exact ⟨handler, hfailed, hname, get?_eq_some_iff.mp hget⟩

theorem afterRun_of_not_called (h : hs.called? r = none) : hs.afterRun r = hs := by
  rw [afterRun, h]
  rfl

theorem handled_callsOf (results : List (Binding × Fetched)) : ∀ hs : Handlers,
    hs.Handled results (hs.callsOf results) (results.foldl afterRun hs) := by
  induction results with
  | nil => exact .done
  | cons r rest ih =>
    intro hs
    rw [List.foldl_cons, callsOf]
    cases hcalled : hs.called? r with
    | none =>
      rw [afterRun_of_not_called hcalled]
      refine .uncalled (fun name error handler h => ?_) (ih hs)
      rw [h.called.1] at hcalled
      cases hcalled
    | some call =>
      obtain ⟨handler, h⟩ := calls_of_called? hcalled
      rw [h.called.2]
      exact .called h (ih _)

end Handlers

namespace Engine

variable {e : Engine} {b : Binding}

/-- A run that ended with data, and the data. -/
def gain? (r : Binding × Fetched) : Option (Binding × Value) := r.2.value?.map fun v => (r.1, v)

/-- Render the data of a run. -/
def renderGain (marker : String) (d : Document) (gain : Binding × Value) : Document :=
  (d.render marker gain.1.template gain.2 gain.1.target gain.1.action).2

/-! ## The end of one run -/

theorem document_complete (e : Engine) (r : Binding × Fetched) : (e.complete r.1 r.2).document =
    (gain? r).toList.foldl (renderGain e.settings.nestedArrayAttribute) e.document := by
  obtain ⟨b, fetched⟩ := r
  cases fetched with
  | data v => rfl
  | failed error =>
    simp only [complete, routeError, emit]
    split
    · rfl
    · split <;> rfl

theorem handlers_complete (e : Engine) (r : Binding × Fetched) :
    (e.complete r.1 r.2).handlers = e.handlers.afterRun r ∧
      (e.complete r.1 r.2).calls = e.calls ++ (e.handlers.called? r).toList := by
  obtain ⟨b, fetched⟩ := r
  cases fetched with
  | data v => simp [complete, renderData, emit, Handlers.afterRun, Handlers.called?]
  | failed error =>
    cases hname : b.errorHandler with
    | none => simp [complete, routeError, emit, hname, Handlers.afterRun, Handlers.called?]
    | some name =>
      cases hget : e.handlers.get? name <;>
        simp [complete, routeError, emit, hname, Handlers.afterRun, Handlers.called?, Handlers.contains_eq_isSome,
          Handlers.invoke?, hget]

/-! ## The end of several runs -/

/-- Only the runs with data change the document, each by its rendering. -/
theorem document_ending (results : List (Binding × Fetched)) : ∀ e : Engine,
    (e.ending results).document =
      (results.filterMap gain?).foldl (renderGain e.settings.nestedArrayAttribute) e.document := by
  induction results with
  | nil => exact fun _ => rfl
  | cons r rest ih =>
    intro e
    change ((e.complete r.1 r.2).ending rest).document = _
    rw [ih, document_complete, (complete_cases e r.1 r.2).1.2.1]
    cases hgain : gain? r with
    | none => rw [List.filterMap_cons_none hgain]; rfl
    | some gain => rw [List.filterMap_cons_some hgain]; rfl

/-- The handlers are called in the order in which the runs end. -/
theorem handlers_ending (results : List (Binding × Fetched)) : ∀ e : Engine,
    (e.ending results).handlers = results.foldl Handlers.afterRun e.handlers ∧
      (e.ending results).calls = e.calls ++ e.handlers.callsOf results := by
  induction results with
  | nil =>
    intro e
    exact ⟨rfl, (List.append_nil _).symm⟩
  | cons r rest ih =>
    intro e
    obtain ⟨hhandlers, hcalls⟩ := handlers_complete e r
    obtain ⟨ihhandlers, ihcalls⟩ := ih (e.complete r.1 r.2)
    rw [hhandlers] at ihhandlers ihcalls
    rw [hcalls, List.append_assoc] at ihcalls
    exact ⟨ihhandlers, ihcalls⟩

/-- A call changes the document by pinning and by the renderings that its runs with data end in. -/
theorem document_call (e : Engine) (c : Call) : (e.call c).document =
    ((e.results c).filterMap gain?).foldl (renderGain e.settings.nestedArrayAttribute)
      (e.pinning c).document := by
  rw [call_eq, document_ending]
  rfl

theorem mem_begun_of_mem_gains {c : Call} {gain : Binding × Value}
    (h : gain ∈ (e.results c).filterMap gain?) : gain.1 ∈ e.begun c := by
  obtain ⟨x, hx, hgx⟩ := List.mem_filterMap.mp h
  obtain ⟨v, -, rfl⟩ := Option.map_eq_some_iff.mp hgx
  exact (e.results_perm c).mem_iff.mp (List.mem_map_of_mem hx)

/-- A call of an engine in any state leaves the document that the renderings of its successful runs alone make,
in the order in which the runs end. Each failed run calls the handler that its binding names once with its error,
if one is registered when the run ends, and successful runs call none. What is registered is what was put into the
registry, by the host or by the script of a handler, and not taken out again. -/
theorem failures_spare_page (e : Engine) (c : Call) :
    (e.call c).document = ((e.results c).filterMap gain?).foldl
      (renderGain e.settings.nestedArrayAttribute) ((e.bound c).foldl pinBinding e.document) ∧
    (∃ called, (e.call c).calls = e.calls ++ called ∧
      e.handlers.Handled (e.results c) called (e.call c).handlers) ∧
    ((e.results c).map Prod.fst).Perm (e.begun c) ∧
    (∀ answer v, Fetched.ofAnswer answer = .data v ↔
      ∃ response, answer = .ok response ∧ response.isSuccess = true ∧
        Value.read response.body = .ok v ∧ (v.get? "error").bind statedError? = none) ∧
    (∀ (hs : Handlers) name handler other found, (other, found) ∈ (hs.register name handler).entries ↔
      if other = name then found = handler else (other, found) ∈ hs.entries) ∧
    ∀ (hs : Handlers) script name found, (name, found) ∈ (hs.after script).entries ↔
      script.last? name = some (some found) ∨ script.last? name = none ∧ (name, found) ∈ hs.entries := by
  rw [call_eq]
  obtain ⟨hhandlers, hcalls⟩ := handlers_ending (e.results c)
    { e.opened c with transport := (sendAll e.transport (e.requests c)).2 }
  refine ⟨document_ending _ _, ⟨_, hcalls, ?_⟩, results_perm e c, fun _ _ => Fetched.ofAnswer_eq_data_iff,
    Handlers.mem_entries_register, Handlers.mem_entries_after⟩
  rw [hhandlers]
  exact Handlers.handled_callsOf _ _

/-- Two runs fail and name a handler that takes its own name out, and the first one calls it. The run that succeeds
between them is the only one that shows on the page. -/
theorem failures_spare_page_called :
    let html := "<p id=p></p><template hx-endpoint=/1 hx-error=h hx-target=#p>one</template>" ++
      "<template hx-endpoint=/2 hx-error=h hx-target=#p>${a}</template>" ++
      "<template hx-endpoint=/3 hx-error=h hx-target=#p>three</template>"
    let routes : List Route := [⟨"GET", "/1", [⟨.ok ⟨404, "\x7b\"error\":\"gone\"\x7d"⟩, 0⟩]⟩,
      ⟨"GET", "/2", [⟨.ok ⟨200, "\x7b\"a\":\"two\"\x7d"⟩, 0⟩]⟩]
    let handlers := ({} : Handlers).register "h" fun message =>
      .unregister "h" (.register message (fun _ => .done) .done)
    let e := onPage html {} (.script { routes }) handlers {}
    (e.call .start).calls = [("h", "gone")] ∧
      handlers.Handled (e.results .start) [("h", "gone")] (e.call .start).handlers ∧
      (e.call .start).handlers.names = ["gone"] ∧
      ∃ gain : Binding × Value, gain.1.endpoint = "/2" ∧ gain.2.text = "\x7b\"a\":\"two\"\x7d" ∧
        (e.call .start).document =
          renderGain "data-nested-array" ((e.bound .start).foldl pinBinding e.document) gain := by
  intro html routes handlers e
  obtain ⟨hdocument, ⟨called, hcalls, hhandled⟩, -⟩ := failures_spare_page e .start
  have hresults : e.results .start = _ := results_of_arriving (by decide +kernel)
  have hcall := call_eq e .start
  rw [hresults] at hcall
  obtain ⟨hcalled, hnames, hgains⟩ : (e.call .start).calls = [("h", "gone")] ∧
      (e.call .start).handlers.names = ["gone"] ∧
      ((e.results .start).filterMap gain?).map (fun gain => (gain.1.endpoint, gain.2.text)) =
        [("/2", "\x7b\"a\":\"two\"\x7d")] := by
    rw [hcall, hresults]
    decide +kernel
  have hfirst : called = [("h", "gone")] := hcalls.symm.trans hcalled
  rw [hfirst] at hhandled
  obtain ⟨gain, hgain, hfields⟩ := List.map_eq_singleton_iff.mp hgains
  simp only [Prod.mk.injEq] at hfields
  rw [hgain] at hdocument
  exact ⟨hcalled, hhandled, hnames, gain, hfields.1, hfields.2, hdocument⟩

end Engine

end Hypertemplate
