import Hypertemplate.Proofs.Engine.NoLeak

/-!
# The two phases of a call

A call first binds templates and begins runs, which changes neither the tree of the document nor the handlers
(`Engine.opened`), and then ends these runs one after the other as their answers arrive (`Engine.ending`).
`call_eq` says that this is all that a call does.
-/

namespace Hypertemplate

open Json

namespace Journal

/-- Add records, one after the other. -/
def emitAll (j : Journal) (news : List (NodeId × Happening)) : Journal :=
  news.foldl (fun j n => j.emit n.1 n.2) j

theorem emitAll_append (j : Journal) (news more : List (NodeId × Happening)) :
    j.emitAll (news ++ more) = (j.emitAll news).emitAll more :=
  List.foldl_append

end Journal

namespace Binding

/-- Whether the runs of a binding begin with the page. -/
def loads (b : Binding) : Bool := Trigger.ofEvent b.event == .load

/-- What listens for the event of a binding. -/
def listener? (b : Binding) : Option Listener :=
  match Trigger.ofEvent b.event with
  | .load => none
  | .event name => some ⟨b.eventTarget, name, b⟩

end Binding

namespace Engine

variable {e : Engine} {b : Binding} {bs : List Binding}

/-! ## Beginning runs -/

/-- The record that a run begins. -/
def triggering (e : Engine) (b : Binding) : NodeId × Happening :=
  (b.template, .triggered (e.requestOf b).method (e.requestOf b).url)

/-- The records that a template is bound: the one that it is, and one of its run if that begins at once. -/
def registering (e : Engine) (b : Binding) : List (NodeId × Happening) :=
  (b.template, .bindingRegistered b.endpoint b.event) :: if b.loads then [e.triggering b] else []

/-- A request is read off the document and the settings. -/
theorem requestOf_congr {e' : Engine} (hd : e'.document = e.document) (hs : e'.settings = e.settings) :
    e'.requestOf = e.requestOf := by
  funext b
  rw [requestOf, requestOf, hd, hs]

theorem triggering_congr {e' : Engine} (hd : e'.document = e.document)
    (hs : e'.settings = e.settings) : e'.triggering = e.triggering := by
  funext b
  rw [triggering, triggering, requestOf_congr hd hs]

theorem registering_congr {e' : Engine} (hd : e'.document = e.document)
    (hs : e'.settings = e.settings) : e'.registering = e.registering := by
  funext b
  rw [registering, registering, triggering_congr hd hs]

theorem triggerAll_eq (bs : List Binding) : ∀ e : Engine, e.triggerAll bs =
    (bs.map fun b => (b, e.requestOf b), { e with journal := e.journal.emitAll (bs.map e.triggering) }) := by
  induction bs with
  | nil => exact fun _ => rfl
  | cons b rest ih =>
    intro e
    have hstep : e.triggerAll (b :: rest) =
        ((b, e.requestOf b) :: ((e.trigger b).2.triggerAll rest).1, ((e.trigger b).2.triggerAll rest).2) :=
      rfl
    have hrequest : (e.trigger b).2.requestOf = e.requestOf := requestOf_congr rfl rfl
    have htriggering : (e.trigger b).2.triggering = e.triggering := triggering_congr rfl rfl
    rw [hstep, ih, hrequest, htriggering]
    rfl

theorem bindAll_eq (bs : List Binding) : ∀ e : Engine, e.bindAll bs =
    ((bs.filter Binding.loads).map fun b => (b, e.requestOf b),
      { e with
        listeners := ⟨e.listeners.entries ++ bs.filterMap Binding.listener?⟩
        journal := e.journal.emitAll (bs.flatMap e.registering) }) := by
  induction bs with
  | nil =>
    intro e
    simp [bindAll, Journal.emitAll]
  | cons b rest ih =>
    intro e
    cases ht : Trigger.ofEvent b.event with
    | load =>
      have hloads : b.loads = true := by simp [Binding.loads, ht]
      have hlistener : b.listener? = none := by simp [Binding.listener?, ht]
      have hregistering : e.registering b =
          [(b.template, .bindingRegistered b.endpoint b.event), e.triggering b] := by
        simp [registering, hloads]
      let e₁ := ((e.emit b.template (.bindingRegistered b.endpoint b.event)).trigger b).2
      have hstep : e.bindAll (b :: rest) =
          ((b, e.requestOf b) :: (e₁.bindAll rest).1, (e₁.bindAll rest).2) := by
        rw [bindAll, ht]
        rfl
      have hrequest : e₁.requestOf = e.requestOf := requestOf_congr rfl rfl
      have hsame : e₁.registering = e.registering := registering_congr rfl rfl
      rw [hstep, ih, hrequest, hsame, List.filter_cons_of_pos hloads,
        List.filterMap_cons_none hlistener, List.flatMap_cons, hregistering, Journal.emitAll_append]
      rfl
    | event name =>
      have hloads : ¬ b.loads = true := by simp [Binding.loads, ht]
      have hlistener : b.listener? = some ⟨b.eventTarget, name, b⟩ := by simp [Binding.listener?, ht]
      have hregistering : e.registering b =
          [(b.template, .bindingRegistered b.endpoint b.event)] := by
        simp [registering, hloads]
      let e₁ : Engine :=
        { e.emit b.template (.bindingRegistered b.endpoint b.event) with
          listeners := e.listeners.add b.eventTarget name b }
      have hstep : e.bindAll (b :: rest) = e₁.bindAll rest := by
        rw [bindAll, ht]
        rfl
      have hrequest : e₁.requestOf = e.requestOf := requestOf_congr rfl rfl
      have hsame : e₁.registering = e.registering := registering_congr rfl rfl
      have hadd : e₁.listeners.entries = e.listeners.entries ++ [⟨b.eventTarget, name, b⟩] := rfl
      rw [hstep, ih, hrequest, hsame, hadd, List.filter_cons_of_neg hloads,
        List.filterMap_cons_some hlistener, List.flatMap_cons, hregistering, Journal.emitAll_append,
        List.append_assoc]
      rfl

/-! ## Ending runs -/

/-- End runs, one after the other. -/
def ending (e : Engine) (results : List (Binding × Fetched)) : Engine :=
  results.foldl (fun e r => e.complete r.1 r.2) e

/-- The results of requests in the order in which their answers arrive. -/
def resultsOf (transport : Transport) (pending : List (Binding × Request)) : List (Binding × Fetched) :=
  (byArrival (sendAll transport pending).1).map fun r => (r.1, .ofAnswer r.2.answer)

/-- Answers that arrive in the order of their requests stay in this order. -/
theorem byArrival_of_pairwise {replies : List (Binding × Reply)}
    (h : replies.Pairwise fun x y => x.2.delay ≤ y.2.delay) : byArrival replies = replies :=
  List.mergeSort_of_pairwise (h.imp fun hle => decide_eq_true hle)

theorem finish_eq (e : Engine) (pending : List (Binding × Request)) :
    e.finish pending = ({ e with transport := (sendAll e.transport pending).2 } : Engine).ending
      (resultsOf e.transport pending) := by
  rw [ending, resultsOf, List.foldl_map]
  rfl

/-- Every request is answered once. -/
theorem resultsOf_perm (transport : Transport) (pending : List (Binding × Request)) :
    ((resultsOf transport pending).map Prod.fst).Perm (pending.map Prod.fst) := by
  have hperm : (byArrival (sendAll transport pending).1).Perm (sendAll transport pending).1 :=
    List.mergeSort_perm _ _
  have hfst := hperm.map Prod.fst
  rw [map_fst_sendAll] at hfst
  simpa [resultsOf, List.map_map, Function.comp_def] using hfst

/-! ## Calls -/

/-- The bindings that a call makes. -/
def bound (e : Engine) : Call → List Binding
  | .start => if e.started then [] else e.scan
  | _ => []

/-- The bindings whose runs a call begins. -/
def begun (e : Engine) : Call → List Binding
  | .start => (e.bound .start).filter Binding.loads
  | .dispatch node event => e.listeners.reached e.document node event
  | .dispatchAt selector event =>
    ((e.document.find? selector).map fun node => e.listeners.reached e.document node event).getD []

def isStart : Call → Bool
  | .start => true
  | _ => false

/-- As long as nothing listens only a start begins runs. -/
theorem begun_of_silent {c : Call} (hsilent : e.listeners.entries = []) (hc : isStart c = false) :
    e.begun c = [] := by
  have hreached : ∀ node event, e.listeners.reached e.document node event = [] := by
    intro node event
    simp [Listeners.reached, Listeners.onNode, hsilent]
  cases c with
  | start => cases hc
  | dispatch node event => exact hreached node event
  | dispatchAt selector event =>
    cases hfound : e.document.find? selector <;> simp [begun, hfound, hreached]

/-- The nodes of the bindings that a call makes are kept. -/
def pinning (e : Engine) (c : Call) : Engine :=
  { e with document := (e.bound c).foldl pinBinding e.document }

/-- What a call records before the first of its runs ends. -/
def opening (e : Engine) : Call → List (NodeId × Happening)
  | .start => (e.bound .start).flatMap (e.pinning .start).registering
  | c => (e.begun c).map e.triggering

/-- The engine when the runs of a call have begun and none has ended. -/
def opened (e : Engine) (c : Call) : Engine :=
  { e.pinning c with
    listeners := ⟨e.listeners.entries ++ (e.bound c).filterMap Binding.listener?⟩
    started := e.started || isStart c
    journal := e.journal.emitAll (e.opening c) }

/-- The requests of the runs that a call begins. -/
def requests (e : Engine) (c : Call) : List (Binding × Request) :=
  (e.begun c).map fun b => (b, (e.pinning c).requestOf b)

/-- The results of the runs that a call begins, in the order in which they end. -/
def results (e : Engine) (c : Call) : List (Binding × Fetched) := resultsOf e.transport (e.requests c)

/-- Answers that arrive in the order of their requests end the runs in this order. -/
theorem results_of_arriving
    (h : (sendAll e.transport (e.requests c)).1.Pairwise fun x y => x.2.delay ≤ y.2.delay) :
    e.results c = (sendAll e.transport (e.requests c)).1.map fun r => (r.1, .ofAnswer r.2.answer) := by
  rw [results, resultsOf, byArrival_of_pairwise h]

theorem results_perm (e : Engine) (c : Call) : ((e.results c).map Prod.fst).Perm (e.begun c) := by
  have h := resultsOf_perm e.transport (e.requests c)
  rwa [requests, List.map_map, show Prod.fst ∘ (fun b => (b, (e.pinning c).requestOf b)) = id from rfl,
    List.map_id] at h

/-- A call that binds nothing and begins nothing leaves the engine as it is. -/
theorem ending_of_idle {c : Call} (hbound : e.bound c = []) (hbegun : e.begun c = [])
    (hstarted : (e.started || isStart c) = e.started) :
    ({ e.opened c with transport := (sendAll e.transport (e.requests c)).2 } : Engine).ending
      (e.results c) = e := by
  have hrequests : e.requests c = [] := by simp [requests, hbegun]
  have hresults : e.results c = [] := by simp [results, hrequests, resultsOf, sendAll, byArrival]
  have hopening : e.opening c = [] := by
    cases c <;> simp [opening, hbound, hbegun]
  have hopened : e.opened c = e := by
    unfold opened pinning
    rw [hbound, hopening, hstarted, List.filterMap_nil, List.append_nil]
    rfl
  rw [hresults, hopened, hrequests]
  rfl

theorem call_start (e : Engine) : e.call .start =
    ({ e.opened .start with transport := (sendAll e.transport (e.requests .start)).2 } : Engine).ending
      (e.results .start) := by
  change e.start.2 = _
  cases hstarted : e.started with
  | true =>
    have hbound : e.bound .start = [] := by simp [bound, hstarted]
    have hbegun : e.begun .start = [] := by simp [begun, hbound]
    rw [start_of_started hstarted, ending_of_idle hbound hbegun (by simp [hstarted])]
  | false =>
    have hbound : e.bound .start = e.scan := by simp [bound, hstarted]
    simp only [start, hstarted, Bool.false_eq_true, if_false]
    rw [bindAll_eq, finish_eq]
    simp only [results, requests, begun, opened, opening, pinning, hbound, hstarted]
    rfl

theorem call_dispatch (e : Engine) (node : NodeId) (event : String) : e.call (.dispatch node event) =
    ({ e.opened (.dispatch node event) with
      transport := (sendAll e.transport (e.requests (.dispatch node event))).2 } : Engine).ending
      (e.results (.dispatch node event)) := by
  change (e.dispatch node event).2 = _
  simp only [dispatch]
  rw [triggerAll_eq, finish_eq]
  simp [results, requests, begun, opened, opening, pinning, bound, isStart]

/-- An event at what a selector finds is an event at that node. -/
theorem call_dispatchAt_of_find? {selector event : String} {node : NodeId}
    (h : e.document.find? selector = some node) :
    e.call (.dispatchAt selector event) = e.call (.dispatch node event) := by
  have hselect : e.document.select selector = .ok (some node) := by
    unfold Document.find? at h
    cases hs : e.document.select selector with
    | error failure => simp [hs] at h
    | ok found =>
      rw [hs] at h
      rw [show found = some node from h]
  simp only [call, dispatchAt, hselect]
  rfl

theorem call_dispatchAt_of_not_find? {selector : String} (h : e.document.find? selector = none)
    (event : String) : e.call (.dispatchAt selector event) = e := by
  unfold Document.find? at h
  cases hs : e.document.select selector with
  | error failure =>
    simp only [call, dispatchAt, hs]
    rfl
  | ok found =>
    rw [hs] at h
    simp only [call, dispatchAt, hs, show found = none from h]
    rfl

/-- A call begins runs and ends them. -/
theorem call_eq (e : Engine) (c : Call) : e.call c =
    ({ e.opened c with transport := (sendAll e.transport (e.requests c)).2 } : Engine).ending
      (e.results c) := by
  cases c with
  | start => exact call_start e
  | dispatch node event => exact call_dispatch e node event
  | dispatchAt selector event =>
    cases hfound : e.document.find? selector with
    | none =>
      rw [call_dispatchAt_of_not_find? hfound,
        ending_of_idle rfl (by simp [begun, hfound]) (by simp [isStart])]
    | some node =>
      have hbegun : e.begun (.dispatchAt selector event) = e.begun (.dispatch node event) := by
        simp [begun, hfound]
      have hopened : e.opened (.dispatchAt selector event) = e.opened (.dispatch node event) := by
        simp only [opened, opening, pinning, hbegun, bound, isStart]
      have hrequests : e.requests (.dispatchAt selector event) = e.requests (.dispatch node event) := by
        simp only [requests, hbegun, pinning, bound]
      rw [call_dispatchAt_of_find? hfound, call_dispatch, hopened, results, results, hrequests]

end Engine

end Hypertemplate
