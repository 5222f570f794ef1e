import Hypertemplate.Proofs.Engine.Protocol

/-!
# Runs that overlap

A call makes all its requests before it sends the first one. From then on the sends and the ends of its runs
may alternate: an answer that arrives at once ends its run before the next request goes out. `Overlap` allows
every order in which a run ends after its request was sent, and `Engine.finish` is one of them
(`overlap_finish`). What an engine is like afterwards depends on the order of the ends alone
(`Overlap.eq_ending`). So the requests that go out are the ones that the call made, in their order
(`requests_ignore_answers`), and they are those that the journal tells of (`journal_tells_requests`).
-/

namespace Hypertemplate

/-! ## What a transport saw -/

namespace Transport

/-- The requests that a script or the network saw. -/
def seen : Transport → List Request
  | script s => s.requests
  | network n => n.requests

/-- A script answers, and has seen these requests. -/
def Scripted (t : Transport) (requests : List Request) : Prop := ∃ s : Script, t = script s ∧ s.requests = requests

theorem Scripted.seen_eq {t : Transport} {requests : List Request} (h : t.Scripted requests) :
    t.seen = requests := by
  obtain ⟨s, rfl, hs⟩ := h
  exact hs

theorem Scripted.send {t : Transport} {requests : List Request} (h : t.Scripted requests) (r : Request) :
    (t.send r).2.Scripted (requests ++ [r]) := by
  obtain ⟨s, rfl, rfl⟩ := h
  refine ⟨(s.send r).2, rfl, ?_⟩
  simp only [Script.send]
  split <;> rfl

theorem Scripted.sendAll (pending : List (Binding × Request)) : ∀ {t : Transport} {requests : List Request},
    t.Scripted requests → (Engine.sendAll t pending).2.Scripted (requests ++ pending.map Prod.snd) := by
  induction pending with
  | nil =>
    intro t requests h
    simpa [Engine.sendAll] using h
  | cons x rest ih =>
    intro t requests h
    obtain ⟨b, r⟩ := x
    have hrest := ih (h.send r)
    rw [List.append_assoc] at hrest
    exact hrest

end Transport

namespace Engine

/-! ## Sends and ends in any order -/

/-- What the answer to a run gives. -/
def resultOf (x : Binding × Reply) : Binding × Fetched := (x.1, .ofAnswer x.2.answer)

/-- From an engine with requests to send, `pending`, and answers on their way, `flying`, to the engine after
all runs have ended, in the order `ends`. -/
inductive Overlap : Engine → List (Binding × Request) → List (Binding × Reply) → List (Binding × Reply) →
    Engine → Prop
  | done (e : Engine) : Overlap e [] [] [] e
  | send {e e' : Engine} {b : Binding} {r : Request} {rest : List (Binding × Request)}
      {flying ends : List (Binding × Reply)}
      (o : Overlap { e with transport := (e.transport.send r).2 } rest
        (flying ++ [(b, (e.transport.send r).1)]) ends e') : Overlap e ((b, r) :: rest) flying ends e'
  | arrive {e e' : Engine} {x : Binding × Reply} {pending : List (Binding × Request)}
      {before after ends : List (Binding × Reply)}
      (o : Overlap (e.complete x.1 (.ofAnswer x.2.answer)) pending (before ++ after) ends e') :
      Overlap e pending (before ++ x :: after) (x :: ends) e'

variable {e e' : Engine} {c : Call} {pending : List (Binding × Request)} {flying ends : List (Binding × Reply)}

/-- The end of a run neither reads nor changes what answers the requests. -/
theorem complete_transport (e : Engine) (transport : Transport) (b : Binding) (fetched : Fetched) :
    (e.complete b fetched).transport = e.transport ∧
      ({ e with transport } : Engine).complete b fetched = { e.complete b fetched with transport } := by
  cases fetched with
  | data v => exact ⟨rfl, rfl⟩
  | failed error =>
    cases hname : b.errorHandler with
    | none => simp [complete, routeError, emit, hname]
    | some name =>
      cases hinvoke : e.handlers.invoke? name error with
      | none => simp [complete, routeError, emit, hname, hinvoke]
      | some handlers => simp [complete, routeError, emit, hname, hinvoke]

/-- Every run ends once, and it does not matter where the sends stand between the ends. -/
theorem Overlap.eq_ending (o : Overlap e pending flying ends e') :
    ends.Perm (flying ++ (sendAll e.transport pending).1) ∧
      e' = ({ e with transport := (sendAll e.transport pending).2 } : Engine).ending
        (ends.map resultOf) := by
  induction o with
  | done e => exact ⟨List.Perm.nil, rfl⟩
  | send o ih =>
    obtain ⟨hperm, he⟩ := ih
    rw [List.append_assoc] at hperm
    exact ⟨hperm, he⟩
  | @arrive e _ x pending before after ends o ih =>
    obtain ⟨hperm, he⟩ := ih
    obtain ⟨htransport, hcomplete⟩ := complete_transport e (sendAll e.transport pending).2 x.1
      (.ofAnswer x.2.answer)
    rw [htransport] at hperm he
    constructor
    · rw [List.append_assoc, List.cons_append]
      rw [List.append_assoc] at hperm
      exact (hperm.cons x).trans List.perm_middle.symm
    · rw [he, ← hcomplete]
      rfl

/-- The requests may all be sent before the first run ends. -/
theorem Overlap.sendAll (pending : List (Binding × Request)) : ∀ {e : Engine} {flying : List (Binding × Reply)},
    Overlap { e with transport := (Engine.sendAll e.transport pending).2 } []
      (flying ++ (Engine.sendAll e.transport pending).1) ends e' → Overlap e pending flying ends e' := by
  induction pending with
  | nil =>
    intro e flying o
    simpa [Engine.sendAll] using o
  | cons x rest ih =>
    intro e flying o
    obtain ⟨b, r⟩ := x
    apply Overlap.send
    apply ih
    rw [List.append_assoc]
    exact o

/-- Once all requests are sent, the runs may end in any order. -/
theorem overlap_ending (ends : List (Binding × Reply)) : ∀ {e : Engine} {flying : List (Binding × Reply)},
    ends.Perm flying → Overlap e [] flying ends (e.ending (ends.map resultOf)) := by
  induction ends with
  | nil =>
    intro e flying hperm
    rw [List.nil_perm] at hperm
    rw [hperm]
    exact .done e
  | cons x rest ih =>
    intro e flying hperm
    obtain ⟨before, after, rfl⟩ := List.append_of_mem (hperm.subset List.mem_cons_self)
    have hrest : rest.Perm (before ++ after) := (hperm.trans List.perm_middle).cons_inv
    exact .arrive (ih hrest)

/-- The runs may end in any order, whatever the delays of their answers are. -/
theorem overlap_of_perm (h : ends.Perm (sendAll e.transport pending).1) :
    Overlap e pending [] ends (({ e with transport := (sendAll e.transport pending).2 } : Engine).ending
      (ends.map resultOf)) :=
  Overlap.sendAll pending (overlap_ending ends h)

theorem overlap_finish (e : Engine) (pending : List (Binding × Request)) :
    Overlap e pending [] (byArrival (sendAll e.transport pending).1) (e.finish pending) := by
  have hresults : resultsOf e.transport pending =
      (byArrival (Engine.sendAll e.transport pending).1).map resultOf := rfl
  rw [finish_eq, hresults]
  exact overlap_of_perm (List.mergeSort_perm _ _)

/-- Send requests one after the other, and end each run before the next request goes out. -/
def endEach (e : Engine) : List (Binding × Request) → Engine
  | [] => e
  | (b, r) :: rest =>
    (({ e with transport := (e.transport.send r).2 } : Engine).complete b
      (.ofAnswer (e.transport.send r).1.answer)).endEach rest

theorem overlap_endEach (pending : List (Binding × Request)) : ∀ e : Engine,
    ∃ ends, Overlap e pending [] ends (e.endEach pending) := by
  induction pending with
  | nil => exact fun e => ⟨[], .done e⟩
  | cons x rest ih =>
    intro e
    obtain ⟨b, r⟩ := x
    obtain ⟨ends, o⟩ := ih (({ e with transport := (e.transport.send r).2 } : Engine).complete b
      (.ofAnswer (e.transport.send r).1.answer))
    refine ⟨(b, (e.transport.send r).1) :: ends, .send ?_⟩
    exact @Overlap.arrive _ _ _ _ [] [] ends o

/-! ## Calls -/

/-- A call may leave an engine like this, whatever the order of its sends and ends. -/
def Leads (e : Engine) (c : Call) (e' : Engine) : Prop := ∃ ends, Overlap (e.opened c) (e.requests c) [] ends e'

theorem transport_opened (e : Engine) (c : Call) : (e.opened c).transport = e.transport := rfl

/-- The engine itself ends the runs of a call as the answers arrive. -/
theorem overlap_call (e : Engine) (c : Call) :
    Overlap (e.opened c) (e.requests c) [] (byArrival (sendAll e.transport (e.requests c)).1) (e.call c) := by
  have o := overlap_finish (e.opened c) (e.requests c)
  rwa [finish_eq, transport_opened, ← results, ← call_eq] at o

theorem leads_call (e : Engine) (c : Call) : e.Leads c (e.call c) := ⟨_, overlap_call e c⟩

/-- Several calls, one after the other. -/
inductive Running : Engine → List Call → Engine → Prop
  | done (e : Engine) : Running e [] e
  | call {e e₁ e' : Engine} {c : Call} {calls : List Call} (h : e.Leads c e₁) (hs : Running e₁ calls e') :
      Running e (c :: calls) e'

theorem running_calling (calls : List Call) : ∀ e : Engine, Running e calls (e.calling calls) := by
  induction calls with
  | nil => exact .done
  | cons c rest ih =>
    intro e
    exact .call (leads_call e c) (ih (e.call c))

/-! ## The requests of a call -/

/-- Keeping nodes does not change what is read for a request. -/
theorem requestOf_pinning (e : Engine) (c : Call) : (e.pinning c).requestOf = e.requestOf := by
  funext b
  have hpayload : (e.pinning c).document.payload? = e.document.payload? :=
    Document.payload?_congr (Document.nodes_pinBindings _ _)
  rw [requestOf, requestOf, hpayload]
  rfl

theorem map_snd_requests (e : Engine) (c : Call) : (e.requests c).map Prod.snd = (e.begun c).map e.requestOf := by
  rw [requests, List.map_map, requestOf_pinning]
  rfl

theorem transport_ending (results : List (Binding × Fetched)) : ∀ e : Engine,
    (e.ending results).transport = e.transport := by
  induction results with
  | nil => exact fun _ => rfl
  | cons r rest ih =>
    intro e
    exact (ih _).trans (complete_transport e e.transport r.1 r.2).1

theorem Leads.scripted (h : e.Leads c e') {requests : List Request} (hs : e.transport.Scripted requests) :
    e'.transport.Scripted (requests ++ (e.begun c).map e.requestOf) := by
  obtain ⟨ends, o⟩ := h
  rw [o.eq_ending.2, transport_ending, transport_opened, ← map_snd_requests]
  exact hs.sendAll _

/-- The requests that a start or an event sends are the same whatever the answers are and whenever they arrive:
those of the runs that it begins, in their order, read off the document as it was before. -/
theorem requests_ignore_answers (e : Engine) (c : Call) :
    ∃ sent : List Request, sent = (e.begun c).map e.requestOf ∧
      ∀ script : Script,
        (({ e with transport := .script script } : Engine).call c).transport.seen =
          script.requests ++ sent ∧
        ∀ e', ({ e with transport := .script script } : Engine).Leads c e' →
          e'.transport.seen = script.requests ++ sent := by
  refine ⟨_, rfl, fun script => ?_⟩
  have hall : ∀ e', ({ e with transport := .script script } : Engine).Leads c e' →
      e'.transport.seen = script.requests ++ (e.begun c).map e.requestOf := by
    intro e' h
    have hscripted := h.scripted ⟨script, rfl, rfl⟩
    have hbegun : ({ e with transport := .script script } : Engine).begun c = e.begun c := by
      cases c <;> rfl
    rw [hbegun] at hscripted
    exact hscripted.seen_eq
  exact ⟨hall _ (leads_call _ _), hall⟩

/-- The first of two templates updates the element whose text the second one sends, and its run ends before the
second request goes out. -/
theorem requests_ignore_answers_updated :
    let html := "<div id=q>old<template hx-endpoint=/1>new</template></div>" ++
      "<template hx-endpoint=/2 hx-method=post hx-data-sources=#q></template>"
    let script : Script := ({} : Script).push "GET" "/1" ⟨.ok ⟨200, "1"⟩, 0⟩
    let page := onPage html {} (.script script) {} {}
    let e := (page.opened .start).endEach (page.requests .start)
    page.Leads .start e ∧ page.document.find? "#q" = some 4 ∧
      (page.begun .start).map (fun b => (b.target, b.action, b.dataSources)) =
        [(4, .update, none), (3, .update, some ["#q"])] ∧
      e.transport.seen.map (·.body) = [none, some "\x7b\"q\":\"old\"\x7d"] ∧
      (page.call .start).transport.seen = e.transport.seen := by
  intro html script page e
  have hpage : page.document.find? "#q" = some 4 ∧
      (page.begun .start).map (fun b => (b.target, b.action, b.dataSources)) =
        [(4, .update, none), (3, .update, some ["#q"])] ∧
      ((page.begun .start).map page.requestOf).map (·.body) =
        [none, some "\x7b\"q\":\"old\"\x7d"] := by
    decide +kernel
  obtain ⟨hfind, hbegun, hbodies⟩ := hpage
  have hleads : page.Leads .start e := overlap_endEach _ _
  obtain ⟨sent, hsent, hall⟩ := requests_ignore_answers page .start
  have hsame : ∀ e : Engine, e.transport = .script script → { e with transport := .script script } = e := by
    rintro e he
    rw [← he]
  have hnone : script.requests = [] := rfl
  obtain ⟨hcall, hany⟩ := hall script
  rw [hsame page rfl, hnone, List.nil_append] at hcall hany
  have he : e.transport.seen = sent := hany e hleads
  refine ⟨hleads, hfind, hbegun, ?_, hcall.trans he.symm⟩
  rw [he, hsent, hbodies]

/-! ## What the journal tells of requests -/

/-- A call records its opening, and then no further beginning of a run. -/
theorem Leads.journal_eq (h : e.Leads c e') : ∃ closing : List (NodeId × Happening),
    (∀ n ∈ closing, n.2.isBegin = false) ∧ e'.journal = e.journal.emitAll (e.opening c ++ closing) := by
  obtain ⟨ends, o⟩ := h
  obtain ⟨-, he⟩ := o.eq_ending
  obtain ⟨closing, -, hclosing, hjournal⟩ := journal_ending (ends.map resultOf)
    { e.opened c with transport := (sendAll (e.opened c).transport (e.requests c)).2 }
  refine ⟨closing.flatMap recordsOf, not_isBegin_of_mem_ends hclosing, ?_⟩
  rw [he, hjournal, Journal.emitAll_append]
  rfl

theorem Leads.nextId_le (h : e.Leads c e') :
    e.journal.nextId ≤ e'.journal.nextId ∧ e'.journal.capacity = e.journal.capacity := by
  obtain ⟨closing, -, hjournal⟩ := h.journal_eq
  obtain ⟨hnext, hcapacity⟩ := Journal.nextId_emitAll (e.opening c ++ closing) e.journal
  rw [hjournal, hnext, hcapacity]
  exact ⟨Nat.le_add_right _ _, rfl⟩

theorem Running.nextId_le {calls : List Call} (h : Running e calls e') :
    e.journal.nextId ≤ e'.journal.nextId ∧ e'.journal.capacity = e.journal.capacity := by
  induction h with
  | done e => exact ⟨Nat.le_refl _, rfl⟩
  | call h _ ih =>
    obtain ⟨hle, hcapacity⟩ := h.nextId_le
    exact ⟨Nat.le_trans hle ih.1, ih.2.trans hcapacity⟩

end Engine

/-- The method and the URL of the request that a happening tells of. -/
def Happening.request? : Happening → Option (String × String)
  | triggered method url => some (method, url)
  | _ => none

/-- The requests that records tell of. -/
def requestsOf (news : List (NodeId × Happening)) : List (String × String) :=
  news.filterMap fun n => n.2.request?

theorem requestsOf_append (news more : List (NodeId × Happening)) :
    requestsOf (news ++ more) = requestsOf news ++ requestsOf more := List.filterMap_append

theorem requestsOf_of_not_isBegin {news : List (NodeId × Happening)} (h : ∀ n ∈ news, n.2.isBegin = false) :
    requestsOf news = [] := by
  apply List.filterMap_eq_nil_iff.mpr
  intro n hn
  have hbegin := h n hn
  cases hk : n.2 <;> simp_all [Happening.isBegin, Happening.request?]

namespace Engine

variable {e e' : Engine} {c : Call}

theorem requestsOf_map_triggering (e : Engine) (bs : List Binding) :
    requestsOf (bs.map e.triggering) = (bs.map e.requestOf).map fun r => (r.method, r.url) := by
  rw [requestsOf, List.filterMap_map, List.map_map, ← List.filterMap_eq_map]
  rfl

theorem requestsOf_flatMap_registering (e : Engine) (bs : List Binding) :
    requestsOf (bs.flatMap e.registering) =
      ((bs.filter Binding.loads).map e.requestOf).map fun r => (r.method, r.url) := by
  induction bs with
  | nil => rfl
  | cons b rest ih =>
    rw [List.flatMap_cons, requestsOf_append, ih, registering]
    by_cases hloads : b.loads = true
    · rw [if_pos hloads, List.filter_cons_of_pos hloads]
      rfl
    · rw [if_neg hloads, List.filter_cons_of_neg hloads]
      rfl

/-- The opening of a call tells of the requests that the call sends, in their order. -/
theorem requestsOf_opening (e : Engine) (c : Call) :
    requestsOf (e.opening c) = ((e.begun c).map e.requestOf).map fun r => (r.method, r.url) := by
  cases c with
  | start =>
    rw [← requestOf_pinning e .start]
    exact requestsOf_flatMap_registering _ _
  | dispatch node event => exact requestsOf_map_triggering _ _
  | dispatchAt selector event => exact requestsOf_map_triggering _ _

/-- The journal kept all records, and tells of the requests that the script saw. -/
structure Agrees (e : Engine) : Prop where
  whole : e.journal.Whole
  scripted : ∃ requests : List Request, e.transport.Scripted requests ∧
    requestsOf e.journal.entries = requests.map fun r => (r.method, r.url)

theorem Agrees.leads (a : Agrees e) (h : e.Leads c e')
    (hroom : e'.journal.nextId ≤ e'.journal.capacity) : Agrees e' := by
  obtain ⟨closing, hclosing, hjournal⟩ := h.journal_eq
  obtain ⟨requests, hscripted, hrequests⟩ := a.scripted
  rw [hjournal, (Journal.nextId_emitAll _ _).1, (Journal.nextId_emitAll _ _).2] at hroom
  obtain ⟨hwhole, hentries⟩ := a.whole.emitAll _ hroom
  rw [← hjournal] at hwhole hentries
  refine ⟨hwhole, requests ++ (e.begun c).map e.requestOf, h.scripted hscripted, ?_⟩
  rw [hentries, requestsOf_append, requestsOf_append, hrequests, requestsOf_opening,
    requestsOf_of_not_isBegin hclosing, List.append_nil, List.map_append]

theorem Agrees.running {calls : List Call} (h : Running e calls e') :
    Agrees e → e'.journal.nextId ≤ e'.journal.capacity → Agrees e' := by
  induction h with
  | done e => exact fun a _ => a
  | call h hs ih =>
    intro a hroom
    -- What the later calls record is more, so the records of this one fitted.
    obtain ⟨hle, hcapacity⟩ := hs.nextId_le
    exact ih (a.leads h (by rw [← hcapacity]; exact Nat.le_trans hle hroom)) hroom

/-- After any calls of an engine on any page, with any scripted answers, if the journal has room for all
records: the requests that the script saw and those that the journal tells of have the same methods and URLs in
the same order. This holds for all orders in which the sends and the ends of the runs of each call may follow
each other, and the engine's own order is one of them. -/
theorem journal_tells_requests (html : String) (settings : Settings) (routes : List Route)
    (handlers : Handlers) (capacity : Nat) (calls : List Call) :
    let page := onPage html settings (.script { routes }) handlers { capacity }
    Running page calls (page.calling calls) ∧
    ∀ e, Running page calls e → e.journal.nextId ≤ capacity →
      e.transport.seen.map (fun r => (r.method, r.url)) =
        e.journal.records.filterMap fun r => r.happening.request? := by
  intro page
  refine ⟨running_calling calls page, fun e h hroom => ?_⟩
  have start : Agrees page := ⟨rfl, [], ⟨{ routes }, rfl, rfl⟩, rfl⟩
  have hcapacity : e.journal.capacity = capacity := h.nextId_le.2
  obtain ⟨-, requests, hscripted, hrequests⟩ := start.running h (by rw [hcapacity]; exact hroom)
  rw [hscripted.seen_eq, ← hrequests, requestsOf, Journal.entries, List.filterMap_map]
  rfl

/-- A run that loads, with a late answer, and an event whose run is refused. -/
theorem journal_tells_requests_click :
    let html := "<p id=p></p><template hx-endpoint=/1 hx-target=#p>x</template>" ++
      "<template hx-endpoint=/2 hx-method=post hx-event=onclick hx-target=#p>y</template>"
    let routes : List Route := [⟨"GET", "/1", [⟨.ok ⟨404, "1"⟩, 5⟩]⟩]
    let page := onPage html {} (.script { routes }) {} { capacity := 8 }
    let e := page.calling [.start, .dispatchAt "#p" "click"]
    Running page [.start, .dispatchAt "#p" "click"] e ∧ e.journal.nextId ≤ 8 ∧
      e.transport.seen.map (fun r => (r.method, r.url)) =
        e.journal.records.filterMap (fun r => r.happening.request?) ∧
      e.journal.records.filterMap (fun r => r.happening.request?) = [("GET", "/1"), ("POST", "/2")] := by
  intro html routes page e
  obtain ⟨hrunning, hall⟩ := journal_tells_requests html {} routes {} 8 [.start, .dispatchAt "#p" "click"]
  obtain ⟨hroom, htold⟩ : e.journal.nextId ≤ 8 ∧
      e.journal.records.filterMap (fun r => r.happening.request?) = [("GET", "/1"), ("POST", "/2")] := by
    decide +kernel
  exact ⟨hrunning, hroom, hall e hrunning hroom, htold⟩

end Engine

end Hypertemplate
