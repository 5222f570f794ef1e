import Hypertemplate.Engine.Event
import Hypertemplate.Engine.Handlers
import Hypertemplate.Engine.Journal
import Hypertemplate.Fetch.Client
import Hypertemplate.Template.Render

/-!
# Running bindings

The start of a page binds every template once: a template that loads runs at once, the others listen for
their event. A run of a binding sends a request and renders the answer's data into the target, or hands
the error to the handler that the template names. Runs that belong together send their requests in order;
they end in the order in which their answers arrive, and those that arrive together in the order of their
requests.
-/

namespace Hypertemplate

/-- The bindings of all templates below the root, in document order. -/
def Document.bindings (d : Document) (names : AttributeNames) : List Binding :=
  ((d.descendants root).filter fun i => d.tagName? i == some "template").filterMap (d.binding? names)

/-- A page that runs: its document, what answers its requests, its handlers and its listeners, and the record
of what happened so far. -/
structure Engine where
  document : Document
  settings : Settings := {}
  transport : Transport := .script {}
  handlers : Handlers := {}
  /-- The calls of handlers, with the messages that they got. -/
  calls : List (String × String) := []
  journal : Journal := {}
  listeners : Listeners := {}
  started : Bool := false

namespace Engine

structure Report where
  bindings : List Binding := []
  immediate : Nat := 0
  listening : Nat := 0

structure Dispatched where
  triggered : Nat := 0
  defaultPrevented : Bool := false
  deriving DecidableEq, Repr

/-- The bindings that the document declares now. -/
def scan (e : Engine) : List Binding := e.document.bindings e.settings.names

/-- Record what happened to a template. -/
def emit (e : Engine) (template : NodeId) (happening : Happening) : Engine :=
  { e with journal := e.journal.emit template happening }

/-- The request of a binding, from the values in the document. -/
def requestOf (e : Engine) (b : Binding) : Request :=
  .toEndpoint e.settings.baseUrl b.endpoint b.method (e.document.payload? b.dataSources)

/-- Begin a run: make its request. -/
def trigger (e : Engine) (b : Binding) : Request × Engine :=
  let request := e.requestOf b
  (request, e.emit b.template (.triggered request.method request.url))

/-- Hand the error of a run to the handler that the binding names. -/
def routeError (e : Engine) (b : Binding) (error : String) : Engine :=
  match b.errorHandler with
  | none => e.emit b.template (.errorSwallowed error)
  | some name =>
    match e.handlers.invoke? name error with
    | some handlers =>
      { e with handlers, calls := e.calls ++ [(name, error)] }.emit b.template (.handlerInvoked name error)
    | none => e.emit b.template (.handlerMissing name)

def renderData (e : Engine) (b : Binding) (data : Json.Value) : Engine :=
  let (count, document) :=
    e.document.render e.settings.nestedArrayAttribute b.template data b.target b.action
  { e with document }.emit b.template (.rendered b.action count)

/-- End a run. -/
def complete (e : Engine) (b : Binding) (fetched : Fetched) : Engine :=
  match fetched with
  | .failed error => (e.emit b.template (.fetchFailed error)).routeError b error
  | .data data => (e.emit b.template (.fetchSucceeded fetched.itemCount)).renderData b data

def sendAll (transport : Transport) : List (Binding × Request) → List (Binding × Reply) × Transport
  | [] => ([], transport)
  | (b, r) :: rest =>
    let (reply, transport) := transport.send r
    let (replies, transport) := sendAll transport rest
    ((b, reply) :: replies, transport)

/-- Runs in the order in which their answers arrive. -/
def byArrival (replies : List (Binding × Reply)) : List (Binding × Reply) :=
  replies.mergeSort fun a b => decide (a.2.delay ≤ b.2.delay)

/-- Send the requests of runs and end the runs as the answers arrive. -/
def finish (e : Engine) (pending : List (Binding × Request)) : Engine :=
  let (replies, transport) := sendAll e.transport pending
  (byArrival replies).foldl (fun e (b, reply) => e.complete b (.ofAnswer reply.answer))
    { e with transport }

/-- Keep the nodes of a binding when rendering gives nodes back. -/
def pinBinding (d : Document) (b : Binding) : Document :=
  ((d.pin b.template).pin b.target).pin b.eventTarget

/-- Bind templates; the requests of those that load come back. -/
def bindAll (e : Engine) : List Binding → List (Binding × Request) × Engine
  | [] => ([], e)
  | b :: rest =>
    let e := e.emit b.template (.bindingRegistered b.endpoint b.event)
    match Trigger.ofEvent b.event with
    | .load =>
      let (request, e) := e.trigger b
      let (pending, e) := bindAll e rest
      ((b, request) :: pending, e)
    | .event name => bindAll { e with listeners := e.listeners.add b.eventTarget name b } rest

/-- Start the page. Only the first start does something. -/
def start (e : Engine) : Report × Engine :=
  if e.started then ({}, e)
  else
    let bindings := e.scan
    let e := { e with started := true, document := bindings.foldl pinBinding e.document }
    let (pending, e) := e.bindAll bindings
    ({ bindings, immediate := pending.length, listening := bindings.length - pending.length },
      e.finish pending)

/-- Begin the runs of bindings. -/
def triggerAll (e : Engine) : List Binding → List (Binding × Request) × Engine
  | [] => ([], e)
  | b :: rest =>
    let (request, e) := e.trigger b
    let (pending, e) := triggerAll e rest
    ((b, request) :: pending, e)

/-- Fire an event at a node. Every run that it begins prevents the default. -/
def dispatch (e : Engine) (node : NodeId) (event : String) : Dispatched × Engine :=
  let reached := e.listeners.reached e.document node event
  let (pending, e) := e.triggerAll reached
  let fired := reached.foldl (fun ev _ => ev.preventDefault) { name := event, target := node : Event }
  (⟨reached.length, fired.defaultPrevented⟩, e.finish pending)

/-- Fire an event at the first element that a selector finds. -/
def dispatchAt (e : Engine) (selector event : String) : Except Failure (Dispatched × Engine) := do
  match ← e.document.select selector with
  | some node => return e.dispatch node event
  | none => throw (.noMatch selector)

end Engine

end Hypertemplate
