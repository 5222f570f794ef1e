import Hypertemplate.Binding.Resolve

/-!
# Diagnostics of bindings

What a template declares and its binding ignores: blank attributes, selectors that are malformed or find
nothing, methods and actions that are none, events without a name.
-/

namespace Hypertemplate

open Hypertemplate.Text

inductive Diagnostic where
  | emptyAttribute (name : String)
  | emptyEndpoint
  | invalidSelector (name selector : String) (problem : Selector.Problem)
  | unmatchedSelector (name selector : String)
  | unknownAction (value : String)
  | invalidMethod (value : String)
  | unusableEvent (value : String)
  deriving DecidableEq, Repr

namespace Diagnostic

/-- The name of the kind of diagnostic. -/
def kind : Diagnostic → String
  | emptyAttribute _ => "EmptyAttribute"
  | emptyEndpoint => "EmptyEndpoint"
  | invalidSelector .. => "InvalidSelector"
  | unmatchedSelector .. => "UnmatchedSelector"
  | unknownAction _ => "UnknownAction"
  | invalidMethod _ => "InvalidMethod"
  | unusableEvent _ => "UnusableEvent"

def message : Diagnostic → String
  | emptyAttribute name => name ++ " is empty and will be ignored"
  | emptyEndpoint => "endpoint is empty"
  | invalidSelector name selector problem =>
    name ++ ": invalid selector '" ++ selector ++ "' (" ++ problem.reason ++ ")"
  | unmatchedSelector name selector =>
    name ++ ": '" ++ selector ++ "' matches nothing, using fallback"
  | unknownAction value => "unknown action '" ++ value ++ "', using 'update'"
  | invalidMethod value => "'" ++ value ++ "' is not a valid HTTP method"
  | unusableEvent value => "event '" ++ value ++ "' has no name after its two-character prefix"

end Diagnostic

/-- A character of a method's name. -/
def isMethodChar (c : Char) : Bool :=
  c.isAlphanum || "!#$%&'*+-.^_`|~".toList.contains c

/-- Whether a text can be the method of a request. -/
def isMethodToken (method : String) : Bool := !method.isEmpty && method.toList.all isMethodChar

namespace Document

/-- What is wrong with a selector that the attribute with a name declares. -/
def selectorDiagnostics (d : Document) (name selector : String) : List Diagnostic :=
  match Query.parse selector with
  | .error p => [.invalidSelector name selector p]
  | .ok q =>
    if (q.firstBelow? d root).isSome then [] else [.unmatchedSelector name selector]

def endpointDiagnostics (d : Document) (names : AttributeNames) (template : NodeId) :
    List Diagnostic :=
  if d.declared template names.endpoint = .blank then [.emptyEndpoint] else []

def blankDiagnostics (d : Document) (names : AttributeNames) (template : NodeId) : List Diagnostic :=
  (names.optional.filter fun name => d.declared template name == .blank).map .emptyAttribute

def methodDiagnostics (d : Document) (names : AttributeNames) (template : NodeId) : List Diagnostic :=
  match d.declared template names.method with
  | .given method => if isMethodToken (trim method) then [] else [.invalidMethod method]
  | _ => []

def eventDiagnostics (d : Document) (names : AttributeNames) (template : NodeId) : List Diagnostic :=
  match d.declared template names.event with
  | .given event =>
    let event := trim event
    if event ≠ loadEvent ∧ event.length ≤ 2 then [.unusableEvent event] else []
  | _ => []

def targetDiagnostics (d : Document) (template : NodeId) (name : String) : List Diagnostic :=
  match d.declared template name with
  | .given selector => d.selectorDiagnostics name selector
  | _ => []

def sourceDiagnostics (d : Document) (names : AttributeNames) (template : NodeId) : List Diagnostic :=
  match d.declared template names.dataSources with
  | .given sources => (dataSourcesOf sources).flatMap (d.selectorDiagnostics names.dataSources)
  | _ => []

def actionDiagnostics (d : Document) (names : AttributeNames) (template : NodeId) : List Diagnostic :=
  match d.declared template names.action with
  | .given action => if (Action.ofText? action).isSome then [] else [.unknownAction action]
  | _ => []

/-- What the binding of a template ignores. -/
def diagnose (d : Document) (names : AttributeNames) (template : NodeId) : List Diagnostic :=
  d.endpointDiagnostics names template ++ d.blankDiagnostics names template ++
    d.methodDiagnostics names template ++ d.eventDiagnostics names template ++
    d.targetDiagnostics template names.target ++ d.targetDiagnostics template names.eventTarget ++
    d.sourceDiagnostics names template ++ d.actionDiagnostics names template

end Document

end Hypertemplate
