import Hypertemplate.Binding.Attribute
import Hypertemplate.Selector.Match
import Hypertemplate.Failure

/-!
# Bindings

A binding says what a template fetches, when, and where the rendered data goes. `Document.binding?` reads
it from a template's attributes and never fails: a selector that is malformed or finds nothing counts as
not given.
-/

namespace Hypertemplate

open Hypertemplate.Text

/-- The descendants of the root that a selector finds. -/
def Document.selectAll (d : Document) (selector : String) : Except Failure (List NodeId) :=
  match Query.parse selector with
  | .ok q => .ok (q.allBelow d Document.root)
  | .error p => .error (.invalidSelector selector p)

/-- The first descendant of the root that a selector finds. -/
def Document.select (d : Document) (selector : String) : Except Failure (Option NodeId) :=
  match Query.parse selector with
  | .ok q => .ok (q.firstBelow? d Document.root)
  | .error p => .error (.invalidSelector selector p)

/-- The first element that a selector finds; a malformed selector finds nothing. -/
def Document.find? (d : Document) (selector : String) : Option NodeId :=
  match d.select selector with
  | .ok found => found
  | .error _ => none

/-- The event of templates that declare none: the start of the page. -/
def loadEvent : String := "onload"

/-- What a template declares. -/
structure Binding where
  template : NodeId
  endpoint : String
  method : String
  dataSources : Option (List String)
  event : String
  errorHandler : Option String
  target : NodeId
  eventTarget : NodeId
  action : Action
  deriving DecidableEq, Repr, Inhabited

/-- The selectors in a list of data sources, without blanks around them and without empty ones. -/
def dataSourcesOf (text : String) : List String :=
  ((splitOnChar ',' text).map trim).filter (· != "")

/-- The method of a request: the declared one in capitals, else one that fits whether data is sent. -/
def methodFor (declared : Declared) (sendsData : Bool) : String :=
  match declared.value? with
  | some m => upperAscii (trim m)
  | none => if sendsData then "POST" else "GET"

/-- The binding that a template declares; none without an endpoint attribute. -/
def Document.binding? (d : Document) (names : AttributeNames) (template : NodeId) : Option Binding :=
  (d.attribute? template names.endpoint).map fun endpoint =>
    let value? (name : String) : Option String := (d.declared template name).value?
    let sources := ((value? names.dataSources).map dataSourcesOf).filter (!·.isEmpty)
    let target := ((value? names.target).bind d.find?).getD ((d.parent template).getD Document.root)
    { template
      endpoint := trim endpoint
      method := methodFor (d.declared template names.method) sources.isSome
      dataSources := sources
      event := ((value? names.event).map trim).getD loadEvent
      errorHandler := (value? names.error).map trim
      target
      eventTarget := ((value? names.eventTarget).bind d.find?).getD target
      action := ((value? names.action).map Action.ofText).getD .update }

end Hypertemplate
