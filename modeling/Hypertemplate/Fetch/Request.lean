import Hypertemplate.Binding.Resolve
import Hypertemplate.Json.Print
import Hypertemplate.Url.Parse

/-!
# Requests

A template's data sources become the payload: an object with one text field for each selector that finds an
element. The payload travels as the body of every request but a `GET`.
-/

namespace Hypertemplate

open Hypertemplate.Text Hypertemplate.Json

/-- The field of the payload that a data source fills: its selector without a number sign in front. -/
def payloadKey (selector : String) : String :=
  match selector.toList with
  | '#' :: rest => String.ofList rest
  | _ => selector

namespace Document

/-- What an element contributes to a payload: its form value, else its text. -/
def sentText (d : Document) (i : NodeId) : String := (d.value? i).getD (d.textContent i)

/-- The fields that data sources fill; a selector that is malformed or finds nothing fills none. -/
def payloadFields (d : Document) (sources : List String) : List (String × Value) :=
  sources.filterMap fun selector =>
    (d.find? selector).map fun i => (payloadKey selector, .string (d.sentText i))

/-- The payload of data sources; none if no sources are declared. -/
def payload? (d : Document) (sources : Option (List String)) : Option Value :=
  sources.map fun ss => .ofFields (d.payloadFields ss)

end Document

/-- A request, with its headers in order. -/
structure Request where
  url : String
  method : String
  headers : List (String × String) := []
  body : Option String := none
  deriving DecidableEq, Repr, Inhabited

/-- The value of a header; names are compared ignoring letter case. -/
def Request.header? (r : Request) (name : String) : Option String :=
  (r.headers.find? fun (k, _) => eqIgnoringCase k name).map (·.2)

/-- An endpoint relative to a base; without a base, and where it cannot be resolved, the endpoint as it
is. -/
def resolveEndpoint (base : Option Url) (endpoint : String) : String :=
  match base with
  | none => endpoint
  | some u =>
    match u.join endpoint with
    | .ok resolved => resolved.text
    | .error _ => endpoint

def Request.toEndpoint (base : Option Url) (endpoint method : String) (payload : Option Value) :
    Request :=
  { url := resolveEndpoint base endpoint
    method
    headers := [("Content-Type", "application/json")]
    body := if eqIgnoringCase method "GET" then none else payload.map Value.text }

end Hypertemplate
