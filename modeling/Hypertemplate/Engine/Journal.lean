import Hypertemplate.Binding.Attribute
import Hypertemplate.Json.Value

/-!
# The journal of a run

Every binding and every run of one leaves records. The journal keeps the latest records, at most `capacity`
of them, while the numbers of records go on counting.
-/

namespace Hypertemplate

open Hypertemplate.Json

inductive Happening where
  | bindingRegistered (endpoint event : String)
  | triggered (method url : String)
  | fetchSucceeded (items : Nat)
  | fetchFailed (error : String)
  | handlerInvoked (handler error : String)
  | handlerMissing (handler : String)
  | errorSwallowed (error : String)
  | rendered (action : Action) (fragments : Nat)
  deriving DecidableEq, Repr, Inhabited

namespace Happening

/-- Whether a happening ends the run of a binding. -/
def isOutcome : Happening → Bool
  | handlerInvoked .. | handlerMissing _ | errorSwallowed _ | rendered .. => true
  | _ => false

def kind : Happening → String
  | bindingRegistered .. => "binding_registered"
  | triggered .. => "triggered"
  | fetchSucceeded _ => "fetch_succeeded"
  | fetchFailed _ => "fetch_failed"
  | handlerInvoked .. => "handler_invoked"
  | handlerMissing _ => "handler_missing"
  | errorSwallowed _ => "error_swallowed"
  | rendered .. => "rendered"

/-- The fields of a happening besides its kind and its template. -/
def fields : Happening → List (String × Value)
  | bindingRegistered endpoint event => [("endpoint", .string endpoint), ("event", .string event)]
  | triggered method url => [("method", .string method), ("url", .string url)]
  | fetchSucceeded items => [("items", .number (.integer items))]
  | fetchFailed error => [("error", .string error)]
  | handlerInvoked handler error => [("handler", .string handler), ("error", .string error)]
  | handlerMissing handler => [("handler", .string handler)]
  | errorSwallowed error => [("error", .string error)]
  | rendered action fragments =>
    [("action", .string action.name), ("fragments", .number (.integer fragments))]

end Happening

/-- A numbered happening of a template. -/
structure Record where
  id : Nat
  template : NodeId
  happening : Happening
  deriving DecidableEq, Repr, Inhabited

namespace Record

/-- The fields that describe a record, without its number. -/
def fields (r : Record) : List (String × Value) :=
  [("type", .string r.happening.kind), ("template", .number (.integer r.template))] ++ r.happening.fields

/-- A record as JSON; times count from zero and stand still. -/
def toJson (r : Record) : Value :=
  .ofFields [("id", .number (.integer r.id)), ("timestamp_ms", .number (.integer 0)),
    ("kind", .ofFields r.fields)]

end Record

/-- The latest records, the oldest first, and the number of the next one. -/
structure Journal where
  capacity : Nat := 1024
  records : List Record := []
  nextId : Nat := 0
  deriving DecidableEq, Repr

namespace Journal

/-- Drop the oldest records until there is room for one more. -/
def makeRoom (capacity : Nat) : List Record → List Record
  | [] => []
  | r :: rest => if capacity ≤ rest.length + 1 then makeRoom capacity rest else r :: rest

/-- Add a record and drop the oldest ones that do not fit. A journal without room only counts. -/
def emit (j : Journal) (template : NodeId) (happening : Happening) : Journal :=
  let counted := { j with nextId := j.nextId + 1 }
  if j.capacity = 0 then counted
  else { counted with records := makeRoom j.capacity j.records ++ [⟨j.nextId, template, happening⟩] }

/-- Add a record and give its number back. -/
def record (j : Journal) (template : NodeId) (happening : Happening) : Nat × Journal :=
  (j.nextId, j.emit template happening)

def ofTemplate (j : Journal) (template : NodeId) : List Record :=
  j.records.filter (·.template == template)

def outcomes (j : Journal) : List Record := j.records.filter (·.happening.isOutcome)

def size (j : Journal) : Nat := j.records.length

def toJson (j : Journal) : Value := .array (j.records.map Record.toJson)

/-- A line that shows how many records there are and how many there can be. -/
def description (j : Journal) : String :=
  "EventLog \x7b len: " ++ toString j.size ++ ", capacity: " ++ toString j.capacity ++ " \x7d"

end Journal

end Hypertemplate
