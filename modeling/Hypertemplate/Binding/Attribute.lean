import Hypertemplate.Document.Basic
import Hypertemplate.Text.Blank

/-!
# Binding attributes

A template declares its binding in attributes whose names share a leading part. An attribute that is there
but blank counts as declared and has no value.
-/

namespace Hypertemplate

open Hypertemplate.Text

/-- What an attribute declares. -/
inductive Declared where
  | absent
  | blank
  | given (value : String)
  deriving DecidableEq, Repr, Inhabited

namespace Declared

/-- What the value of an attribute declares. -/
def ofValue : Option String → Declared
  | none => absent
  | some v => if allBlank v then blank else given v

/-- The value that is declared, if it is not blank. -/
def value? : Declared → Option String
  | given v => some v
  | absent | blank => none

/-- Whether the attribute is there. -/
def isDeclared (a : Declared) : Bool := a != absent

end Declared

/-- What an attribute of a node declares. -/
def Document.declared (d : Document) (i : NodeId) (name : String) : Declared :=
  .ofValue (d.attribute? i name)

/-- The names of the binding attributes. -/
structure AttributeNames where
  endpoint : String
  dataSources : String
  method : String
  event : String
  error : String
  target : String
  eventTarget : String
  action : String
  deriving DecidableEq, Repr, Inhabited

/-- The names that start with `lead`, in small letters. -/
def AttributeNames.startingWith (lead : String) : AttributeNames :=
  let name (tail : String) : String := lowerAscii (lead ++ tail)
  { endpoint := name "endpoint"
    dataSources := name "data-sources"
    method := name "method"
    event := name "event"
    error := name "error"
    target := name "target"
    eventTarget := name "event-target"
    action := name "action" }

def AttributeNames.optional (names : AttributeNames) : List String :=
  [names.dataSources, names.method, names.event, names.error, names.target, names.eventTarget,
    names.action]

/-- How rendered content goes into its target: in place of the target's children, behind them, or in
place of the target itself. -/
inductive Action where
  | update
  | append
  | swap
  deriving DecidableEq, Repr, Inhabited

namespace Action

/-- The action that a text names in any letter case, if it names one. -/
def ofText? (text : String) : Option Action :=
  match lowerAscii (trim text) with
  | "update" => some update
  | "append" => some append
  | "swap" => some swap
  | _ => none

/-- The action that a text names; other texts mean an update. -/
def ofText (text : String) : Action := (ofText? text).getD update

def name : Action → String
  | update => "update"
  | append => "append"
  | swap => "swap"

end Action

end Hypertemplate
