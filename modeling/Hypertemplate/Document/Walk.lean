import Hypertemplate.Document.Basic
import Hypertemplate.Text.Blank

/-!
# Walks over a document

Descendants come in document order, without the node itself and without template content. Ancestors start
at the node itself. On a document whose links form no cycle no walk goes further down or up than the table
has places, which bounds every walk here.
-/

namespace Hypertemplate.Document

open Hypertemplate.Text

/-- Visit the nodes on a list and all below them in document order; `bound` limits the visits. -/
def visit (d : Document) : (bound : Nat) → List NodeId → List NodeId
  | 0, _ => []
  | _ + 1, [] => []
  | bound + 1, i :: rest => i :: visit d bound (d.children i ++ rest)

/-- How many visits a node takes, with all that is at most `depth` levels below it. -/
def visits (d : Document) : (depth : Nat) → NodeId → Nat
  | 0, _ => 1
  | depth + 1, i => (d.children i).foldl (fun total c => total + visits d depth c) 1

/-- The nodes below a node, in document order. -/
def descendants (d : Document) (i : NodeId) : List NodeId :=
  d.visit (d.visits d.nodes.size i) (d.children i)

/-- A node and the nodes above it, upwards, at most `bound` steps. -/
def climb (d : Document) : (bound : Nat) → NodeId → List NodeId
  | 0, i => [i]
  | bound + 1, i =>
    match d.parent i with
    | none => [i]
    | some p => i :: climb d bound p

/-- A node and the nodes above it, upwards. -/
def ancestors (d : Document) (i : NodeId) : List NodeId := d.climb d.nodes.size i

/-- Whether a node is the root or below it. -/
def isConnected (d : Document) (i : NodeId) : Bool := (d.ancestors i).getLast? == some root

/-- A node's children and a template's content. -/
def below (d : Document) (i : NodeId) : List NodeId := d.children i ++ (d.content? i).toList

/-- A node's children, a template's content, and the parent. -/
def linked (d : Document) (i : NodeId) : List NodeId := d.below i ++ (d.parent i).toList

/-! ## Text -/

/-- The text below a node that is at most `depth` levels deep. Comments have none. -/
def textBelow (d : Document) : (depth : Nat) → NodeId → String
  | 0, _ => ""
  | depth + 1, i =>
    match d.kind i with
    | .text t => t
    | .comment _ => ""
    | _ => String.join ((d.children i).map (textBelow d depth))

/-- The text of all text nodes below a node, in document order. -/
def textContent (d : Document) (i : NodeId) : String := d.textBelow (d.nodes.size + 1) i

/-! ## Form values -/

/-- The elements that have a form value. -/
def hasFormValue (name : String) : Bool :=
  ["input", "textarea", "select", "option", "button", "output", "data"].contains name

/-- The value of an option: its `value` attribute, else its text without blanks around it. -/
def optionValue (d : Document) (i : NodeId) (e : ElementData) : String :=
  e.enteredValue.getD ((valueOf? "value" e.attributes).getD (trim (d.textContent i)))

/-- The option that a select shows: the first that is marked, else the first. -/
def chosenOption? (d : Document) (i : NodeId) : Option (NodeId × ElementData) :=
  let options := (d.descendants i).filterMap fun n =>
    (d.element? n).bind fun e => if e.name = "option" then some (n, e) else none
  (options.find? fun (_, e) => (valueOf? "selected" e.attributes).isSome) <|> options.head?

/-- The value of a form control: what the user entered, else what the markup gives. -/
def value? (d : Document) (i : NodeId) : Option String :=
  match d.element? i with
  | none => none
  | some e =>
    if !hasFormValue e.name then none
    else if e.enteredValue.isSome then e.enteredValue
    else some (match e.name with
      | "textarea" => d.textContent i
      | "option" => d.optionValue i e
      | "select" => ((d.chosenOption? i).map fun (n, e) => d.optionValue n e).getD ""
      | _ => (valueOf? "value" e.attributes).getD "")

/-- Enter a value into a form control; other nodes stay as they are. -/
def setValue (d : Document) (i : NodeId) (value : String) : Document :=
  d.modifyElement i fun e =>
    if hasFormValue e.name then { e with enteredValue := some value } else e

end Hypertemplate.Document
