import Hypertemplate.Binding.Attribute
import Hypertemplate.Document.Release
import Hypertemplate.Document.Walk
import Hypertemplate.Template.Placeholder

/-!
# Rendering templates

A template's content is copied once for each item of the data. In a copy the placeholders of the text are
replaced, and an element that carries the marker attribute is repeated: if the marker names an array of
the item, a `div` takes the element's place and holds one copy of it for each entry, filled from that
entry. Data only ever becomes text.

What rendering takes out of the document is given back, so that rendering again and again does not make the
document grow.
-/

namespace Hypertemplate

open Hypertemplate.Json

mutual
/-- How deep arrays and objects are nested in a value. -/
def Json.Value.nesting : Value → Nat
  | .array items => itemsNesting items + 1
  | .object fields => fieldsNesting fields + 1
  | _ => 0

def Json.itemsNesting : List Value → Nat
  | [] => 0
  | v :: rest => max v.nesting (itemsNesting rest)

def Json.fieldsNesting : List (String × Value) → Nat
  | [] => 0
  | (_, v) :: rest => max v.nesting (fieldsNesting rest)
end

namespace Document

/-! ## Filling a copy -/

/-- What there is to do below a node: the text nodes to substitute, and the elements to repeat with the
entries to repeat them for. -/
structure FillPlan where
  texts : List NodeId := []
  repeats : List (NodeId × List Value) := []

def FillPlan.append (p q : FillPlan) : FillPlan := ⟨p.texts ++ q.texts, p.repeats ++ q.repeats⟩

/-- The plan for what is below a node, at most `depth` levels deep. Text directly inside the node is
substituted if `ownText`; text directly inside an element with the marker never is. -/
def planBelow (d : Document) (item : Value) (marker : String) :
    (depth : Nat) → (ownText : Bool) → NodeId → FillPlan
  | 0, _, _ => {}
  | depth + 1, ownText, i =>
    (d.children i).foldl (fun plan c => plan.append (
      if (d.text? c).isSome then { texts := if ownText then [c] else [] }
      else if d.isElement c then
        match d.attribute? c marker with
        | none => planBelow d item marker depth true c
        | some key =>
          match item.lookup key with
          | some (.array entries) => { repeats := [(c, entries)] }
          | _ => planBelow d item marker depth false c
      else {})) {}

/-- The plan for filling the subtree of a node, which itself is not repeated. -/
def fillPlan (d : Document) (item : Value) (marker : String) (i : NodeId) : FillPlan :=
  d.planBelow item marker (d.nodes.size + 1) true i

/-- Replace the placeholders of a text node; a text that has none is not set again. -/
def substituteText (d : Document) (item : Value) (i : NodeId) : Document :=
  match (d.text? i).bind fun t => Template.resolve? t item with
  | some (.owned new) => d.setText i new
  | _ => d

/-- Put a container with one filled copy for each entry in the place of an element. -/
def repeatElement (fill : Document → NodeId → Value → Document) (d : Document) (element : NodeId)
    (entries : List Value) : Document :=
  let (container, d) := d.createElement "div"
  let d := entries.foldl (fun d entry =>
    let (copy, d) := d.cloneNode element true
    (fill d copy entry).appendChild container copy) d
  (d.replaceWith element container).release element

/-- Fill the subtree of a node from an item in which arrays and objects are nested at most `levels`
deep. -/
def fillWithin (marker : String) : (levels : Nat) → Document → NodeId → Value → Document
  | levels, d, i, item =>
    let plan := d.fillPlan item marker i
    let d := plan.texts.foldl (fun d t => d.substituteText item t) d
    match levels with
    | 0 => d
    | levels + 1 =>
      plan.repeats.foldl (fun d (element, entries) =>
        d.repeatElement (fillWithin marker levels) element entries) d

/-- Fill the subtree of a node from an item. -/
def fill (d : Document) (marker : String) (i : NodeId) (item : Value) : Document :=
  fillWithin marker item.nesting d i item

/-! ## Rendering -/

/-- The items of data: the entries of an array, or the value itself. -/
def renderItems : Value → List Value
  | .array items => items
  | v => [v]

/-- A fragment with a filled copy of a template's content for each item, and the number of items; none if
the node is no template. -/
def renderFragment (d : Document) (marker : String) (template : NodeId) (data : Value) :
    Option ((NodeId × Nat) × Document) :=
  (d.content? template).map fun content =>
    let (fragment, d) := d.createFragment
    let items := renderItems data
    let d := items.foldl (fun d item =>
      let (copy, d) := d.cloneNode content true
      ((d.fill marker copy item).appendChild fragment copy).release copy) d
    ((fragment, items.length), d)

/-- Put a fragment into a target. A swap of a target without parent inserts nothing. What is taken out and
the fragment are given back. -/
def applyAction (d : Document) (action : Action) (target fragment : NodeId) : Document :=
  let d := match action with
    | .append => d.appendChild target fragment
    | .swap =>
      if (d.parent target).isSome then (d.replaceWith target fragment).release target else d
    | .update =>
      let (old, d) := d.clearChildren target
      (old.foldl release d).appendChild target fragment
  d.release fragment

/-- Render data through a template into a target; the number of items rendered comes first. -/
def render (d : Document) (marker : String) (template : NodeId) (data : Value) (target : NodeId)
    (action : Action) : Nat × Document :=
  match d.renderFragment marker template data with
  | some ((fragment, count), d) => (count, d.applyAction action target fragment)
  | none => (0, d)

end Document

end Hypertemplate
