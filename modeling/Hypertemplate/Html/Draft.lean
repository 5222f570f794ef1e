import Hypertemplate.Html.Token

/-!
# The tree under construction

While a page is read its tree is kept in a table of draft nodes. Draft elements belong to one of three
vocabularies, and their attributes may carry a family such as `xlink`. Names are in small letters in all
three vocabularies. Text put next to text joins it.
-/

namespace Hypertemplate.Html

/-- The vocabularies of markup. -/
inductive Vocabulary where
  | html
  | svg
  | math
  deriving DecidableEq, Repr, Inhabited

/-- An attribute of a draft element, with the family that its name was written with. -/
structure DraftAttribute where
  family : Option String := none
  name : String
  value : String
  deriving DecidableEq, Repr, Inhabited

inductive DraftKind where
  | page
  | doctype (name : String)
  | element (vocabulary : Vocabulary) (name : String) (attributes : List DraftAttribute)
  | text (text : String)
  | comment (text : String)
  deriving DecidableEq, Repr, Inhabited

structure DraftNode where
  kind : DraftKind := .page
  parent : Option Nat := none
  children : List Nat := []
  deriving Repr, Inhabited

abbrev Draft := Array DraftNode

namespace Draft

/-- A tree of the page node alone. -/
def start : Draft := #[{}]

def node (t : Draft) (i : Nat) : DraftNode := t.getD i {}

/-- The vocabulary and the name of an element. -/
def label? (t : Draft) (i : Nat) : Option (Vocabulary × String) :=
  match (t.node i).kind with
  | .element vocabulary name _ => some (vocabulary, name)
  | _ => none

def modifyNode (t : Draft) (i : Nat) (f : DraftNode → DraftNode) : Draft := t.modify i f

/-- A new node without parent. -/
def create (t : Draft) (kind : DraftKind) : Nat × Draft := (t.size, t.push { kind })

def detach (t : Draft) (i : Nat) : Draft :=
  match (t.node i).parent with
  | none => t
  | some p =>
    (t.modifyNode i fun n => { n with parent := none }).modifyNode p fun n =>
      { n with children := n.children.filter (· != i) }

def setParent (t : Draft) (i p : Nat) : Draft := t.modifyNode i fun n => { n with parent := some p }

/-- Make a node the last child of another one. -/
def append (t : Draft) (parent child : Nat) : Draft :=
  ((t.detach child).setParent child parent).modifyNode parent fun n =>
    { n with children := n.children ++ [child] }

/-- A list with an element put before another one. -/
def putBefore (sibling new : Nat) (cs : List Nat) : List Nat :=
  cs.flatMap fun c => if c = sibling then [new, c] else [c]

/-- Put a node before a sibling. A sibling without parent changes nothing. -/
def insertBefore (t : Draft) (sibling new : Nat) : Draft :=
  let t := t.detach new
  match (t.node sibling).parent with
  | none => t
  | some p =>
    (t.setParent new p).modifyNode p fun n => { n with children := putBefore sibling new n.children }

/-- Join characters to a text node; none if the node is no text. -/
def joinText? (t : Draft) (i : Nat) (text : String) : Option Draft :=
  match (t.node i).kind with
  | .text old => some (t.modifyNode i fun n => { n with kind := .text (old ++ text) })
  | _ => none

/-- Put text after the children of a node. -/
def appendText (t : Draft) (parent : Nat) (text : String) : Draft :=
  match (t.node parent).children.getLast?.bind (t.joinText? · text) with
  | some t => t
  | none =>
    let (i, t) := t.create (.text text)
    t.append parent i

/-- Put text before a sibling. -/
def insertTextBefore (t : Draft) (sibling : Nat) (text : String) : Draft :=
  match (t.node sibling).parent with
  | none => t
  | some p =>
    let before := ((t.node p).children.takeWhile (· != sibling)).getLast?
    match before.bind (t.joinText? · text) with
    | some t => t
    | none =>
      let (i, t) := t.create (.text text)
      t.insertBefore sibling i

/-- Move all children of a node to the end of another one. -/
def moveChildren (t : Draft) (source target : Nat) : Draft :=
  (t.node source).children.foldl (fun t c => t.append target c) t

/-- Give an element the attributes whose names it does not have. -/
def addMissingAttributes (t : Draft) (i : Nat) (attributes : List (String × String)) : Draft :=
  t.modifyNode i fun n => match n.kind with
    | .element vocabulary name old =>
      let missing := attributes.filter fun (k, _) => !old.any fun a => a.family.isNone && a.name == k
      let new : List DraftAttribute := missing.map fun (k, v) => { name := k, value := v }
      { n with kind := .element vocabulary name (old ++ new) }
    | _ => n

end Draft

end Hypertemplate.Html
