import Hypertemplate.Selector.Parse
import Hypertemplate.Document.Walk

/-!
# Matching selectors

Whether an element of a document matches a selector, by recursion on the selector. Siblings and parents
are elements; text and comments are skipped. A query finds elements among the descendants of a node, in
document order.
-/

namespace Hypertemplate.Document

/-! ## Elements around an element -/

/-- The children of a node's parent, and the node's place among them. -/
def siblings (d : Document) (i : NodeId) : List NodeId × Nat :=
  match d.parent i with
  | some p => (d.children p, ((d.children p).idxOf? i).getD 0)
  | none => ([], 0)

/-- The siblings in front of a node, the nearest first. -/
def siblingsBefore (d : Document) (i : NodeId) : List NodeId :=
  let (cs, place) := d.siblings i
  (cs.take place).reverse

/-- The siblings behind a node, the nearest first. -/
def siblingsAfter (d : Document) (i : NodeId) : List NodeId :=
  let (cs, place) := d.siblings i
  cs.drop (place + 1)

def previousElement? (d : Document) (i : NodeId) : Option NodeId := (d.siblingsBefore i).find? d.isElement

def nextElement? (d : Document) (i : NodeId) : Option NodeId := (d.siblingsAfter i).find? d.isElement

def firstElementChild? (d : Document) (i : NodeId) : Option NodeId := (d.children i).find? d.isElement

def parentElement? (d : Document) (i : NodeId) : Option NodeId := (d.parent i).filter d.isElement

/-- The elements above a node, the nearest first, up to the first node that is no element. -/
def ancestorElements (d : Document) (i : NodeId) : List NodeId :=
  ((d.ancestors i).drop 1).takeWhile d.isElement

/-- Whether a node is a child of the document node. -/
def isTop (d : Document) (i : NodeId) : Bool :=
  ((d.parent i).map fun p => d.kind p == .document).getD false

/-- Whether a node has neither element children nor text that is not empty. -/
def isBare (d : Document) (i : NodeId) : Bool :=
  (d.children i).all fun c => match d.kind c with
    | .element _ => false
    | .text t => t.isEmpty
    | _ => true

end Hypertemplate.Document

namespace Hypertemplate.Selector

open Hypertemplate.Text Hypertemplate.Document

/-! ## Conditions on an element -/

/-- Whether a text has another one at its start. -/
def startsWith (s start : List Char) : Bool := start.isPrefixOf s

/-- Whether a text has another one in it. -/
def holds (s part : List Char) : Bool :=
  match s with
  | [] => part.isEmpty
  | c :: rest => startsWith (c :: rest) part || holds rest part

/-- The comparison of an attribute's value. Nothing starts with, ends with or holds the empty text here. -/
def compare (k : Comparison) (actual wanted : List Char) : Bool :=
  match k with
  | .equal => actual == wanted
  | .word => !wanted.isEmpty && (splitBy isAsciiBlank actual).contains wanted
  | .dash => actual == wanted || startsWith actual (wanted ++ ['-'])
  | .start => !wanted.isEmpty && startsWith actual wanted
  | .ending => !wanted.isEmpty && startsWith actual.reverse wanted.reverse
  | .part => !wanted.isEmpty && holds actual wanted

def ValueTest.accepts (t : ValueTest) (actual : String) : Bool :=
  let fold (s : String) : List Char := if t.ignoreCase then s.toList.map Char.toLower else s.toList
  compare t.comparison (fold actual) (fold t.value)

/-- Whether a position counts an element that is the `index`-th from one. -/
def Position.counts (p : Position) (index : Nat) : Bool :=
  let distance : Int := (index : Int) - p.offset
  if p.step = 0 then distance = 0
  else distance % p.step = 0 && 0 ≤ distance.tdiv p.step

/-- The place of an element among the element children of its parent, from one, counted from the front or
the back. -/
def indexOf (d : Document) (i : NodeId) (fromEnd sameName : Bool) : Nat :=
  let before := if fromEnd then d.siblingsAfter i else d.siblingsBefore i
  let counted (s : NodeId) : Bool := d.isElement s && (!sameName || d.tagName? s == d.tagName? i)
  (before.filter counted).length + 1

def hasClass (d : Document) (i : NodeId) (name : String) : Bool :=
  ((d.attribute? i "class").map fun v => (words v).contains name).getD false

def attributeMatches (d : Document) (i : NodeId) (name : String) (test : Option ValueTest) : Bool :=
  match d.element? i with
  | none => false
  | some e => e.attributes.any fun (k, v) => k == name && test.all (·.accepts v)

/-- The elements that the left side of a combinator may stand for. -/
def related (d : Document) (k : Combinator) (i : NodeId) : List NodeId :=
  match k with
  | .descendant => d.ancestorElements i
  | .child => (d.parentElement? i).toList
  | .nextSibling => (d.previousElement? i).toList
  | .laterSibling => (d.siblingsBefore i).filter d.isElement

/-- The elements that a relative selector may find from an element: those below it, and its later siblings
with those below them. -/
def reach (d : Document) (i : NodeId) : List NodeId :=
  (d.descendants i ++ (d.siblingsAfter i).flatMap fun s => s :: d.descendants s).filter d.isElement

mutual
/-- Whether an element meets a condition. -/
def Simple.accepts (d : Document) : Simple → NodeId → Bool
  | .any, _ => true
  | .never, _ => false
  | .tag name, i => d.tagName? i == some name
  | .id id, i => d.attribute? i "id" == some id
  | .class name, i => hasClass d i name
  | .attribute name test, i => attributeMatches d i name test
  | .root, i => d.isTop i
  | .empty, i => d.isBare i
  | .position p, i => p.counts (indexOf d i p.fromEnd p.sameName)
  | .only sameName, i => indexOf d i false sameName == 1 && indexOf d i true sameName == 1
  | .oneOf cs, i => anyAccepts d 0 cs i
  | .noneOf cs, i => !anyAccepts d 0 cs i
  | .has cs, i => (reach d i).any fun e => anyAccepts d i cs e

def allAccept (d : Document) : List Simple → NodeId → Bool
  | [], _ => true
  | s :: rest, i => s.accepts d i && allAccept d rest i

/-- Whether an element matches a complex selector; a relative one starts from `start`. -/
def ComplexSelector.accepts (d : Document) (start : NodeId) : ComplexSelector → NodeId → Bool
  | .compound cs, i => allAccept d cs i
  | .link left k cs, i => allAccept d cs i && (related d k i).any fun e => left.accepts d start e
  | .anchor, i => i == start
  | .forgiven, _ => false

/-- Whether an element matches one of several selectors. -/
def anyAccepts (d : Document) (start : NodeId) : List ComplexSelector → NodeId → Bool
  | [], _ => false
  | c :: rest, i => c.accepts d start i || anyAccepts d start rest i
end

end Hypertemplate.Selector

namespace Hypertemplate.Query

open Hypertemplate.Selector

/-- Whether a node is an element that the query finds. -/
def finds (q : Query) (d : Document) (i : NodeId) : Bool :=
  d.isElement i && anyAccepts d 0 q.alternatives i

/-- The descendants of a node that the query finds, in document order. -/
def allBelow (q : Query) (d : Document) (scope : NodeId) : List NodeId :=
  (d.descendants scope).filter (q.finds d)

/-- The first descendant of a node that the query finds. -/
def firstBelow? (q : Query) (d : Document) (scope : NodeId) : Option NodeId :=
  (d.descendants scope).find? (q.finds d)

end Hypertemplate.Query
