/-!
# Documents

A document is a table of nodes addressed by their place in it. Links run both ways: a node lists its
children and knows its parent. A `template` element also owns a content fragment, which is not among its
children and has no parent.

Places that were given back are kept in `free`, the last one first, and the next nodes take them in that
order. A place that was given back reads as an empty fragment without parent. Reading outside the table
gives such a node too, so that every operation is total.
-/

namespace Hypertemplate

/-- The place of a node in its document. -/
abbrev NodeId := Nat

/-- An element: its name, its attributes in order, the value a user entered, and the content fragment of a
template. -/
structure ElementData where
  name : String
  attributes : List (String × String) := []
  enteredValue : Option String := none
  content : Option NodeId := none
  deriving DecidableEq, Repr, Inhabited

/-- What a node is. -/
inductive Kind where
  | document
  | fragment
  | element (data : ElementData)
  | text (text : String)
  | comment (text : String)
  deriving DecidableEq, Repr, Inhabited

/-- A node with its links; a place that was given back is no longer live. -/
structure Node where
  kind : Kind
  parent : Option NodeId := none
  children : List NodeId := []
  live : Bool := true
  deriving DecidableEq, Repr

/-- What a place that was given back reads as. -/
def Node.vacant : Node := { kind := .fragment, live := false }

instance : Inhabited Node := ⟨Node.vacant⟩

/-- A document: the table of its nodes, the places that were given back, the nodes that are kept whatever is
cleared around them, and the name of its document type. -/
structure Document where
  nodes : Array Node := #[{ kind := .document }]
  free : List NodeId := []
  pinned : List NodeId := []
  doctype : Option String := none
  deriving Repr

namespace Document

/-- The document node. -/
def root : NodeId := 0

/-- A document without nodes below its root. -/
def empty : Document := {}

/-! ## Reading -/

/-- The node at a place; a vacant one outside of the table. -/
def node (d : Document) (i : NodeId) : Node := d.nodes.getD i .vacant

def kind (d : Document) (i : NodeId) : Kind := (d.node i).kind

def parent (d : Document) (i : NodeId) : Option NodeId := (d.node i).parent

def children (d : Document) (i : NodeId) : List NodeId := (d.node i).children

def isLive (d : Document) (i : NodeId) : Bool := (d.node i).live

def element? (d : Document) (i : NodeId) : Option ElementData :=
  match d.kind i with
  | .element data => some data
  | _ => none

def isElement (d : Document) (i : NodeId) : Bool := (d.element? i).isSome

def tagName? (d : Document) (i : NodeId) : Option String := (d.element? i).map (·.name)

def text? (d : Document) (i : NodeId) : Option String :=
  match d.kind i with
  | .text t => some t
  | _ => none

/-- The content fragment of a template element. -/
def content? (d : Document) (i : NodeId) : Option NodeId := (d.element? i).bind (·.content)

/-- The value of an attribute in a list of attributes. -/
def valueOf? (name : String) (attributes : List (String × String)) : Option String :=
  (attributes.find? (·.1 == name)).map (·.2)

def attribute? (d : Document) (i : NodeId) (name : String) : Option String :=
  (d.element? i).bind fun data => valueOf? name data.attributes

def hasAttribute (d : Document) (i : NodeId) (name : String) : Bool := (d.attribute? i name).isSome

def isPinned (d : Document) (i : NodeId) : Bool := d.pinned.contains i

/-- The nodes that are allocated. -/
def liveCount (d : Document) : Nat := d.nodes.countP (·.live)

/-- The places of the table that are not given back. -/
def liveNodes (d : Document) : Nat := d.nodes.size - d.free.length

/-! ## Writing -/

/-- Put a node at a place of the table. -/
def setNode (d : Document) (i : NodeId) (n : Node) : Document :=
  { d with nodes := d.nodes.setIfInBounds i n }

def modifyNode (d : Document) (i : NodeId) (f : Node → Node) : Document :=
  d.setNode i (f (d.node i))

def setParent (d : Document) (i : NodeId) (p : Option NodeId) : Document :=
  d.modifyNode i fun n => { n with parent := p }

def setChildren (d : Document) (i : NodeId) (cs : List NodeId) : Document :=
  d.modifyNode i fun n => { n with children := cs }

/-- Change the data of an element; other nodes stay as they are. -/
def modifyElement (d : Document) (i : NodeId) (f : ElementData → ElementData) : Document :=
  d.modifyNode i fun n => match n.kind with
    | .element data => { n with kind := .element (f data) }
    | _ => n

def setParents (d : Document) (is : List NodeId) (p : Option NodeId) : Document :=
  is.foldl (fun d i => d.setParent i p) d

/-- A new node without links: at the place given back last, else at the end of the table. -/
def allocate (d : Document) (k : Kind) : NodeId × Document :=
  match d.free with
  | i :: rest => (i, { d with free := rest }.setNode i { kind := k })
  | [] => (d.nodes.size, { d with nodes := d.nodes.push { kind := k } })

def createFragment (d : Document) : NodeId × Document := d.allocate .fragment

def createText (d : Document) (t : String) : NodeId × Document := d.allocate (.text t)

def createComment (d : Document) (t : String) : NodeId × Document := d.allocate (.comment t)

/-- A new element. Its name is in small letters, and a template gets its content fragment first. -/
def createElement (d : Document) (name : String) : NodeId × Document :=
  let name := name.map Char.toLower
  if name = "template" then
    let (content, d) := d.createFragment
    d.allocate (.element { name, content := some content })
  else d.allocate (.element { name })

def setDoctype (d : Document) (name : String) : Document := { d with doctype := some name }

def setText (d : Document) (i : NodeId) (t : String) : Document :=
  d.modifyNode i fun n => match n.kind with
    | .text _ => { n with kind := .text t }
    | _ => n

/-- Give an attribute a value, in its place if it is there and at the end if not. -/
def putAttribute (name value : String) : List (String × String) → List (String × String)
  | [] => [(name, value)]
  | (k, v) :: rest =>
    if k = name then (k, value) :: rest else (k, v) :: putAttribute name value rest

def setAttribute (d : Document) (i : NodeId) (name value : String) : Document :=
  d.modifyElement i fun e => { e with attributes := putAttribute name value e.attributes }

def removeAttribute (d : Document) (i : NodeId) (name : String) : Document :=
  d.modifyElement i fun e => { e with attributes := e.attributes.filter (·.1 != name) }

/-! ## Links -/

/-- Take a node out of its parent's children. -/
def detach (d : Document) (i : NodeId) : Document :=
  match d.parent i with
  | none => d
  | some p => (d.setParent i none).modifyNode p fun n => { n with children := n.children.filter (· != i) }

/-- Detach every child of a node. -/
def clearChildren (d : Document) (i : NodeId) : List NodeId × Document :=
  let cs := d.children i
  (cs, (d.setChildren i []).setParents cs none)

/-- The nodes that go in when `i` is inserted, taken from where they are: a fragment's children, or the
node itself. -/
def takeInsertables (d : Document) (i : NodeId) : List NodeId × Document :=
  match d.kind i with
  | .fragment => d.clearChildren i
  | _ => ([i], d.detach i)

/-- Make a node the last child of another one. -/
def adopt (d : Document) (parent child : NodeId) : Document :=
  (d.setParent child (some parent)).modifyNode parent fun n =>
    { n with children := n.children ++ [child] }

/-- Append a node to a parent; a fragment contributes its children. -/
def appendChild (d : Document) (parent child : NodeId) : Document :=
  let (is, d) := d.takeInsertables child
  is.foldl (fun d i => d.adopt parent i) d

/-- Put a node in another one's place. A node without parent stays where it is, and nothing is inserted if
taking the replacement removed the node. -/
def replaceWith (d : Document) (i replacement : NodeId) : Document :=
  match d.parent i with
  | none => d
  | some p =>
    let (is, d) := d.takeInsertables replacement
    let cs := d.children p
    if cs.contains i then
      let before := cs.takeWhile (· != i)
      let after := (cs.dropWhile (· != i)).drop 1
      ((d.setParents is (some p)).setChildren p (before ++ is ++ after)).setParent i none
    else d

/-- What a copy of a node is made of: its kind, with a copy of a template's content. -/
def copyKind (copy : Document → NodeId → NodeId × Document) (d : Document) : Kind → Kind × Document
  | .element e =>
    match e.content with
    | some c =>
      let (c', d) := copy d c
      (.element { e with content := some c' }, d)
    | none => (.element e, d)
  | k => (k, d)

/-- Copy a node with all below it, a template's content included; `depth` bounds the levels copied. -/
def copyDeep : (depth : Nat) → Document → NodeId → NodeId × Document
  | 0, d, i => d.allocate (d.kind i)
  | depth + 1, d, i =>
    let (k, d) := copyKind (copyDeep depth) d (d.kind i)
    let (copy, d) := d.allocate k
    let d := (d.children i).foldl (fun d c =>
      let (c', d) := copyDeep depth d c
      d.adopt copy c') d
    (copy, d)

/-- Copy a node into a new one without parent. The content of a template and the entered value are copied
along; the children only if `deep`. -/
def cloneNode (d : Document) (i : NodeId) (deep : Bool) : NodeId × Document :=
  let depth := d.nodes.size + 1
  if deep then copyDeep depth d i
  else
    let (k, d) := copyKind (copyDeep depth) d (d.kind i)
    d.allocate k

/-! ## Lifetime -/

/-- Keep a node and what is below it when it would be given back. -/
def pin (d : Document) (i : NodeId) : Document :=
  if d.isPinned i then d else { d with pinned := i :: d.pinned }

/-- Give the place of a node back. -/
def vacate (d : Document) (i : NodeId) : Document :=
  { d.setNode i .vacant with free := i :: d.free }

end Document

end Hypertemplate
