import Hypertemplate.Html.Vocabulary
import Hypertemplate.Text.Blank

/-!
# The state of the tree builder

The builder keeps the open elements, the innermost first, and the formatting elements that stray markup
may have cut short, the latest first. What it does next depends on its mode, which names the part of a page
it is in.
-/

namespace Hypertemplate.Html

open Hypertemplate.Text

/-- The part of a page that the builder is in. -/
inductive Mode where
  | initial
  | beforeHtml
  | beforeHead
  | inHead
  | afterHead
  | inBody
  | text
  | inTable
  | inTableText
  | inCaption
  | inColumnGroup
  | inTableBody
  | inRow
  | inCell
  | inSelect
  | inSelectInTable
  | inTemplate
  | afterBody
  | inFrameset
  | afterFrameset
  | afterAfterBody
  | afterAfterFrameset
  deriving DecidableEq, Repr, Inhabited

/-- An entry of the list of formatting elements: an element with the tag it came from, or a bound set by a
cell, a caption, a template or an embedded object. -/
inductive Formatting where
  | bound
  | element (node : Nat) (tag : Tag)
  deriving DecidableEq, Repr, Inhabited

/-- What the builder knows between two tokens. -/
structure Builder where
  draft : Draft := .start
  stack : List Nat := []
  formatting : List Formatting := []
  mode : Mode := .initial
  returnMode : Mode := .inBody
  templateModes : List Mode := []
  head : Option Nat := none
  form : Option Nat := none
  allowsFrames : Bool := true
  skipsLineFeed : Bool := false
  fosters : Bool := false
  tableText : List Char := []
  oldLayout : Bool := false
  reading : ReadMode := .data
  deriving Inhabited

namespace Builder

/-! ## Open elements -/

def label? (b : Builder) (i : Nat) : Option Label := b.draft.label? i

/-- Whether a node is an element whose label satisfies `p`. -/
def isIn (b : Builder) (p : Label → Bool) (i : Nat) : Bool := ((b.label? i).map p).getD false

/-- The innermost open element. -/
def current? (b : Builder) : Option Nat := b.stack.head?

def currentIs (b : Builder) (p : Label → Bool) : Bool := (b.current?.map (b.isIn p)).getD false

def currentNamed (b : Builder) (name : String) : Bool := b.currentIs (isNamed name)

/-- The outermost open element. -/
def outermost? (b : Builder) : Option Nat := b.stack.getLast?

/-- The body, if it is the second open element. -/
def body? (b : Builder) : Option Nat :=
  match b.stack.reverse with
  | _ :: i :: _ => if b.isIn (isNamed "body") i then some i else none
  | _ => none

def push (b : Builder) (i : Nat) : Builder := { b with stack := i :: b.stack }

def pop (b : Builder) : Builder := { b with stack := b.stack.drop 1 }

def hasOpen (b : Builder) (name : String) : Bool := b.stack.any (b.isIn (isNamed name))

/-- Whether a search from the innermost open element finds one that `wanted` accepts before it leaves one
that `bounds` accepts. -/
def findsInScope (b : Builder) (bounds : Label → Bool) (wanted : Nat → Bool) : List Nat → Bool
  | [] => false
  | i :: rest => wanted i || (!b.isIn bounds i && findsInScope b bounds wanted rest)

def inScope (b : Builder) (bounds : Label → Bool) (wanted : Nat → Bool) : Bool :=
  b.findsInScope bounds wanted b.stack

def namedInScope (b : Builder) (bounds : Label → Bool) (name : String) : Bool :=
  b.inScope bounds (b.isIn (isNamed name))

/-- Close open elements up to and with the first that `p` accepts. -/
def popThrough (b : Builder) (p : Label → Bool) : Builder :=
  { b with stack := (b.stack.dropWhile (!b.isIn p ·)).drop 1 }

def popThroughNamed (b : Builder) (name : String) : Builder := b.popThrough (isNamed name)

/-- Close open elements until the innermost is one that `p` accepts. -/
def popUntil (b : Builder) (p : Label → Bool) : Builder :=
  { b with stack := b.stack.dropWhile (!b.isIn p ·) }

/-- Close the innermost open elements that `p` accepts. -/
def closeImplied (b : Builder) (p : Label → Bool) : Builder :=
  { b with stack := b.stack.dropWhile (b.isIn p) }

/-- Close the innermost open elements that end by themselves, except those of one name. -/
def closeImpliedExcept (b : Builder) (name : String) : Builder :=
  b.closeImplied fun l => endsByItself l && !isNamed name l

/-- Close a paragraph and all inside it. -/
def closeParagraph (b : Builder) : Builder := (b.closeImpliedExcept "p").popThroughNamed "p"

/-- Close a paragraph if one is open up to the nearest button. -/
def closeParagraphInButton (b : Builder) : Builder :=
  if b.namedInScope boundsButton "p" then b.closeParagraph else b

/-- Take an element off the list of open elements. -/
def removeOpen (b : Builder) (i : Nat) : Builder := { b with stack := b.stack.erase i }

/-! ## Formatting elements -/

/-- The formatting elements since the last bound, the latest first. -/
def recentFormatting (b : Builder) : List (Nat × Tag) :=
  go b.formatting
where
  go : List Formatting → List (Nat × Tag)
    | .element i t :: rest => (i, t) :: go rest
    | _ => []

/-- Whether a formatting entry is one of a given element. -/
def isEntryOf (i : Nat) : Formatting → Bool
  | .element j _ => j == i
  | .bound => false

/-- The place of an element among the formatting entries. -/
def formattingPlace? (b : Builder) (i : Nat) : Option Nat := b.formatting.findIdx? (isEntryOf i)

def removeFormatting (b : Builder) (i : Nat) : Builder :=
  { b with formatting := b.formatting.eraseP (isEntryOf i) }

def pushBound (b : Builder) : Builder := { b with formatting := .bound :: b.formatting }

/-- Forget the formatting elements up to and with the last bound. -/
def clearFormatting (b : Builder) : Builder :=
  { b with formatting := (b.formatting.dropWhile (· != .bound)).drop 1 }

/-! ## Placing nodes -/

/-- Where a new node goes: at the end of a parent, or beside a table: before it if it has a parent, else at
the end of the element it was opened in. -/
inductive Place where
  | lastIn (parent : Nat)
  | besideTable (table outer : Nat)

/-- The place for stray content of a table: before the innermost open table. -/
def fosterPlace (b : Builder) : List Nat → Place
  | [] => .lastIn 0
  | i :: rest =>
    if b.isIn (isNamed "template") i then .lastIn i
    else if b.isIn (isNamed "table") i then .besideTable i (rest.head?.getD 0)
    else if rest.isEmpty then .lastIn i
    else fosterPlace b rest

/-- The place for a node that belongs into `target`. -/
def placeIn (b : Builder) (target : Nat) : Place :=
  if b.fosters && b.isIn holdsTableParts target then b.fosterPlace b.stack else .lastIn target

/-- The place for a node that belongs into the innermost open element. -/
def place (b : Builder) : Place := b.placeIn (b.current?.getD 0)

def putAt (b : Builder) (place : Place) (node : Nat) : Builder :=
  match place with
  | .lastIn parent => { b with draft := b.draft.append parent node }
  | .besideTable table outer =>
    if (b.draft.node table).parent.isSome then { b with draft := b.draft.insertBefore table node }
    else { b with draft := b.draft.append outer node }

def putText (b : Builder) (text : String) : Builder :=
  match b.place with
  | .lastIn parent => { b with draft := b.draft.appendText parent text }
  | .besideTable table outer =>
    if (b.draft.node table).parent.isSome then
      { b with draft := b.draft.insertTextBefore table text }
    else { b with draft := b.draft.appendText outer text }

def putChar (b : Builder) (c : Char) : Builder := b.putText (String.singleton c)

def create (b : Builder) (kind : DraftKind) : Nat × Builder :=
  let (i, draft) := b.draft.create kind
  (i, { b with draft })

/-- A comment as the last child of a node. -/
def putCommentIn (b : Builder) (parent : Nat) (text : String) : Builder :=
  let (i, b) := b.create (.comment text)
  { b with draft := b.draft.append parent i }

def putComment (b : Builder) (text : String) : Builder :=
  let (i, b) := b.create (.comment text)
  b.putAt b.place i

/-- A new element of a vocabulary at its place; it is not opened. -/
def putElement (b : Builder) (vocabulary : Vocabulary) (t : Tag) : Nat × Builder :=
  let (i, b) := b.create (.element vocabulary t.name (draftAttributes vocabulary t.attributes))
  (i, b.putAt b.place i)

/-- A new element at its place, opened. -/
def openElement (b : Builder) (t : Tag) : Nat × Builder :=
  let (i, b) := b.putElement .html t
  (i, b.push i)

def insert (b : Builder) (t : Tag) : Builder := (b.openElement t).2

/-- A new element that is closed at once. -/
def insertClosed (b : Builder) (t : Tag) : Builder := (b.putElement .html t).2

def insertNamed (b : Builder) (name : String) : Builder := b.insert { name }

def insertRoot (b : Builder) (attributes : List (String × String)) : Builder :=
  let (i, b) := b.create (.element .html "html" (draftAttributes .html attributes))
  { b.push i with draft := b.draft.append 0 i }

/-- Open an element whose content is text up to its end tag. -/
def insertTextElement (b : Builder) (t : Tag) (reading : ReadMode) : Builder :=
  { b.insert t with returnMode := b.mode, mode := .text, reading }

def insertRaw (b : Builder) (t : Tag) : Builder := b.insertTextElement t (.raw t.name)

def insertEscapableRaw (b : Builder) (t : Tag) : Builder :=
  b.insertTextElement t (.escapableRaw t.name)

/-! ## Modes -/

/-- The mode inside a select, by the elements around it. -/
def selectMode (b : Builder) : List Nat → Mode
  | [] => .inSelect
  | i :: rest =>
    if b.isIn (isNamed "template") i then .inSelect
    else if b.isIn (isNamed "table") i then .inSelectInTable
    else selectMode b rest

/-- The mode that the open elements from the innermost on put the builder in. -/
def modeOf (b : Builder) : List Nat → Mode
  | [] => .inBody
  | i :: rest =>
    let outermost := rest.isEmpty
    match b.label? i with
    | some (.html, name) =>
      if name = "select" then b.selectMode rest
      else if (name = "td" ∨ name = "th") ∧ !outermost then .inCell
      else if name = "tr" then .inRow
      else if name = "tbody" ∨ name = "thead" ∨ name = "tfoot" then .inTableBody
      else if name = "caption" then .inCaption
      else if name = "colgroup" then .inColumnGroup
      else if name = "table" then .inTable
      else if name = "template" then b.templateModes.head?.getD .inBody
      else if name = "head" ∧ !outermost then .inHead
      else if name = "body" then .inBody
      else if name = "frameset" then .inFrameset
      else if name = "html" then (if b.head.isSome then .afterHead else .beforeHead)
      else modeOf b rest
    | _ => modeOf b rest

/-- The mode that the open elements put the builder in. -/
def naturalMode (b : Builder) : Mode := b.modeOf b.stack

def resetMode (b : Builder) : Builder := { b with mode := b.naturalMode }

def setMode (b : Builder) (m : Mode) : Builder := { b with mode := m }

def forbidFrames (b : Builder) : Builder := { b with allowsFrames := false }

/-- Note a character that keeps a page from being a set of frames. -/
def noteChar (b : Builder) (c : Char) : Builder := if isAsciiBlank c then b else b.forbidFrames

end Builder

/-- What a rule leaves: the builder, and whether the token is to be handled again in the new mode. -/
structure Outcome where
  builder : Builder
  again : Bool := false

namespace Builder

/-- The token is dealt with. -/
def done (b : Builder) : Outcome := { builder := b }

/-- The token is handled again in another mode. -/
def again (b : Builder) (m : Mode) : Outcome := { builder := b.setMode m, again := true }

/-- The token is handled again in the mode that the open elements ask for. -/
def againNatural (b : Builder) : Outcome := b.again b.naturalMode

end Builder

end Hypertemplate.Html
