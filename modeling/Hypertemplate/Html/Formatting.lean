import Hypertemplate.Html.Builder

/-!
# Formatting elements

`b`, `i`, `a` and their like may be closed in any order. What was open when a block was entered is opened
again inside it, and an end tag that crosses a block splits the formatting element in two.
-/

namespace Hypertemplate.Html.Builder

/-! ## Opening again -/

/-- Whether an entry is a bound or its element is open. -/
def isSettled (b : Builder) : Formatting → Bool
  | .bound => true
  | .element i _ => b.stack.contains i

/-- Open the element of an entry again. -/
def reopen (b : Builder) : Formatting → Builder
  | .bound => b
  | .element _ t =>
    let (i, b) := b.openElement t
    { b with formatting := .element i t :: b.formatting }

/-- Open again the formatting elements that are not open any more. -/
def reopenFormatting (b : Builder) : Builder :=
  let lost := b.formatting.takeWhile (!b.isSettled ·)
  let kept := b.formatting.drop lost.length
  lost.reverse.foldl reopen { b with formatting := kept }

/-- Tags with one name and the same attributes in any order. -/
def sameTag (s t : Tag) : Bool :=
  s.name == t.name && s.attributes.length == t.attributes.length &&
    s.attributes.all t.attributes.contains

/-- Forget the earliest of three entries since the last bound that have a given tag. -/
def limitFormatting (b : Builder) (t : Tag) : Builder :=
  let same := b.recentFormatting.filter fun (_, s) => sameTag t s
  match same.getLast? with
  | some (i, _) => if 3 ≤ same.length then b.removeFormatting i else b
  | none => b

/-- Open a formatting element. -/
def openFormatting (b : Builder) (t : Tag) : Builder :=
  let (i, b) := (b.limitFormatting t).openElement t
  { b with formatting := .element i t :: b.formatting }

/-! ## End tags without rules of their own -/

/-- Close the innermost open element of a name, unless a special element is inside it. -/
def closeAny (b : Builder) (name : String) : Builder :=
  go b.stack
where
  go : List Nat → Builder
    | [] => b
    | i :: rest =>
      if b.isIn (isNamed name) i then { b with stack := rest }
      else if b.isIn isSpecial i then b
      else go rest

/-! ## Splitting a formatting element -/

/-- Where the entry of the split element's inner part goes: in the place of the outer part's entry, or
right after the entry of another element. -/
inductive Bookmark where
  | inPlace
  | after (node : Nat)

/-- The state of the walk from a block outwards to the formatting element that is split: the elements that
stay open, the subtree built so far and the bookmark. -/
structure SplitWalk where
  builder : Builder
  stillOpen : List Nat
  last : Nat
  bookmark : Bookmark

/-- One element between the block and the formatting element. The first three that are formatting elements
are made anew around the subtree; the others are dropped. -/
def SplitWalk.step (block : Nat) (w : SplitWalk) (count node : Nat) : SplitWalk :=
  let entry? := w.builder.formatting.find? (isEntryOf node)
  match entry? with
  | some (.element _ t) =>
    if 3 < count then { w with builder := w.builder.removeFormatting node }
    else
      let (new, b) := w.builder.create (.element .html t.name (draftAttributes .html t.attributes))
      let formatting := b.formatting.map fun e => if isEntryOf node e then .element new t else e
      { builder := { b with formatting, draft := (b.draft.detach w.last).append new w.last }
        stillOpen := w.stillOpen ++ [new]
        last := new
        bookmark := if w.last = block then .after new else w.bookmark }
  | _ => w

/-- Put the entry of the new inner element at the bookmark. -/
def settleBookmark (b : Builder) (outer new : Nat) (t : Tag) : Bookmark → Builder
  | .inPlace =>
    { b with formatting := b.formatting.map fun e => if isEntryOf outer e then .element new t else e }
  | .after node =>
    let formatting := b.formatting.flatMap fun e =>
      if isEntryOf node e then [.element new t, e] else [e]
    { b with formatting := formatting.eraseP (isEntryOf outer) }

/-- Split an open formatting element `outer` around the block inside it. `inner` are the open elements
inside the block, `between` those between the block and `outer`, `outside` those around `outer`. -/
def splitAround (b : Builder) (outer : Nat) (t : Tag) (block : Nat) (inner between outside : List Nat) :
    Builder :=
  let start : SplitWalk := { builder := b, stillOpen := [], last := block, bookmark := .inPlace }
  let walk := (between.zipIdx 1).foldl (fun w (node, count) => SplitWalk.step block w count node) start
  let b := walk.builder
  let b := { b with
    draft := b.draft.detach walk.last, stack := inner ++ block :: walk.stillOpen ++ outer :: outside }
  let b := b.putAt (b.placeIn (outside.head?.getD 0)) walk.last
  let (new, b) := b.create (.element .html t.name (draftAttributes .html t.attributes))
  let b := { b with draft := (b.draft.moveChildren block new).append block new }
  let b := b.settleBookmark outer new t walk.bookmark
  { b with stack := inner ++ [new, block] ++ walk.stillOpen ++ outside }

/-- One round of the end of a formatting element, and whether another round follows. -/
def endFormattingRound (b : Builder) (name : String) : Builder × Bool :=
  match b.recentFormatting.find? fun (_, t) => t.name == name with
  | none => (b.closeAny name, false)
  | some (outer, t) =>
    if !b.stack.contains outer then (b.removeFormatting outer, false)
    else if !b.inScope boundsScope (· == outer) then (b, false)
    else
      let inside := b.stack.takeWhile (· != outer)
      let outside := (b.stack.drop inside.length).drop 1
      match inside.reverse.find? (b.isIn isSpecial) with
      | none => ({ b.removeFormatting outer with stack := outside }, false)
      | some block =>
        let inner := inside.takeWhile (· != block)
        let between := (inside.drop inner.length).drop 1
        (b.splitAround outer t block inner between outside, true)

/-- Repeat rounds of the end of a formatting element, at most `bound` of them. -/
def endFormattingRounds : (bound : Nat) → Builder → String → Builder
  | 0, b, _ => b
  | bound + 1, b, name =>
    match b.endFormattingRound name with
    | (b, true) => endFormattingRounds bound b name
    | (b, false) => b

/-- The end tag of a formatting element. -/
def endFormatting (b : Builder) (name : String) : Builder :=
  match b.current? with
  | none => b
  | some i =>
    if b.currentNamed name && (b.formattingPlace? i).isNone then b.pop
    else endFormattingRounds 8 b name

/-- A link inside a link ends the outer one. -/
def endNestedLink (b : Builder) : Builder :=
  match b.recentFormatting.find? fun (i, _) => b.isIn (isNamed "a") i with
  | none => b
  | some (i, _) => ((b.endFormatting "a").removeFormatting i).removeOpen i

end Hypertemplate.Html.Builder
