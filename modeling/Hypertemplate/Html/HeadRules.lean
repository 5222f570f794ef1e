import Hypertemplate.Html.Formatting

/-!
# Rules before and in the head of a page

A page has a root, a head and a body whatever its markup says: a token that cannot stand where the builder
is makes the missing element and is handled again behind it.
-/

namespace Hypertemplate.Html.Builder

open Hypertemplate.Text

/-- Whether a token is a blank character. -/
def isBlankToken : Token → Bool
  | .char c => isAsciiBlank c
  | _ => false

/-- Whether an end tag makes the element that it ends if that is missing. -/
def endTagMakes (name : String) : Bool := ["head", "body", "html", "br"].contains name

/-- A second start tag of the root adds its attributes, except inside a template. -/
def mergeRoot (b : Builder) (t : Tag) : Builder :=
  match b.outermost? with
  | some root =>
    if b.hasOpen "template" then b
    else { b with draft := b.draft.addMissingAttributes root t.attributes }
  | none => b

/-! ## Templates -/

def startTemplate (b : Builder) (t : Tag) : Builder :=
  let b := (b.insert t).pushBound.forbidFrames
  { b with mode := .inTemplate, templateModes := .inTemplate :: b.templateModes }

/-- Leave the innermost template mode. -/
def leaveTemplate (b : Builder) : Builder :=
  { b.clearFormatting with templateModes := b.templateModes.drop 1 }.resetMode

def endTemplate (b : Builder) : Builder :=
  if b.hasOpen "template" then
    ((b.closeImplied endsWithTemplate).popThroughNamed "template").leaveTemplate
  else b

/-- The end of the page closes open templates. -/
def endPage (b : Builder) : Outcome :=
  if b.templateModes.isEmpty || !b.hasOpen "template" then b.done
  else
    let b := (b.popThroughNamed "template").leaveTemplate
    b.again b.mode

/-! ## Modes -/

def initial (b : Builder) (t : Token) : Outcome :=
  match t with
  | .comment text => (b.putCommentIn 0 text).done
  | _ => if isBlankToken t then b.done else { b with oldLayout := true }.again .beforeHtml

def beforeHtml (b : Builder) (t : Token) : Outcome :=
  match t with
  | .comment text => (b.putCommentIn 0 text).done
  | .startTag tag =>
    if tag.name = "html" then ((b.insertRoot tag.attributes).setMode .beforeHead).done
    else (b.insertRoot []).again .beforeHead
  | .endTag name =>
    if endTagMakes name then (b.insertRoot []).again .beforeHead else b.done
  | _ => if isBlankToken t then b.done else (b.insertRoot []).again .beforeHead

/-- Open the head. -/
def insertHead (b : Builder) (t : Tag) : Builder :=
  let (i, b) := b.openElement t
  { b with head := some i }

def beforeHead (b : Builder) (t : Token) : Outcome :=
  let makeHead := (b.insertHead { name := "head" }).again .inHead
  match t with
  | .comment text => (b.putComment text).done
  | .startTag tag =>
    if tag.name = "html" then (b.mergeRoot tag).done
    else if tag.name = "head" then ((b.insertHead tag).setMode .inHead).done
    else makeHead
  | .endTag name => if endTagMakes name then makeHead else b.done
  | _ => if isBlankToken t then b.done else makeHead

/-- The start tags of the head; none for others. -/
def headStartTag? (b : Builder) (t : Tag) : Option Builder :=
  if ["base", "basefont", "bgsound", "link", "meta"].contains t.name then some (b.insertClosed t)
  else if t.name = "title" then some (b.insertEscapableRaw t)
  else if ["noframes", "style", "noscript"].contains t.name then some (b.insertRaw t)
  else if t.name = "script" then some (b.insertTextElement t (.script .plain))
  else if t.name = "template" then some (b.startTemplate t)
  else none

/-- The start tag of an element of the head, wherever it stands. -/
def headStartTag (b : Builder) (t : Tag) : Builder := (b.headStartTag? t).getD b

def inHead (b : Builder) (t : Token) : Outcome :=
  match t with
  | .comment text => (b.putComment text).done
  | .startTag tag =>
    if tag.name = "html" then (b.mergeRoot tag).done
    else if tag.name = "head" then b.done
    else match b.headStartTag? tag with
      | some b => b.done
      | none => b.pop.again .afterHead
  | .endTag name =>
    if name = "head" then (b.pop.setMode .afterHead).done
    else if name = "template" then b.endTemplate.done
    else if endTagMakes name then b.pop.again .afterHead
    else b.done
  | .char c => if isAsciiBlank c then (b.putChar c).done else b.pop.again .afterHead
  | _ => b.pop.again .afterHead

/-- An element of the head behind the head: the head is open while the element is placed. -/
def reenterHead (b : Builder) (t : Tag) : Builder :=
  match b.head with
  | some head => ((b.push head).headStartTag t).removeOpen head
  | none => b.headStartTag t

def afterHead (b : Builder) (t : Token) : Outcome :=
  let makeBody := (b.insertNamed "body").again .inBody
  match t with
  | .comment text => (b.putComment text).done
  | .startTag tag =>
    if tag.name = "html" then (b.mergeRoot tag).done
    else if tag.name = "body" then ((b.insert tag).forbidFrames.setMode .inBody).done
    else if tag.name = "frameset" then ((b.insert tag).setMode .inFrameset).done
    else if isHeadTag tag.name then (b.reenterHead tag).done
    else if tag.name = "head" then b.done
    else makeBody
  | .endTag name =>
    if name = "template" then b.endTemplate.done
    else if ["body", "html", "br"].contains name then makeBody
    else b.done
  | .char c => if isAsciiBlank c then (b.putChar c).done else makeBody
  | _ => makeBody

end Hypertemplate.Html.Builder
