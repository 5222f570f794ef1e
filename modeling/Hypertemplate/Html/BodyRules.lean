import Hypertemplate.Html.HeadRules
import Hypertemplate.Document.Basic

/-!
# Rules in the body of a page

Each start tag first closes what cannot hold it: a block closes an open paragraph, an item the item before
it, a heading a heading. Most end tags close the innermost open element of their name and all inside it.
-/

namespace Hypertemplate.Html.Builder

open Hypertemplate.Text

/-! ## Start tags -/

/-- Blocks: they close an open paragraph. -/
def isBlock (name : String) : Bool :=
  ["address", "article", "aside", "blockquote", "center", "details", "dialog", "dir", "div", "dl",
    "fieldset", "figcaption", "figure", "footer", "header", "hgroup", "main", "nav", "ol", "p",
    "search", "section", "summary", "ul", "menu"].contains name

/-- Elements whose end tag closes the innermost of their name. -/
def closesByName (name : String) : Bool :=
  (isBlock name && name != "p") || ["button", "listing", "pre"].contains name

def isFormattingName (name : String) : Bool :=
  ["b", "big", "code", "em", "font", "i", "s", "small", "strike", "strong", "tt", "u"].contains name

def isHeadingName (name : String) : Bool := ["h1", "h2", "h3", "h4", "h5", "h6"].contains name

/-- Embedded objects: they bound the formatting inside them. -/
def isObjectName (name : String) : Bool := ["applet", "marquee", "object"].contains name

/-- Whether an input is hidden. -/
def isHidden (t : Tag) : Bool :=
  ((Document.valueOf? "type" t.attributes).map (eqIgnoringCase · "hidden")).getD false

/-- The open item that a new item of a list closes. -/
def openItem? (b : Builder) (names : List String) : List Nat → Option String
  | [] => none
  | i :: rest =>
    match b.label? i with
    | some l =>
      if oneOf names l then some l.2
      else if isSpecial l && !oneOf ["address", "div", "p"] l then none
      else openItem? b names rest
    | none => openItem? b names rest

/-- Close an element of a name and all inside it, after what ends by itself. -/
def closeNamed (b : Builder) (name : String) : Builder :=
  (b.closeImpliedExcept name).popThroughNamed name

def startItem (b : Builder) (t : Tag) : Builder :=
  let names := if t.name = "li" then ["li"] else ["dd", "dt"]
  let b := b.forbidFrames
  let b := match b.openItem? names b.stack with
    | some name => b.closeNamed name
    | none => b
  b.closeParagraphInButton.insert t

def startHeading (b : Builder) (t : Tag) : Builder :=
  let b := b.closeParagraphInButton
  (if b.currentIs isHeading then b.pop else b).insert t

def startForm (b : Builder) (t : Tag) : Builder :=
  let inTemplate := b.hasOpen "template"
  if b.form.isSome && !inTemplate then b
  else
    let (i, b) := b.closeParagraphInButton.openElement t
    if inTemplate then b else { b with form := some i }

def startButton (b : Builder) (t : Tag) : Builder :=
  let b := if b.namedInScope boundsScope "button" then
      (b.closeImplied endsByItself).popThroughNamed "button"
    else b
  (b.reopenFormatting.insert t).forbidFrames

def startNobr (b : Builder) (t : Tag) : Builder :=
  let b := b.reopenFormatting
  let b := if b.namedInScope boundsScope "nobr" then (b.endFormatting "nobr").reopenFormatting else b
  b.openFormatting t

def startTable (b : Builder) (t : Tag) : Builder :=
  let b := if b.oldLayout then b else b.closeParagraphInButton
  ((b.insert t).forbidFrames).setMode .inTable

/-- An element without content inside a line. -/
def startVoid (b : Builder) (t : Tag) : Builder :=
  let b' := b.reopenFormatting.insertClosed t
  if t.name = "input" ∧ isHidden t then b' else b'.forbidFrames

def startSelect (b : Builder) (t : Tag) : Builder :=
  let inTable := [Mode.inTable, .inCaption, .inTableBody, .inRow, .inCell].contains b.mode
  (b.reopenFormatting.insert t).forbidFrames.setMode (if inTable then .inSelectInTable else .inSelect)

/-- A frameset in place of the body, if nothing in the body counts as content. -/
def startFrameset (b : Builder) (t : Tag) : Builder :=
  if !b.allowsFrames then b
  else match b.body? with
    | none => b
    | some body =>
      let b := { b with draft := b.draft.detach body, stack := b.outermost?.toList }
      (b.insert t).setMode .inFrameset

/-- A second start tag of the body adds its attributes, except inside a template. -/
def mergeBody (b : Builder) (t : Tag) : Builder :=
  match b.body? with
  | some body =>
    if b.hasOpen "template" then b
    else { b.forbidFrames with draft := b.draft.addMissingAttributes body t.attributes }
  | none => b

/-- A drawing or a formula. -/
def startForeign (b : Builder) (vocabulary : Vocabulary) (t : Tag) : Builder :=
  let (i, b) := b.putElement vocabulary t
  if t.selfClosing then b else b.push i

/-- Annotations of ruby text. -/
def startRuby (b : Builder) (t : Tag) : Builder :=
  let b :=
    if !b.namedInScope boundsScope "ruby" then b
    else if ["rb", "rtc"].contains t.name then b.closeImplied endsByItself
    else b.closeImpliedExcept "rtc"
  b.insert t

def bodyStartTag (b : Builder) (t : Tag) : Builder :=
  let name := t.name
  if name = "html" then b.mergeRoot t
  else if isHeadTag name || name == "noscript" then b.headStartTag t
  else if name = "body" then b.mergeBody t
  else if name = "frameset" then b.startFrameset t
  else if isBlock name then b.closeParagraphInButton.insert t
  else if isHeadingName name then b.startHeading t
  else if name = "pre" ∨ name = "listing" then
    { (b.closeParagraphInButton.insert t).forbidFrames with skipsLineFeed := true }
  else if name = "form" then b.startForm t
  else if ["li", "dd", "dt"].contains name then b.startItem t
  else if name = "plaintext" then { b.closeParagraphInButton.insert t with reading := .plaintext }
  else if name = "button" then b.startButton t
  else if name = "a" then b.endNestedLink.reopenFormatting.openFormatting t
  else if isFormattingName name then b.reopenFormatting.openFormatting t
  else if name = "nobr" then b.startNobr t
  else if isObjectName name then (b.reopenFormatting.insert t).pushBound.forbidFrames
  else if name = "table" then b.startTable t
  else if name = "image" then b.startVoid { t with name := "img" }
  else if ["area", "br", "embed", "img", "keygen", "wbr", "input"].contains name then b.startVoid t
  else if ["param", "source", "track"].contains name then b.insertClosed t
  else if name = "hr" then (b.closeParagraphInButton.insertClosed t).forbidFrames
  else if name = "textarea" then
    { b with skipsLineFeed := true }.forbidFrames.insertEscapableRaw t
  else if name = "xmp" then b.closeParagraphInButton.reopenFormatting.forbidFrames.insertRaw t
  else if name = "iframe" then b.forbidFrames.insertRaw t
  else if name = "noembed" then b.insertRaw t
  else if name = "select" then b.startSelect t
  else if name = "optgroup" ∨ name = "option" then
    (if b.currentNamed "option" then b.pop else b).reopenFormatting.insert t
  else if ["rb", "rtc", "rp", "rt"].contains name then b.startRuby t
  else if name = "math" then b.startForeign .math t
  else if name = "svg" then b.startForeign .svg t
  else if isTablePart name || name == "frame" || name == "head" then b
  else b.reopenFormatting.insert t

/-! ## End tags -/

/-- Close the innermost open element of a name that is in scope; `after` follows. -/
def endNamed (b : Builder) (name : String) (after : Builder → Builder) : Builder :=
  if b.namedInScope boundsScope name then
    after ((b.closeImplied endsByItself).popThroughNamed name)
  else b

/-- The end tag of a form closes the form that is being filled in, wherever it is open. -/
def endForm (b : Builder) : Builder :=
  if b.hasOpen "template" then b.endNamed "form" id
  else match b.form with
    | none => b
    | some form =>
      let b := { b with form := none }
      if b.inScope boundsScope (· == form) then (b.closeImplied endsByItself).removeOpen form else b

def endParagraph (b : Builder) : Builder :=
  (if b.namedInScope boundsButton "p" then b else b.insertNamed "p").closeParagraph

def endItem (b : Builder) (name : String) : Builder :=
  let bounds := if name = "li" then boundsListItem else boundsScope
  if b.namedInScope bounds name then b.closeNamed name else b

def endHeading (b : Builder) : Builder :=
  if b.inScope boundsScope (b.isIn isHeading) then
    (b.closeImplied endsByItself).popThrough isHeading
  else b

def bodyEndTag (b : Builder) (name : String) : Outcome :=
  if name = "template" then b.endTemplate.done
  else if name = "body" then
    (if b.namedInScope boundsScope "body" then b.setMode .afterBody else b).done
  else if name = "html" then
    if b.namedInScope boundsScope "body" then b.again .afterBody else b.done
  else if closesByName name then (b.endNamed name id).done
  else if name = "form" then b.endForm.done
  else if name = "p" then b.endParagraph.done
  else if ["li", "dd", "dt"].contains name then (b.endItem name).done
  else if isHeadingName name then b.endHeading.done
  else if name = "a" ∨ name = "nobr" ∨ isFormattingName name then (b.endFormatting name).done
  else if isObjectName name then (b.endNamed name clearFormatting).done
  else if name = "br" then (b.startVoid { name := "br" }).done
  else (b.closeAny name).done

def inBody (b : Builder) (t : Token) : Outcome :=
  match t with
  | .char c => ((b.reopenFormatting.noteChar c).putChar c).done
  | .comment text => (b.putComment text).done
  | .startTag tag => (b.bodyStartTag tag).done
  | .endTag name => b.bodyEndTag name
  | .endOfFile => b.endPage
  | .nullChar | .doctype _ => b.done

/-- Text of an element that holds text only. -/
def inText (b : Builder) (t : Token) : Outcome :=
  match t with
  | .char c => (b.putChar c).done
  | .endOfFile => b.pop.again b.returnMode
  | .endTag _ => (b.pop.setMode b.returnMode).done
  | _ => b.done

end Hypertemplate.Html.Builder
