import Hypertemplate.Html.TableRules

/-!
# Rules of templates, framesets, the end of a page and foreign content

Inside a template the first tag decides what the template holds. Behind the body only comments and blanks
are in their place; anything else opens the body again. In a drawing or a formula elements belong to its
vocabulary until a tag of the page breaks out.
-/

namespace Hypertemplate.Html.Builder

open Hypertemplate.Text

/-! ## Templates -/

/-- The mode in which the first start tag of a template's content is handled. -/
def templateModeFor (name : String) : Mode :=
  if ["caption", "colgroup", "tbody", "tfoot", "thead"].contains name then .inTable
  else if name = "col" then .inColumnGroup
  else if name = "tr" then .inTableBody
  else if name = "td" ∨ name = "th" then .inRow
  else .inBody

def inTemplate (b : Builder) (t : Token) : Outcome :=
  match t with
  | .char _ | .comment _ => b.inBody t
  | .startTag tag =>
    if isHeadTag tag.name then (b.headStartTag tag).done
    else
      let mode := templateModeFor tag.name
      { b with templateModes := mode :: b.templateModes.drop 1 }.again mode
  | .endTag name => if name = "template" then b.endTemplate.done else b.done
  | .endOfFile => b.endPage
  | .nullChar | .doctype _ => b.done

/-! ## Behind the body -/

def afterBody (b : Builder) (t : Token) : Outcome :=
  match t with
  | .comment text => (b.putCommentIn (b.outermost?.getD 0) text).done
  | .endOfFile => b.done
  | .startTag tag => if tag.name = "html" then (b.mergeRoot tag).done else b.again .inBody
  | .endTag name => if name = "html" then (b.setMode .afterAfterBody).done else b.again .inBody
  | _ => if isBlankToken t then b.inBody t else b.again .inBody

def afterAfterBody (b : Builder) (t : Token) : Outcome :=
  match t with
  | .comment text => (b.putCommentIn 0 text).done
  | .endOfFile => b.done
  | .startTag tag => if tag.name = "html" then (b.mergeRoot tag).done else b.again .inBody
  | _ => if isBlankToken t then b.inBody t else b.again .inBody

/-! ## Framesets -/

def inFrameset (b : Builder) (t : Token) : Outcome :=
  match t with
  | .char c => (if isAsciiBlank c then b.putChar c else b).done
  | .comment text => (b.putComment text).done
  | .startTag tag =>
    let name := tag.name
    if name = "html" then (b.mergeRoot tag).done
    else if name = "frameset" then (b.insert tag).done
    else if name = "frame" then (b.insertClosed tag).done
    else if name = "noframes" then (b.headStartTag tag).done
    else b.done
  | .endTag name =>
    if name = "frameset" && b.stack.length != 1 then
      let b := b.pop
      (if b.currentNamed "frameset" then b else b.setMode .afterFrameset).done
    else b.done
  | _ => b.done

def afterFrameset (b : Builder) (t : Token) : Outcome :=
  match t with
  | .char c => (if isAsciiBlank c then b.putChar c else b).done
  | .comment text => (b.putComment text).done
  | .startTag tag =>
    if tag.name = "html" then (b.mergeRoot tag).done
    else if tag.name = "noframes" then (b.headStartTag tag).done
    else b.done
  | .endTag name => (if name = "html" then b.setMode .afterAfterFrameset else b).done
  | _ => b.done

def afterAfterFrameset (b : Builder) (t : Token) : Outcome :=
  match t with
  | .char c => if isAsciiBlank c then b.inBody t else b.done
  | .comment text => (b.putCommentIn 0 text).done
  | .startTag tag =>
    if tag.name = "html" then (b.mergeRoot tag).done
    else if tag.name = "noframes" then (b.headStartTag tag).done
    else b.done
  | _ => b.done

/-! ## All modes -/

/-- The rules of the builder's mode. -/
def step (b : Builder) (t : Token) : Outcome :=
  match b.mode with
  | .initial => b.initial t
  | .beforeHtml => b.beforeHtml t
  | .beforeHead => b.beforeHead t
  | .inHead => b.inHead t
  | .afterHead => b.afterHead t
  | .inBody => b.inBody t
  | .text => b.inText t
  | .inTable => b.inTable t
  | .inTableText => b.inTableText t
  | .inCaption => b.inCaption t
  | .inColumnGroup => b.inColumnGroup t
  | .inTableBody => b.inTableBody t
  | .inRow => b.inRow t
  | .inCell => b.inCell t
  | .inSelect => b.inSelect t
  | .inSelectInTable => b.inSelectInTable t
  | .inTemplate => b.inTemplate t
  | .afterBody => b.afterBody t
  | .inFrameset => b.inFrameset t
  | .afterFrameset => b.afterFrameset t
  | .afterAfterBody => b.afterAfterBody t
  | .afterAfterFrameset => b.afterAfterFrameset t

/-! ## Drawings and formulas -/

/-- Whether the innermost open element is part of a drawing or a formula. -/
def isForeign (b : Builder) : Bool := b.currentIs (·.1 != .html)

/-- Whether a token is handled by the rules of drawings and formulas. -/
def takesForeignRules (b : Builder) (t : Token) : Bool :=
  match b.current?.bind b.label? with
  | none => false
  | some l =>
    if l.1 = .html then false
    else match t with
      | .endOfFile => false
      | .char _ | .nullChar => !isFormulaText l && !isDrawingContent l
      | .startTag tag =>
        let leavesFormula := isFormulaText l && !(["mglyph", "malignmark"].contains tag.name)
        let startsDrawing := l == (.math, "annotation-xml") && tag.name == "svg"
        !leavesFormula && !isDrawingContent l && !startsDrawing
      | _ => true

/-- Close drawings and formulas up to the next element that holds page content. -/
def leaveForeign (b : Builder) : Builder :=
  b.popUntil fun l => l.1 == .html || isFormulaText l || isDrawingContent l

/-- An element of the vocabulary that the innermost open element belongs to. -/
def foreignStartTag (b : Builder) (t : Tag) : Builder :=
  let vocabulary := ((b.current?.bind b.label?).map (·.1)).getD .html
  b.startForeign vocabulary t

/-- The end tag of a foreign element closes the innermost of its name. If an element of the page is found
first, the rules of the mode apply. -/
def foreignEndTag (b : Builder) (name : String) : Outcome :=
  go true b.stack
where
  go (first : Bool) : List Nat → Outcome
    | [] => b.done
    | [_] => b.done
    | i :: rest =>
      match b.label? i with
      | some (vocabulary, n) =>
        if !first && vocabulary == .html then b.step (.endTag name)
        else if n = name then { b with stack := rest }.done
        else go false rest
      | none => go false rest

/-- A `font` tag breaks out only with one of the attributes of a font. -/
def fontBreaksOut (t : Tag) : Bool :=
  t.name == "font" && t.attributes.any fun (k, _) => ["color", "face", "size"].contains k

def foreign (b : Builder) (t : Token) : Outcome :=
  match t with
  | .nullChar => (b.putText "\ufffd").done
  | .char c => ((b.noteChar c).putChar c).done
  | .comment text => (b.putComment text).done
  | .startTag tag =>
    if breaksOut tag.name || fontBreaksOut tag then b.leaveForeign.step t
    else (b.foreignStartTag tag).done
  | .endTag name =>
    if name = "br" ∨ name = "p" then b.leaveForeign.step t else b.foreignEndTag name
  | .endOfFile | .doctype _ => b.done

end Hypertemplate.Html.Builder
