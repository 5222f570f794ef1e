import Hypertemplate.Html.BodyRules

/-!
# Rules of tables and selects

A tag of a table part closes what stands between it and the part that can hold it, and makes the parts in
between that are missing. Content that no cell holds goes before the table.
-/

namespace Hypertemplate.Html.Builder

open Hypertemplate.Text

/-! ## Tables -/

/-- Handle a token as in the body, with what it places put before the table. -/
def foster (b : Builder) (t : Token) : Outcome :=
  let outcome := { b with fosters := true }.inBody t
  { outcome with builder := { outcome.builder with fosters := false } }

/-- A character in a table: kept until the characters that follow it are known. -/
def charInTable (b : Builder) (t : Token) : Outcome :=
  if b.currentIs holdsTableParts then { b with returnMode := b.mode }.again .inTableText
  else b.foster t

/-- The characters kept in a table are done: blank ones stay in the table, others go before it. -/
def releaseTableText (b : Builder) : Builder :=
  let text := b.tableText.reverse
  let b := { b with tableText := [] }
  if text.all isAsciiBlank then text.foldl putChar b
  else text.foldl (fun b c => (b.foster (.char c)).builder) b

def inTableText (b : Builder) (t : Token) : Outcome :=
  match t with
  | .char c => { b with tableText := c :: b.tableText }.done
  | .nullChar => b.done
  | _ => b.releaseTableText.again b.returnMode

/-- Close the parts of the table down to the table itself. -/
def backToTable (b : Builder) : Builder := b.popUntil boundsTable

def inTableStartTag (b : Builder) (t : Tag) : Outcome :=
  let name := t.name
  if name = "caption" then ((b.backToTable.pushBound.insert t).setMode .inCaption).done
  else if name = "colgroup" then ((b.backToTable.insert t).setMode .inColumnGroup).done
  else if name = "col" then (b.backToTable.insertNamed "colgroup").again .inColumnGroup
  else if ["tbody", "tfoot", "thead"].contains name then
    ((b.backToTable.insert t).setMode .inTableBody).done
  else if ["td", "th", "tr"].contains name then
    (b.backToTable.insertNamed "tbody").again .inTableBody
  else if name = "table" then
    if b.namedInScope boundsTable "table" then (b.popThroughNamed "table").againNatural else b.done
  else if ["style", "script", "template"].contains name then (b.headStartTag t).done
  else if name = "input" ∧ isHidden t then (b.insertClosed t).done
  else if name = "form" then
    if b.hasOpen "template" || b.form.isSome then b.done
    else
      let (i, b) := b.putElement .html t
      { b with form := some i }.done
  else b.foster (.startTag t)

def inTable (b : Builder) (t : Token) : Outcome :=
  match t with
  | .char _ | .nullChar => b.charInTable t
  | .comment text => (b.putComment text).done
  | .startTag tag => b.inTableStartTag tag
  | .endTag name =>
    if name = "table" then
      if b.namedInScope boundsTable "table" then (b.popThroughNamed "table").resetMode.done
      else b.done
    else if isTablePart name || name == "body" || name == "html" then b.done
    else if name = "template" then b.endTemplate.done
    else b.foster t
  | .endOfFile => b.endPage
  | .doctype _ => b.done

/-- Close an open caption; none if there is none. -/
def closeCaption? (b : Builder) : Option Builder :=
  if b.namedInScope boundsTable "caption" then
    some ((b.closeImplied endsByItself).popThroughNamed "caption").clearFormatting
  else none

def inCaption (b : Builder) (t : Token) : Outcome :=
  let leave := (b.closeCaption?.map (·.again .inTable)).getD b.done
  match t with
  | .startTag tag => if isTablePart tag.name then leave else b.inBody t
  | .endTag name =>
    if name = "caption" then (b.closeCaption?.map (·.setMode .inTable)).getD b |>.done
    else if name = "table" then leave
    else if isTablePart name || name == "body" || name == "html" then b.done
    else b.inBody t
  | _ => b.inBody t

def inColumnGroup (b : Builder) (t : Token) : Outcome :=
  let leave := if b.currentNamed "colgroup" then b.pop.again .inTable else b.done
  match t with
  | .char c => if isAsciiBlank c then (b.putChar c).done else leave
  | .comment text => (b.putComment text).done
  | .startTag tag =>
    if tag.name = "html" then (b.mergeRoot tag).done
    else if tag.name = "col" then (b.insertClosed tag).done
    else if tag.name = "template" then (b.startTemplate tag).done
    else leave
  | .endTag name =>
    if name = "colgroup" then
      (if b.currentNamed "colgroup" then b.pop.setMode .inTable else b).done
    else if name = "col" then b.done
    else if name = "template" then b.endTemplate.done
    else leave
  | .endOfFile => b.endPage
  | _ => leave

/-- Close the parts down to the open section, and the section. -/
def closeSection (b : Builder) : Builder := (b.popUntil isTableSection).pop

def inTableBody (b : Builder) (t : Token) : Outcome :=
  let leave :=
    if b.inScope boundsTable (b.isIn (oneOf ["table", "tbody", "tfoot"])) then
      b.closeSection.again .inTable
    else b.done
  match t with
  | .startTag tag =>
    let name := tag.name
    if name = "tr" then (((b.popUntil isTableSection).insert tag).setMode .inRow).done
    else if name = "th" ∨ name = "td" then
      ((b.popUntil isTableSection).insertNamed "tr").again .inRow
    else if ["caption", "col", "colgroup", "tbody", "tfoot", "thead"].contains name then leave
    else b.inTable t
  | .endTag name =>
    if ["tbody", "tfoot", "thead"].contains name then
      (if b.namedInScope boundsTable name then b.closeSection.setMode .inTable else b).done
    else if name = "table" then leave
    else if isTablePart name || name == "body" || name == "html" then b.done
    else b.inTable t
  | _ => b.inTable t

/-- Close an open row; none if there is none. -/
def closeRow? (b : Builder) : Option Builder :=
  if b.namedInScope boundsTable "tr" then some (b.popUntil isTableRow).pop else none

def inRow (b : Builder) (t : Token) : Outcome :=
  let leave := (b.closeRow?.map (·.again .inTableBody)).getD b.done
  match t with
  | .startTag tag =>
    let name := tag.name
    if name = "th" ∨ name = "td" then
      (((b.popUntil isTableRow).insert tag).setMode .inCell).pushBound.done
    else if isTablePart name then leave
    else b.inTable t
  | .endTag name =>
    if name = "tr" then (b.closeRow?.map (·.setMode .inTableBody)).getD b |>.done
    else if name = "table" then leave
    else if ["tbody", "tfoot", "thead"].contains name then
      if b.namedInScope boundsTable name then leave else b.done
    else if isTablePart name || name == "body" || name == "html" then b.done
    else b.inTable t
  | _ => b.inTable t

/-- Close the open cell. -/
def closeCell (b : Builder) : Builder :=
  ((b.closeImplied endsByItself).popThrough isTableCell).clearFormatting

def inCell (b : Builder) (t : Token) : Outcome :=
  match t with
  | .startTag tag =>
    if isTablePart tag.name then
      if b.inScope boundsTable (b.isIn isTableCell) then b.closeCell.again .inRow else b.done
    else b.inBody t
  | .endTag name =>
    if name = "td" ∨ name = "th" then
      if b.namedInScope boundsTable name then
        (((b.closeImplied endsByItself).popThroughNamed name).clearFormatting.setMode .inRow).done
      else b.done
    else if ["body", "caption", "col", "colgroup", "html"].contains name then b.done
    else if ["table", "tbody", "tfoot", "thead", "tr"].contains name then
      if b.namedInScope boundsTable name then b.closeCell.again .inRow else b.done
    else b.inBody t
  | _ => b.inBody t

/-! ## Selects -/

/-- Close an open option, and an option group if `groups`. -/
def closeOption (b : Builder) (groups : Bool) : Builder :=
  let b := if b.currentNamed "option" then b.pop else b
  if groups && b.currentNamed "optgroup" then b.pop else b

/-- The end of an option group closes an option that is directly inside it. -/
def endOptionGroup (b : Builder) : Builder :=
  let inside := b.currentNamed "option" &&
    ((b.stack[1]?).map (b.isIn (isNamed "optgroup"))).getD false
  let b := if inside then b.pop else b
  if b.currentNamed "optgroup" then b.pop else b

/-- Close the open select; none if there is none. -/
def closeSelect? (b : Builder) : Option Builder :=
  if b.namedInScope boundsSelect "select" then some (b.popThroughNamed "select") else none

def inSelect (b : Builder) (t : Token) : Outcome :=
  match t with
  | .char c => (b.putChar c).done
  | .comment text => (b.putComment text).done
  | .startTag tag =>
    let name := tag.name
    if name = "html" then (b.mergeRoot tag).done
    else if name = "option" then ((b.closeOption false).insert tag).done
    else if name = "optgroup" then ((b.closeOption true).insert tag).done
    else if name = "hr" then ((b.closeOption true).insertClosed tag).done
    else if name = "select" then ((b.closeSelect?.map resetMode).getD b).done
    else if ["input", "keygen", "textarea"].contains name then
      (b.closeSelect?.map againNatural).getD b.done
    else if name = "script" ∨ name = "template" then (b.headStartTag tag).done
    else b.done
  | .endTag name =>
    if name = "optgroup" then b.endOptionGroup.done
    else if name = "option" then (b.closeOption false).done
    else if name = "select" then ((b.closeSelect?.map resetMode).getD b).done
    else if name = "template" then b.endTemplate.done
    else b.done
  | .endOfFile => b.endPage
  | .nullChar | .doctype _ => b.done

/-- Tags of a table that end a select inside it. -/
def endsSelect (name : String) : Bool :=
  ["caption", "table", "tbody", "tfoot", "thead", "tr", "td", "th"].contains name

def inSelectInTable (b : Builder) (t : Token) : Outcome :=
  let leave := (b.popThroughNamed "select").againNatural
  match t with
  | .startTag tag => if endsSelect tag.name then leave else b.inSelect t
  | .endTag name =>
    if endsSelect name then
      if b.namedInScope boundsTable name then leave else b.done
    else b.inSelect t
  | _ => b.inSelect t

end Hypertemplate.Html.Builder
