import Hypertemplate.Document.Walk

/-!
# Markup of a document

Text is written with `&`, `<` and `>` as entities, attribute values with `&` and the double quote. Text in
`script` and `style` is written as it is. Void elements have no end tag. A template's content is written
before its children.
-/

namespace Hypertemplate.Document

open Hypertemplate.Text

/-- The written form of a character of text. -/
def escapeTextChar (c : Char) : List Char :=
  if c = '&' then ['&', 'a', 'm', 'p', ';']
  else if c = '<' then ['&', 'l', 't', ';']
  else if c = '>' then ['&', 'g', 't', ';']
  else [c]

/-- The written form of a character of an attribute value. -/
def escapeAttributeChar (c : Char) : List Char :=
  if c = '&' then ['&', 'a', 'm', 'p', ';']
  else if c = '"' then ['&', 'q', 'u', 'o', 't', ';']
  else [c]

def escapeText (t : String) : String := String.ofList (t.toList.flatMap escapeTextChar)

def escapeAttribute (t : String) : String := String.ofList (t.toList.flatMap escapeAttributeChar)

/-- Elements that are written without an end tag and without what is below them. -/
def isVoid (name : String) : Bool :=
  ["area", "base", "br", "col", "embed", "hr", "img", "input", "link", "meta", "source", "track",
    "wbr"].contains name

/-- Elements whose text is written as it is. -/
def isRawText (name : String) : Bool := name == "script" || name == "style"

def startTag (e : ElementData) : String :=
  "<" ++ e.name ++
    String.join (e.attributes.map fun (k, v) => " " ++ k ++ "=\"" ++ escapeAttribute v ++ "\"") ++ ">"

/-- The markup of a node and of what is at most `depth` levels deep; `raw` says whether text is written as
it is. -/
def markup (d : Document) : (depth : Nat) → (raw : Bool) → NodeId → String
  | 0, _, _ => ""
  | depth + 1, raw, i =>
    match d.kind i with
    | .document | .fragment => String.join ((d.children i).map (markup d depth raw))
    | .text t => if raw then t else escapeText t
    | .comment t => "<!--" ++ t ++ "-->"
    | .element e =>
      if isVoid e.name then startTag e
      else
        startTag e ++
          ((e.content.map (markup d depth false)).getD "") ++
          String.join ((d.children i).map (markup d depth (isRawText e.name))) ++
          "</" ++ e.name ++ ">"

/-- The levels that a walk through children and template content can go down. -/
def depthBound (d : Document) : Nat := d.nodes.size + 1

/-- The markup of the whole document. -/
def toHtml (d : Document) : String :=
  ((d.doctype.map fun name => "<!DOCTYPE " ++ name ++ ">").getD "") ++
    String.join ((d.children root).map (d.markup d.depthBound false))

/-- The markup of a node itself. -/
def outerHtml (d : Document) (i : NodeId) : String := d.markup d.depthBound false i

/-- The markup of a node's children. -/
def innerHtml (d : Document) (i : NodeId) : String :=
  let raw := ((d.tagName? i).map isRawText).getD false
  String.join ((d.children i).map (d.markup d.depthBound raw))

/-- A short label: an element's name, its id after a number sign and each class after a dot. -/
def describe (d : Document) (i : NodeId) : String :=
  match d.kind i with
  | .document => "#document"
  | .fragment => "#fragment"
  | .text _ => "#text"
  | .comment _ => "#comment"
  | .element e =>
    e.name ++
      (((valueOf? "id" e.attributes).map ("#" ++ ·)).getD "") ++
      String.join (((valueOf? "class" e.attributes).map words).getD [] |>.map ("." ++ ·))

end Hypertemplate.Document
