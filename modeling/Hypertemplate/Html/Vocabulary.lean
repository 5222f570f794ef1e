import Hypertemplate.Html.Draft

/-!
# Classes of elements

The rules that place elements speak of classes: what ends by itself, what bounds a search through the
open elements, what breaks out of a drawing or a formula. A class is a list of names of the page's own
vocabulary; the places where a drawing or a formula holds page content bound searches as well.
-/

namespace Hypertemplate.Html

/-- The vocabulary and name of an element. -/
abbrev Label := Vocabulary × String

/-- The elements of the page vocabulary with a name on a list. -/
def oneOf (names : List String) (l : Label) : Bool := l.1 == .html && names.contains l.2

/-- The element of the page vocabulary with a name. -/
def isNamed (name : String) (l : Label) : Bool := l.1 == .html && l.2 == name

/-- Elements that hold plain text inside a formula. -/
def isFormulaText (l : Label) : Bool :=
  l.1 == .math && ["mi", "mo", "mn", "ms", "mtext"].contains l.2

/-- Elements that hold page content inside a drawing. -/
def isDrawingContent (l : Label) : Bool :=
  l.1 == .svg && ["foreignobject", "desc", "title"].contains l.2

/-- Elements that bound a search for an open element. -/
def boundsScope (l : Label) : Bool :=
  oneOf ["applet", "caption", "html", "table", "td", "th", "marquee", "object", "template"] l ||
    isFormulaText l || isDrawingContent l

def boundsListItem (l : Label) : Bool := boundsScope l || oneOf ["ol", "ul"] l

def boundsButton (l : Label) : Bool := boundsScope l || isNamed "button" l

def boundsTable (l : Label) : Bool := oneOf ["html", "table", "template"] l

def boundsSelect (l : Label) : Bool := !oneOf ["optgroup", "option"] l

/-- Elements whose end tag may be left out. -/
def endsByItself (l : Label) : Bool :=
  oneOf ["dd", "dt", "li", "option", "optgroup", "p", "rb", "rp", "rt", "rtc"] l

/-- Elements whose end the end of a template implies. -/
def endsWithTemplate (l : Label) : Bool :=
  endsByItself l || oneOf ["caption", "colgroup", "tbody", "td", "tfoot", "th", "thead", "tr"] l

def isHeading (l : Label) : Bool := oneOf ["h1", "h2", "h3", "h4", "h5", "h6"] l

def isTableCell (l : Label) : Bool := oneOf ["td", "th"] l

def isTableSection (l : Label) : Bool := oneOf ["tbody", "tfoot", "thead", "template", "html"] l

def isTableRow (l : Label) : Bool := oneOf ["tr", "template", "html"] l

/-- Elements inside which stray content goes before the table. -/
def holdsTableParts (l : Label) : Bool := oneOf ["table", "tbody", "tfoot", "thead", "tr"] l

/-- Elements that a stray end tag does not reach through. -/
def isSpecial (l : Label) : Bool :=
  oneOf ["address", "applet", "area", "article", "aside", "base", "basefont", "bgsound", "blockquote",
    "body", "br", "button", "caption", "center", "col", "colgroup", "dd", "details", "dir", "div",
    "dl", "dt", "embed", "fieldset", "figcaption", "figure", "footer", "form", "frame", "frameset",
    "h1", "h2", "h3", "h4", "h5", "h6", "head", "header", "hgroup", "hr", "html", "iframe", "img",
    "input", "isindex", "li", "link", "listing", "main", "marquee", "menu", "meta", "nav", "noembed",
    "noframes", "noscript", "object", "ol", "p", "param", "plaintext", "pre", "script", "section",
    "select", "source", "style", "summary", "table", "tbody", "td", "template", "textarea", "tfoot",
    "th", "thead", "title", "tr", "track", "ul", "wbr", "xmp"] l

/-- Start tags that end every open drawing and formula. -/
def breaksOut (name : String) : Bool :=
  ["b", "big", "blockquote", "body", "br", "center", "code", "dd", "div", "dl", "dt", "em", "embed",
    "h1", "h2", "h3", "h4", "h5", "h6", "head", "hr", "i", "img", "li", "listing", "menu", "meta",
    "nobr", "ol", "p", "pre", "ruby", "s", "small", "span", "strong", "strike", "sub", "sup", "table",
    "tt", "u", "ul", "var"].contains name

/-- The tags that are handled as in the head of a page wherever they stand. -/
def isHeadTag (name : String) : Bool :=
  ["base", "basefont", "bgsound", "link", "meta", "noframes", "script", "style", "template",
    "title"].contains name

/-- Tags of table parts. -/
def isTablePart (name : String) : Bool :=
  ["caption", "col", "colgroup", "tbody", "td", "tfoot", "th", "thead", "tr"].contains name

/-! ## Attributes of drawings and formulas -/

/-- The attributes of drawings whose names have capitals. -/
def drawingAttributes : List String :=
  ["attributeName", "attributeType", "baseFrequency", "baseProfile", "calcMode", "clipPathUnits",
    "contentScriptType", "contentStyleType", "diffuseConstant", "edgeMode",
    "externalResourcesRequired", "filterRes", "filterUnits", "glyphRef", "gradientTransform",
    "gradientUnits", "kernelMatrix", "kernelUnitLength", "keyPoints", "keySplines", "keyTimes",
    "lengthAdjust", "limitingConeAngle", "markerHeight", "markerUnits", "markerWidth",
    "maskContentUnits", "maskUnits", "numOctaves", "pathLength", "patternContentUnits",
    "patternTransform", "patternUnits", "pointsAtX", "pointsAtY", "pointsAtZ", "preserveAlpha",
    "preserveAspectRatio", "primitiveUnits", "refX", "refY", "repeatCount", "repeatDur",
    "requiredExtensions", "requiredFeatures", "specularConstant", "specularExponent", "spreadMethod",
    "startOffset", "stdDeviation", "stitchTiles", "surfaceScale", "systemLanguage", "tableValues",
    "targetX", "targetY", "textLength", "viewBox", "viewTarget", "xChannelSelector",
    "yChannelSelector", "zoomAndPan"]

/-- The written form of an attribute's name in a vocabulary. -/
def attributeName (vocabulary : Vocabulary) (name : String) : String :=
  match vocabulary with
  | .html => name
  | .math => if name = "definitionurl" then "definitionURL" else name
  | .svg => (drawingAttributes.find? fun n => n.map Char.toLower == name).getD name

/-- The family of an attribute of drawings and formulas, and the name without it. -/
def familyOf (name : String) : Option String × String :=
  if ["xlink:actuate", "xlink:arcrole", "xlink:href", "xlink:role", "xlink:show", "xlink:title",
      "xlink:type"].contains name then (some "xlink", String.ofList (name.toList.drop 6))
  else if name = "xml:lang" then (some "xml", "lang")
  else if name = "xml:space" then (some "xml", "space")
  else if name = "xmlns" then (some "", "xmlns")
  else if name = "xmlns:xlink" then (some "xmlns", "xlink")
  else (none, name)

/-- The attributes of a tag as attributes of an element of a vocabulary. -/
def draftAttributes (vocabulary : Vocabulary) (attributes : List (String × String)) :
    List DraftAttribute :=
  attributes.map fun (k, value) =>
    match vocabulary with
    | .html => { name := k, value }
    | _ =>
      let (family, name) := familyOf (attributeName vocabulary k)
      { family, name, value }

end Hypertemplate.Html
