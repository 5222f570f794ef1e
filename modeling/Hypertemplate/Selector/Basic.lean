import Hypertemplate.Selector.Token
import Hypertemplate.Text.Quote

/-!
# Selectors

A complex selector is a compound selector for the subject, linked to a selector for an element before or
above it. The names of elements and attributes are in small letters. `Problem` lists what can be wrong
with the text of a selector, `Problem.reason` words it.
-/

namespace Hypertemplate.Selector

open Hypertemplate.Decimal Hypertemplate.Text

/-- How the element that a selector starts from and the one that it goes on with are related. -/
inductive Combinator where
  | descendant
  | child
  | nextSibling
  | laterSibling
  deriving DecidableEq, Repr, Inhabited

/-- How an attribute's value is compared. -/
inductive Comparison where
  | equal
  | word
  | dash
  | start
  | ending
  | part
  deriving DecidableEq, Repr, Inhabited

/-- What an attribute's value is compared with. -/
structure ValueTest where
  comparison : Comparison
  value : String
  ignoreCase : Bool
  deriving DecidableEq, Repr, Inhabited

/-- The elements among the children of a parent that a position counts: the `offset`-th and every
`step`-th from there, from the front or the back, among all or those of the same name. -/
structure Position where
  step : Int
  offset : Int
  fromEnd : Bool
  sameName : Bool
  deriving DecidableEq, Repr, Inhabited

mutual
/-- One condition on an element. -/
inductive Simple where
  | any
  | never
  | tag (name : String)
  | id (id : String)
  | class (name : String)
  | attribute (name : String) (test : Option ValueTest)
  | root
  | empty
  | position (p : Position)
  | only (sameName : Bool)
  | oneOf (alternatives : List ComplexSelector)
  | noneOf (alternatives : List ComplexSelector)
  | has (relatives : List ComplexSelector)

/-- A compound selector on its own, one linked to a selector for a related element, the element that a
relative selector starts from, or a selector that was forgiven and matches nothing. -/
inductive ComplexSelector where
  | compound (conditions : List Simple)
  | link (left : ComplexSelector) (combinator : Combinator) (conditions : List Simple)
  | anchor
  | forgiven
end

instance : Inhabited Simple := ⟨.any⟩
instance : Inhabited ComplexSelector := ⟨.forgiven⟩

/-- What is wrong with the text of a selector. -/
inductive Problem where
  | emptySelector
  | danglingCombinator
  | misplaced
  | unsupportedPseudo (name : String)
  | unknownNamespace (name : String)
  | classNeedsName (t : Token)
  | attributeNeedsName (t : Token)
  | attributeNeedsBar (t : Token)
  | attributeNeedsLocalName (t : Token)
  | attributeNeedsComparison (t : Token)
  | attributeNeedsValue (t : Token)
  | barNeedsName (t : Token)
  | pseudoNeedsName (t : Token)
  | unexpectedToken (t : Token)
  | endOfInput
  deriving DecidableEq, Repr, Inhabited

/-! ## Wording -/

/-- A line indented by levels of four blanks. -/
def indented (level : Nat) (line : String) : String := "".pushn ' ' (4 * level) ++ line

/-- Numbers in a full form: with a fraction, and with an exponent if they are very large or small. -/
def fullLayout : Layout := ⟨some (-4), some 16, ".0", ""⟩

/-- Numbers as they are shown to a reader. -/
def plainLayout : Layout := ⟨none, none, "", ""⟩

def Numeric.text (layout : Layout) (n : Numeric) : String :=
  match n.value with
  | some x => layout.text .single x
  | none => if n.negative then "-inf" else "inf"

/-- A constructor with its arguments in parentheses, one line each. -/
def constructorLines (name : String) (arguments : List (List String)) : List String :=
  (name ++ "(") ::
    arguments.flatMap (fun lines =>
      let shifted := lines.map (indented 1)
      shifted.dropLast ++ [shifted.getLastD "" ++ ","]) ++ [")"]

/-- A constructor with named fields in braces, one line each. -/
def recordLines (name : String) (fields : List (String × List String)) : List String :=
  (name ++ " \x7b") ::
    fields.flatMap (fun (field, lines) =>
      let first := field ++ ": " ++ lines.headD ""
      let shifted := (first :: lines.drop 1).map (indented 1)
      shifted.dropLast ++ [shifted.getLastD "" ++ ","]) ++ ["\x7d"]

/-- The fields of a number in full; `valueName` is the name of its value. -/
def Numeric.fields (n : Numeric) (valueName : String) : List (String × List String) :=
  [("has_sign", [if n.signed then "true" else "false"]), (valueName, [n.text fullLayout]),
    ("int_value", match n.whole with
      | some i => constructorLines "Some" [[toString i]]
      | none => ["None"])]

def Token.fullLines : Token → List String
  | .ident s => constructorLines "Ident" [[quoted s]]
  | .atKeyword s => constructorLines "AtKeyword" [[quoted s]]
  | .hash s => constructorLines "Hash" [[quoted s]]
  | .idHash s => constructorLines "IDHash" [[quoted s]]
  | .quotedString s => constructorLines "QuotedString" [[quoted s]]
  | .url s => constructorLines "UnquotedUrl" [[quoted s]]
  | .delim c => constructorLines "Delim" [[quotedChar c]]
  | .number n => recordLines "Number" (n.fields "value")
  | .percentage n => recordLines "Percentage" (n.fields "unit_value")
  | .dimension n unit => recordLines "Dimension" (n.fields "value" ++ [("unit", [quoted unit])])
  | .blank s => constructorLines "WhiteSpace" [[quoted s]]
  | .comment => constructorLines "Comment" [[quoted ""]]
  | .colon => ["Colon"]
  | .semicolon => ["Semicolon"]
  | .comma => ["Comma"]
  | .includeMatch => ["IncludeMatch"]
  | .dashMatch => ["DashMatch"]
  | .startMatch => ["PrefixMatch"]
  | .endMatch => ["SuffixMatch"]
  | .substringMatch => ["SubstringMatch"]
  | .commentOpen => ["CDO"]
  | .commentClose => ["CDC"]
  | .function s => constructorLines "Function" [[quoted s]]
  | .openParenthesis => ["ParenthesisBlock"]
  | .openSquare => ["SquareBracketBlock"]
  | .openCurly => ["CurlyBracketBlock"]
  | .badUrl s => constructorLines "BadUrl" [[quoted s]]
  | .badString s => constructorLines "BadString" [[quoted s]]
  | .closeParenthesis => ["CloseParenthesis"]
  | .closeSquare => ["CloseSquareBracket"]
  | .closeCurly => ["CloseCurlyBracket"]

/-- A number as it is shown to a reader; one that was written with a sign gets a sign in front. -/
def Numeric.shown (n : Numeric) : String :=
  let text := n.text plainLayout
  if !n.signed then text
  else if n.negative || (n.value.map (·.isZero)).getD false then "-" ++ text
  else "+" ++ text

/-- A token as it is shown to a reader. -/
def Token.shown : Token → String
  | .ident s => s
  | .atKeyword s => "@" ++ s
  | .hash s | .idHash s => "#" ++ s
  | .quotedString s => "\"" ++ s ++ "\""
  | .url s => s
  | .delim c => String.singleton c
  | .number n => n.shown
  | .percentage n => n.shown ++ "%"
  | .dimension n unit => n.shown ++ unit
  | .blank _ => " "
  | .comment => "/*  */"
  | .colon => ":"
  | .semicolon => ";"
  | .comma => ","
  | .includeMatch => "~="
  | .dashMatch => "|="
  | .startMatch => "^="
  | .endMatch => "$="
  | .substringMatch => "*="
  | .commentOpen => "<!--"
  | .commentClose => "-->"
  | .function s => s ++ "()"
  | .openParenthesis => "<("
  | .openSquare => "<["
  | .openCurly => "<\x7b"
  | .badUrl s => "<Bad URL " ++ quoted s ++ ">"
  | .badString s => "<Bad String " ++ quoted s ++ ">"
  | .closeParenthesis => "<)"
  | .closeSquare => "<]"
  | .closeCurly => "<\x7d"

/-- The wording of a problem that is shown in full. -/
def inFull (lines : List String) : String :=
  "Unexpected error occurred. Please report this to the developer\n" ++ String.intercalate "\n" lines

def Problem.reason : Problem → String
  | .emptySelector => inFull ["EmptySelector"]
  | .danglingCombinator => inFull ["DanglingCombinator"]
  | .misplaced => inFull ["InvalidState"]
  | .unsupportedPseudo name =>
    inFull (constructorLines "UnsupportedPseudoClassOrElement" [[quoted name]])
  | .unknownNamespace name => inFull (constructorLines "ExpectedNamespace" [[quoted name]])
  | .classNeedsName t => inFull (constructorLines "ClassNeedsIdent" [t.fullLines])
  | .attributeNeedsName t =>
    inFull (constructorLines "NoQualifiedNameInAttributeSelector" [t.fullLines])
  | .attributeNeedsBar t => inFull (constructorLines "ExpectedBarInAttr" [t.fullLines])
  | .attributeNeedsLocalName t => inFull (constructorLines "InvalidQualNameInAttr" [t.fullLines])
  | .attributeNeedsComparison t =>
    inFull (constructorLines "UnexpectedTokenInAttributeSelector" [t.fullLines])
  | .attributeNeedsValue t => inFull (constructorLines "BadValueInAttr" [t.fullLines])
  | .barNeedsName t => inFull (constructorLines "ExplicitNamespaceUnexpectedToken" [t.fullLines])
  | .pseudoNeedsName t =>
    "Expected identity for pseudoelement, got " ++ quoted t.shown ++ " instead"
  | .unexpectedToken t => "Token " ++ quoted t.shown ++ " was not expected"
  | .endOfInput => "Unexpected EOL"

end Hypertemplate.Selector
