import Hypertemplate.Decimal.Shortest

/-!
# Tokens of selectors

The characters of a selector are cut into tokens, and brackets with what stands between them are gathered
into one piece, so that a comma or a blank between brackets is not seen from outside.
-/

namespace Hypertemplate.Selector

open Hypertemplate.Decimal

/-- A number: whether it was written with a sign, its value rounded to single precision (none if it is
infinite), and its value as an integer if it was written as one, held between -2^31 and 2^31 - 1. -/
structure Numeric where
  signed : Bool
  negative : Bool
  value : Option Binary
  whole : Option Int
  deriving DecidableEq, Repr, Inhabited

inductive Token where
  | ident (name : String)
  | atKeyword (name : String)
  | hash (name : String)
  | idHash (name : String)
  | quotedString (text : String)
  | url (text : String)
  | delim (c : Char)
  | number (n : Numeric)
  | percentage (n : Numeric)
  | dimension (n : Numeric) (unit : String)
  | blank (text : String)
  | comment
  | colon
  | semicolon
  | comma
  | includeMatch
  | dashMatch
  | startMatch
  | endMatch
  | substringMatch
  | commentOpen
  | commentClose
  | function (name : String)
  | openParenthesis
  | openSquare
  | openCurly
  | badUrl (text : String)
  | badString (text : String)
  | closeParenthesis
  | closeSquare
  | closeCurly
  deriving DecidableEq, Repr, Inhabited

/-- A token, with the pieces up to its closing bracket if it opens one. -/
inductive Piece where
  | mk (token : Token) (content : List Piece)
  deriving Repr, Inhabited

namespace Piece

def token : Piece → Token
  | mk t _ => t

def content : Piece → List Piece
  | mk _ c => c

end Piece

/-- The token that closes what a token opens. -/
def Token.closer? : Token → Option Token
  | .function _ | .openParenthesis => some .closeParenthesis
  | .openSquare => some .closeSquare
  | .openCurly => some .closeCurly
  | _ => none

/-- An open bracket and the pieces in front of it, the last first. -/
structure OpenBracket where
  opener : Token
  before : List Piece

/-- The pieces in front of a bracket with the piece that it opened. -/
def OpenBracket.close (b : OpenBracket) (content : List Piece) : List Piece :=
  .mk b.opener content.reverse :: b.before

/-- Close every bracket that is still open. -/
def closeAll : List OpenBracket → List Piece → List Piece
  | [], content => content.reverse
  | b :: rest, content => closeAll rest (b.close content)

/-- Gather tokens into pieces; `content` holds the pieces since the innermost open bracket, the last first.
A closing bracket that does not match that bracket is a piece. -/
def gather (brackets : List OpenBracket) (content : List Piece) : List Token → List Piece
  | [] => closeAll brackets content
  | t :: ts =>
    match brackets with
    | b :: rest =>
      if b.opener.closer? = some t then gather rest (b.close content) ts
      else if t.closer?.isSome then gather (⟨t, content⟩ :: b :: rest) [] ts
      else gather (b :: rest) (.mk t [] :: content) ts
    | [] =>
      if t.closer?.isSome then gather [⟨t, content⟩] [] ts
      else gather [] (.mk t [] :: content) ts

def pieces (ts : List Token) : List Piece := gather [] [] ts

end Hypertemplate.Selector
