import Hypertemplate.Selector.Basic
import Hypertemplate.Selector.Lexer

/-!
# Reading selectors

The grammar of selector lists over pieces. A reader takes pieces off the front of a list; when it fails,
what it left of the list tells how far it came, which matters where a bad alternative is forgiven.
-/

namespace Hypertemplate.Selector

open Hypertemplate.Text

abbrev Reader := EStateM Problem (List Piece)

namespace Reader

def fail {α : Type} (p : Problem) : Reader α := throw p

def isComment (p : Piece) : Bool := p.token == .comment

def isGap (p : Piece) : Bool :=
  match p.token with
  | .blank _ | .comment => true
  | _ => false

/-- Drop blanks and comments. -/
def skipGaps : Reader Unit := modify (·.dropWhile isGap)

/-- The next piece if there is one; a blank counts, a comment does not. -/
def nextPiece? : Reader (Option Piece) := do
  match (← get).dropWhile isComment with
  | [] =>
    set ([] : List Piece)
    return none
  | p :: rest =>
    set rest
    return some p

def nextPiece : Reader Piece := do
  match ← nextPiece? with
  | some p => return p
  | none => fail .endOfInput

/-- The next piece after blanks, if there is one. -/
def nextSolid? : Reader (Option Piece) := do
  skipGaps
  nextPiece?

def nextSolid : Reader Piece := do
  skipGaps
  nextPiece

/-- Fail unless only blanks are left. -/
def finish : Reader Unit := do
  match (← get).dropWhile isGap with
  | [] => return
  | p :: _ => fail (.unexpectedToken p.token)

/-- Run a reader on the pieces between brackets; it must take all of them. -/
def within {α : Type} (content : List Piece) (r : Reader α) : Reader α := do
  match (do let x ← r; finish; return x : Reader α).run content with
  | .ok x _ => return x
  | .error p _ => fail p

end Reader

open Reader

/-! ## Positions -/

/-- The number that a hyphen and digits behind an `n` write. -/
def dashDigits? (name : String) : Option Int :=
  match name.toList with
  | n :: '-' :: d :: ds =>
    if (n = 'n' ∨ n = 'N') ∧ (d :: ds).all Char.isDigit then some (clamp (-(numberIn 10 (d :: ds) : Int)))
    else none
  | _ => none

/-- The offset after an `n` and a sign: a number without sign. -/
def unsignedOffset (step sign : Int) : Reader (Int × Int) := do
  let p ← nextSolid
  match p.token with
  | .number ⟨false, _, _, some b⟩ => return (step, sign * b)
  | t => fail (.unexpectedToken t)

/-- The offset after an `n`, zero if there is none. -/
def offsetAfter (step : Int) : Reader (Int × Int) := do
  let before ← get
  match (← nextSolid?).map Piece.token with
  | some (.delim '+') => unsignedOffset step 1
  | some (.delim '-') => unsignedOffset step (-1)
  | some (.number ⟨true, _, _, some b⟩) => return (step, b)
  | _ =>
    set before
    return (step, 0)

/-- What follows a number whose unit starts with `n`, or a name that starts with one. -/
def stepNamed (step : Int) (name : String) : Reader (Int × Int) :=
  if eqIgnoringCase name "n" then offsetAfter step
  else if eqIgnoringCase name "n-" then unsignedOffset step (-1)
  else match dashDigits? name with
    | some b => return (step, b)
    | none => fail (.unexpectedToken (.ident name))

/-- A name of a position without a number in front. -/
def namedStep (name : String) : Reader (Int × Int) :=
  if eqIgnoringCase name "even" then return (2, 0)
  else if eqIgnoringCase name "odd" then return (2, 1)
  else match name.toList with
    | '-' :: rest =>
      let tail := String.ofList rest
      if eqIgnoringCase tail "n" then offsetAfter (-1)
      else if eqIgnoringCase tail "n-" then unsignedOffset (-1) (-1)
      else match dashDigits? tail with
        | some b => return (-1, b)
        | none => fail (.unexpectedToken (.ident name))
    | _ => stepNamed 1 name

/-- The step and the offset of a position. -/
def stepAndOffset : Reader (Int × Int) := do
  match (← nextSolid).token with
  | .number ⟨_, _, _, some b⟩ => return (0, b)
  | .dimension ⟨_, _, _, some a⟩ unit => stepNamed a unit
  | .ident name => namedStep name
  | .delim '+' =>
    match (← nextPiece).token with
    | .ident name => stepNamed 1 name
    | t => fail (.unexpectedToken t)
  | t => fail (.unexpectedToken t)

/-! ## Names -/

/-- The part of a name before its bar. -/
inductive NamespacePart where
  | unspecified
  | none
  | any
  deriving DecidableEq

/-- The name after a bar; none stands for all names. -/
def nameAfterBar (inAttribute : Bool) (part : NamespacePart) :
    Reader (NamespacePart × Option String) := do
  match (← nextPiece).token with
  | .ident name => return (part, some name)
  | .delim '*' =>
    if inAttribute then fail (.attributeNeedsLocalName (.delim '*')) else return (part, none)
  | t => fail (if inAttribute then .attributeNeedsLocalName t else .barNeedsName t)

/-- Whether a bar is next; it is taken if so. -/
def takesBar : Reader Bool := do
  let before ← get
  match (← nextPiece?).map Piece.token with
  | some (.delim '|') => return true
  | _ =>
    set before
    return false

/-- A name with an optional namespace in front; none if no name starts here, with the piece that does. -/
def qualifiedName (inAttribute : Bool) :
    Reader (Except Token (NamespacePart × Option String)) := do
  let before ← get
  match (← nextPiece).token with
  | .ident name =>
    if ← takesBar then fail (.unknownNamespace name) else return .ok (.unspecified, some name)
  | .delim '*' =>
    if ← takesBar then return .ok (← nameAfterBar inAttribute .any)
    else if inAttribute then fail (.attributeNeedsBar (← nextPiece).token)
    else return .ok (.unspecified, none)
  | .delim '|' => return .ok (← nameAfterBar inAttribute .none)
  | t =>
    set before
    return .error t

/-! ## Attributes -/

/-- Attributes whose values are compared without regard to letter case. -/
def looseAttributes : List String :=
  ["accept", "accept-charset", "align", "alink", "axis", "bgcolor", "charset", "checked", "clear",
    "codetype", "color", "compact", "declare", "defer", "dir", "direction", "disabled", "enctype",
    "face", "frame", "hreflang", "http-equiv", "lang", "language", "link", "media", "method",
    "multiple", "nohref", "noresize", "noshade", "nowrap", "readonly", "rel", "rev", "rules", "scope",
    "scrolling", "selected", "shape", "target", "text", "type", "valign", "valuetype", "vlink"]

def comparisonOf? : Token → Option Comparison
  | .delim '=' => some .equal
  | .includeMatch => some .word
  | .dashMatch => some .dash
  | .startMatch => some .start
  | .endMatch => some .ending
  | .substringMatch => some .part
  | _ => none

/-- The flag after a value that says whether letter case counts; none if there is no flag. -/
def caseFlag : Reader (Option Bool) := do
  match (← nextSolid?).map Piece.token with
  | none => return none
  | some (.ident name) =>
    if eqIgnoringCase name "i" then return some true
    else if eqIgnoringCase name "s" then return some false
    else fail (.unexpectedToken (.ident name))
  | some t => fail (.unexpectedToken t)

/-- A test of an attribute, between its brackets. -/
def attributeTest : Reader Simple := do
  skipGaps
  match ← qualifiedName true with
  | .error t => fail (.attributeNeedsName t)
  | .ok (part, written) =>
    let name := lowerAscii (written.getD "")
    match ← nextSolid? with
    | none => return .attribute name none
    | some p =>
      match comparisonOf? p.token with
      | none => fail (.attributeNeedsComparison p.token)
      | some comparison =>
        let value ← match (← nextSolid).token with
          | .ident s | .quotedString s => pure s
          | t => fail (.attributeNeedsValue t)
        let ignoreCase := (← caseFlag).getD (part != .any && looseAttributes.contains name)
        return .attribute name (some { comparison, value, ignoreCase })

/-! ## Pseudo-classes -/

/-- What the brackets around a selector rule out. -/
structure Context where
  allowsPseudoElements : Bool := true
  allowsRelative : Bool := true
  allowsCombinators : Bool := true

/-- The pseudo-elements that may also be written with one colon. -/
def isOldPseudoElement (name : String) : Bool :=
  ["before", "after", "first-line", "first-letter"].contains (lowerAscii name)

def pseudoClass (name : String) : Reader Simple :=
  let nth (fromEnd sameName : Bool) : Reader Simple := return .position ⟨0, 1, fromEnd, sameName⟩
  match lowerAscii name with
  | "first-child" => nth false false
  | "last-child" => nth true false
  | "only-child" => return .only false
  | "root" | "scope" => return .root
  | "empty" => return .empty
  | "first-of-type" => nth false true
  | "last-of-type" => nth true true
  | "only-of-type" => return .only true
  | _ => fail (.unsupportedPseudo name)

/-- The readers of selector lists that may stand between the brackets of a pseudo-class: one that forgives
bad alternatives, a strict one, one of relative selectors, and one for a single selector. -/
structure Nested where
  forgiving : Context → Reader (List ComplexSelector)
  strict : Context → Reader (List ComplexSelector)
  relative : Context → Reader (List ComplexSelector)
  single : Context → Reader ComplexSelector

/-- A pseudo-class with brackets, between them. -/
def pseudoFunction (nested : Nested) (context : Context) (name : String) : Reader Simple := do
  let position (fromEnd sameName : Bool) : Reader Simple := do
    let (step, offset) ← stepAndOffset
    return .position ⟨step, offset, fromEnd, sameName⟩
  let inner := { context with allowsPseudoElements := false }
  match lowerAscii name with
  | "nth-child" => position false false
  | "nth-of-type" => position false true
  | "nth-last-child" => position true false
  | "nth-last-of-type" => position true true
  | "is" | "where" => return .oneOf (← nested.forgiving inner)
  | "not" => return .noneOf (← nested.strict inner)
  | "has" =>
    if context.allowsRelative then return .has (← nested.relative { inner with allowsRelative := false })
    else fail .misplaced
  | "host" => do
    let _ ← nested.single { inner with allowsCombinators := false }
    return .never
  | _ => fail (.unsupportedPseudo name)

/-- A pseudo-class or pseudo-element after its first colon. -/
def pseudo (nested : Nested) (context : Context) : Reader Simple := do
  let first ← nextPiece
  let doubled := first.token == .colon
  let p ← if doubled then nextPiece else pure first
  let isElement (name : String) : Bool := doubled || isOldPseudoElement name
  match p.token with
  | .ident name =>
    if !isElement name then pseudoClass name
    else if context.allowsPseudoElements then fail (.unsupportedPseudo name)
    else fail .misplaced
  | .function name =>
    if !isElement name then within p.content (pseudoFunction nested context name)
    else if context.allowsPseudoElements then fail (.unsupportedPseudo name)
    else fail .misplaced
  | t => fail (.pseudoNeedsName t)

/-! ## Compound and complex selectors -/

/-- The next condition of a compound selector; none if there is none. -/
def condition? (nested : Nested) (context : Context) : Reader (Option Simple) := do
  let before ← get
  match ← nextPiece? with
  | none =>
    set before
    return none
  | some p =>
    match p.token with
    | .idHash id => return some (.id id)
    | .delim '.' =>
      match (← nextPiece).token with
      | .ident name => return some (.class name)
      | t => fail (.classNeedsName t)
    | .openSquare => return some (← within p.content attributeTest)
    | .colon => return some (← pseudo nested context)
    | _ =>
      set before
      return none

/-- Conditions as long as there are any; `bound` limits their number. -/
def conditions (nested : Nested) (context : Context) : (bound : Nat) → Reader (List Simple)
  | 0 => return []
  | bound + 1 => do
    match ← condition? nested context with
    | none => return []
    | some s => return s :: (← conditions nested context bound)

/-- The conditions that an element's name makes; none if no name starts here. -/
def typeConditions : Reader (Option (List Simple)) := do
  let named ← tryCatch (some <$> qualifiedName false) fun p =>
    match p with
    | .endOfInput => return none
    | p => fail p
  match named with
  | none | some (.error _) => return none
  | some (.ok (part, name)) =>
    let name := match name with
      | some n => Simple.tag (lowerAscii n)
      | none => .any
    return some (if part == .none then [.never, name] else [name])

/-- A compound selector; none if nothing of one stands here. -/
def compound? (nested : Nested) (context : Context) : Reader (Option (List Simple)) := do
  skipGaps
  let name ← typeConditions
  let rest ← conditions nested context (← get).length
  match name, rest with
  | none, [] => return none
  | name, rest => return some (name.getD [] ++ rest)

/-- The combinator that stands here; blanks alone make one unless nothing follows them. -/
def combinator? : Reader (Option Combinator) := do
  let pieces ← get
  match pieces.dropWhile isGap with
  | [] =>
    set ([] : List Piece)
    return none
  | p :: rest =>
    match p.token with
    | .delim '>' =>
      set rest
      return some .child
    | .delim '+' =>
      set rest
      return some .nextSibling
    | .delim '~' =>
      set rest
      return some .laterSibling
    | _ =>
      set (p :: rest)
      let blanks := pieces.takeWhile isGap
      return if blanks.all isComment then none else some .descendant

/-- The selector that goes on from `left`, if there is one; `bound` limits the compound selectors. -/
def complexFrom (nested : Nested) (context : Context) :
    (bound : Nat) → (left : Option (ComplexSelector × Combinator)) → Reader ComplexSelector
  | 0, _ => fail .emptySelector
  | bound + 1, left => do
    match ← compound? nested context with
    | none => fail (if left.isSome then .danglingCombinator else .emptySelector)
    | some cs =>
      let here := match left with
        | some (l, k) => ComplexSelector.link l k cs
        | none => .compound cs
      match ← combinator? with
      | none => return here
      | some k =>
        if context.allowsCombinators then complexFrom nested context bound (some (here, k))
        else fail .misplaced

def complex (nested : Nested) (context : Context) : Reader ComplexSelector := do
  skipGaps
  complexFrom nested context ((← get).length + 1) none

/-- A selector that starts from an element: a combinator may stand in front. -/
def relativeComplex (nested : Nested) (context : Context) : Reader ComplexSelector := do
  skipGaps
  let k ← combinator?
  complexFrom nested context ((← get).length + 1) (some (.anchor, k.getD .descendant))

/-! ## Lists -/

/-- The pieces between commas. -/
def alternatives (pieces : List Piece) : List (List Piece) := splitBy (·.token == .comma) pieces

mutual
/-- The first piece that no forgiven text may hold: a broken string or address, or a closing bracket. -/
def brokenPiece? : Piece → Option Token
  | .mk t content =>
    match t with
    | .badUrl _ | .badString _ | .closeParenthesis | .closeSquare | .closeCurly => some t
    | _ => firstBroken? content

def firstBroken? : List Piece → Option Token
  | [] => none
  | p :: rest =>
    match brokenPiece? p with
    | some t => some t
    | none => firstBroken? rest
end

/-- One alternative of a list that must be good. -/
def strictAlternative (r : Reader ComplexSelector) (pieces : List Piece) : Except Problem ComplexSelector :=
  match (do let x ← r; finish; return x : Reader ComplexSelector).run pieces with
  | .ok x _ => .ok x
  | .error p _ => .error p

/-- One alternative of a list that forgives bad ones, unless a broken piece is left of it. -/
def forgivingAlternative (r : Reader ComplexSelector) (pieces : List Piece) :
    Except Problem ComplexSelector :=
  match (do let x ← r; finish; return x : Reader ComplexSelector).run pieces with
  | .ok x _ => .ok x
  | .error _ rest =>
    match firstBroken? rest with
    | some t => .error (.unexpectedToken t)
    | none => .ok .forgiven

/-- All alternatives of a list, read by `read`. -/
def listOf (read : List Piece → Except Problem ComplexSelector) : Reader (List ComplexSelector) := do
  match (alternatives (← get)).mapM read with
  | .ok xs =>
    set ([] : List Piece)
    return xs
  | .error p => fail p

/-- The readers between brackets that go at most `depth` brackets deeper. -/
def nestedReaders : (depth : Nat) → Nested
  | 0 =>
    { forgiving := fun _ => fail .misplaced
      strict := fun _ => fail .misplaced
      relative := fun _ => fail .misplaced
      single := fun _ => fail .misplaced }
  | depth + 1 =>
    let nested := nestedReaders depth
    { forgiving := fun c => listOf (forgivingAlternative (complex nested c))
      strict := fun c => listOf (strictAlternative (complex nested c))
      relative := fun c => listOf (strictAlternative (relativeComplex nested c))
      single := complex nested }

end Hypertemplate.Selector

namespace Hypertemplate

open Selector

/-- A list of selectors with the text that it was read from. -/
structure Query where
  source : String
  alternatives : List ComplexSelector
  deriving Inhabited

/-- Read a list of selectors. -/
def Query.parse (source : String) : Except Problem Query :=
  let ts := tokens source
  let list := listOf (strictAlternative (complex (nestedReaders ts.length) {}))
  match list.run (pieces ts) with
  | .ok alternatives _ => .ok { source, alternatives }
  | .error p _ => .error p

end Hypertemplate
