import Hypertemplate.Text.Digits
import Hypertemplate.Yaml.Cursor

/-!
# Scalars

A scalar is written plainly, in quotes, or as a block. The readers here start at its first character and
give its text and the place behind it. Inside plain and quoted scalars a single line end becomes a space,
and of several the first one vanishes.
-/

namespace Hypertemplate.Yaml

open Hypertemplate.Text

/-! ## Gaps between words -/

/-- Blanks and line ends between the words of a scalar. -/
structure Gap where
  /-- The blanks, if no line ends here. -/
  blanks : List Char := []
  /-- The first line end. -/
  first : List Char := []
  /-- The other line ends. -/
  others : List Char := []
  hasBreak : Bool := false
  deriving Inhabited

/-- What a gap becomes. -/
def Gap.text (g : Gap) : List Char :=
  if !g.hasBreak then g.blanks
  else if g.first = ['\n'] then (if g.others.isEmpty then [' '] else g.others)
  else g.first ++ g.others

/-- Read blanks and line ends. A tab at the start of a line before column `tabLimit` is an error. -/
def readGap (tabLimit : Nat) (start : Mark) :
    (bound : Nat) → Gap → Cursor → Except Problem (Gap × Cursor)
  | 0, g, c => .ok (g, c)
  | bound + 1, g, c =>
    match c.head? with
    | none => .ok (g, c)
    | some x =>
      if isSpace x then
        if g.hasBreak && c.mark.column < tabLimit && x == '\t' then
          c.fail "found a tab character that violates indentation" ("while scanning a plain scalar", start)
        else
          readGap tabLimit start bound
            (if g.hasBreak then g else { g with blanks := g.blanks ++ [x] }) (c.advance 1)
      else if isBreak x then
        let (b, c) := c.readBreak
        readGap tabLimit start bound
          (if g.hasBreak then { g with others := g.others ++ b }
            else { first := b, hasBreak := true }) c
      else .ok (g, c)

/-! ## Plain scalars -/

/-- Brackets and commas, which separate inside of brackets. -/
def isFlowMark (c : Char) : Bool := ",[]\x7b\x7d".toList.contains c

/-- The length of a word of a plain scalar, and whether a colon ends it that must not stand there. -/
def plainWord (inFlow : Bool) : List Char → Nat × Bool
  | [] => (0, false)
  | c :: rest =>
    if isGap c then (0, false)
    else if inFlow && c == ':' && ((rest.head?.map fun d => isFlowMark d || d == '?').getD false) then
      (0, true)
    else if (c == ':' && startsWithGap rest) || (inFlow && isFlowMark c) then (0, false)
    else
      let (n, stray) := plainWord inFlow rest
      (n + 1, stray)

/-- Read the words of a plain scalar; the lines after the first start at column `indent` or later. Whether
a line end was passed after the last word comes along. -/
def plainFrom (inFlow : Bool) (indent : Nat) (start : Mark) :
    (bound : Nat) → (text : List Char) → Gap → Cursor → Except Problem (List Char × Bool × Cursor)
  | 0, text, g, c => .ok (text, g.hasBreak, c)
  | bound + 1, text, g, c => do
    if c.atDocumentMark || c.startsWith '#' then return (text, g.hasBreak, c)
    let (n, stray) := plainWord inFlow c.rest
    let word := c.rest.take n
    let c := c.advance n
    if stray then c.fail "found unexpected ':'" ("while scanning a plain scalar", start)
    else
      let (text, g) := if n = 0 then (text, g) else (text ++ g.text ++ word, {})
      if (c.head?.map isGap).getD false then
        let (g, c) ← readGap (if inFlow then 0 else indent) start c.rest.length g c
        if !inFlow && c.mark.column < indent then return (text, g.hasBreak, c)
        else plainFrom inFlow indent start bound text g c
      else return (text, g.hasBreak, c)

def plainScalar (inFlow : Bool) (indent : Nat) (c : Cursor) :
    Except Problem (String × Bool × Cursor) := do
  let (text, passedBreak, c) ← plainFrom inFlow indent c.mark (c.rest.length + 1) [] {} c
  return (String.ofList text, passedBreak, c)

/-! ## Quoted scalars -/

/-- The character that a single letter after a backslash stands for. -/
def escaped? (c : Char) : Option Char :=
  match c with
  | '0' => some '\x00'
  | 'a' => some '\x07'
  | 'b' => some '\x08'
  | 't' | '\t' => some '\t'
  | 'n' => some '\n'
  | 'v' => some '\x0b'
  | 'f' => some '\x0c'
  | 'r' => some '\r'
  | 'e' => some '\x1b'
  | ' ' => some ' '
  | '"' => some '"'
  | '/' => some '/'
  | '\\' => some '\\'
  | 'N' => some '\u0085'
  | '_' => some '\u00a0'
  | 'L' => some '\u2028'
  | 'P' => some '\u2029'
  | _ => none

/-- The number of hexadecimal digits after a letter that follows a backslash. -/
def codeLength? (c : Char) : Option Nat :=
  match c with
  | 'x' => some 2
  | 'u' => some 4
  | 'U' => some 8
  | _ => none

/-- An escape in double quotes, from its backslash on. -/
def readEscape (start : Mark) (c : Cursor) : Except Problem (Char × Cursor) :=
  let inside := some ("while parsing a quoted scalar", start)
  match c.rest with
  | _ :: x :: rest =>
    match escaped? x with
    | some y => .ok (y, c.advance 2)
    | none =>
      match codeLength? x with
      | none => c.fail "found unknown escape character" inside
      | some n =>
        let digits := rest.take n
        if digits.length < n || !digits.all isHexDigit then
          (c.advance 2).fail "did not find expected hexdecimal number" inside
        else
          let code := numberIn 16 digits
          if code.isValidChar then .ok (Char.ofNat code, c.advance (n + 2))
          else (c.advance 2).fail "found invalid Unicode character escape code" inside
  | _ => c.fail "found unknown escape character" inside

/-- Read a word of a quoted scalar. Whether an escaped line end follows it comes along. -/
def quotedWord (single : Bool) (start : Mark) :
    (bound : Nat) → (word : List Char) → Cursor → Except Problem (List Char × Bool × Cursor)
  | 0, word, c => .ok (word, false, c)
  | bound + 1, word, c =>
    match c.rest with
    | [] => .ok (word, false, c)
    | x :: rest =>
      if isGap x then .ok (word, false, c)
      else if single && x == '\'' then
        if rest.head? == some '\'' then quotedWord single start bound (word ++ ['\'']) (c.advance 2)
        else .ok (word, false, c)
      else if !single && x == '"' then .ok (word, false, c)
      else if !single && x == '\\' then
        if (rest.head?.map isBreak).getD false then .ok (word, true, (c.advance 1).readBreak.2)
        else do
          let (y, c) ← readEscape start c
          quotedWord single start bound (word ++ [y]) c
      else quotedWord single start bound (word ++ [x]) (c.advance 1)

/-- Read a quoted scalar behind its opening quote. -/
def quotedFrom (single : Bool) (start : Mark) :
    (bound : Nat) → (text : List Char) → Cursor → Except Problem (List Char × Cursor)
  | 0, text, c => .ok (text, c)
  | bound + 1, text, c => do
    let inside := some ("while scanning a quoted scalar", start)
    if c.atDocumentMark then c.fail "found unexpected document indicator" inside
    else if c.rest.isEmpty then c.fail "found unexpected end of stream" inside
    else
      let (word, escapedBreak, c) ← quotedWord single start (c.rest.length + 1) [] c
      let text := text ++ word
      if c.startsWith (if single then '\'' else '"') then return (text, c.advance 1)
      else
        let (g, c) ← readGap 0 start c.rest.length { hasBreak := escapedBreak } c
        quotedFrom single start bound (text ++ g.text) c

/-- A quoted scalar, from its opening quote on. -/
def quotedScalar (single : Bool) (c : Cursor) : Except Problem (String × Cursor) := do
  let (text, c') ← quotedFrom single c.mark (c.rest.length + 1) [] (c.advance 1)
  return (String.ofList text, c')

/-! ## Block scalars -/

/-- What happens to the line ends at the end of a block scalar. -/
inductive Chomping where
  | strip
  | clip
  | keep
  deriving DecidableEq

/-- The head of a block scalar. -/
structure BlockHead where
  chomping : Chomping := .clip
  increment : Nat := 0

def insideBlock (start : Mark) : Option (String × Mark) := some ("while scanning a block scalar", start)

/-- The sign in the head of a block scalar. -/
def readChomping (c : Cursor) : Option (Chomping × Cursor) :=
  if c.startsWith '+' then some (.keep, c.advance 1)
  else if c.startsWith '-' then some (.strip, c.advance 1)
  else none

/-- The digit in the head of a block scalar; zero if there is none. -/
def readIncrement (start : Mark) (c : Cursor) : Except Problem (Nat × Cursor) :=
  match c.head? with
  | some d =>
    if d == '0' then c.fail "found an indentation indicator equal to 0" (insideBlock start)
    else if d.isDigit then .ok (digitValue d, c.advance 1)
    else .ok (0, c)
  | none => .ok (0, c)

/-- The head of a block scalar behind its first character: a sign and a digit in either order. -/
def readBlockHead (start : Mark) (c : Cursor) : Except Problem (BlockHead × Cursor) :=
  match readChomping c with
  | some (chomping, c) => do
    let (increment, c) ← readIncrement start c
    return ({ chomping, increment }, c)
  | none => do
    let (increment, c) ← readIncrement start c
    match (if increment = 0 then none else readChomping c) with
    | some (chomping, c) => return ({ chomping, increment }, c)
    | none => return ({ increment }, c)

/-- Read empty lines and the indentation of the next line. An `indent` of zero means that it is still
unknown; the widest indentation comes along. -/
def readBlankLines (indent : Nat) (start : Mark) : (bound : Nat) → (breaks : List Char) → (widest : Nat) →
    Cursor → Except Problem (List Char × Nat × Cursor)
  | 0, breaks, widest, c => .ok (breaks, widest, c)
  | bound + 1, breaks, widest, c =>
    let blanks := (c.rest.takeWhile (· == ' ')).length
    let c := c.advance (if indent = 0 then blanks else min blanks (indent - c.mark.column))
    let widest := max widest c.mark.column
    if (indent == 0 || c.mark.column < indent) && c.startsWith '\t' then
      c.fail "found a tab character where an indentation space is expected" (insideBlock start)
    else if (c.head?.map isBreak).getD false then
      let (b, c) := c.readBreak
      readBlankLines indent start bound (breaks ++ b) widest c
    else .ok (breaks, widest, c)

/-- The lines of a block scalar read so far: the text, the end of the last line, the empty lines after it,
and whether the last line starts with a blank. -/
structure BlockLines where
  text : List Char := []
  lastBreak : List Char := []
  blankLines : List Char := []
  startsBlank : Bool := false

/-- Read the lines of a block scalar. -/
def blockFrom (literal : Bool) (indent : Nat) (start : Mark) :
    (bound : Nat) → BlockLines → Cursor → Except Problem (BlockLines × Cursor)
  | 0, b, c => .ok (b, c)
  | bound + 1, b, c =>
    if c.mark.column ≠ indent || c.rest.isEmpty then .ok (b, c)
    else do
      let startsBlank := (c.head?.map isSpace).getD false
      let joint :=
        if !literal && b.lastBreak == ['\n'] && !b.startsBlank && !startsBlank then
          (if b.blankLines.isEmpty then [' '] else [])
        else b.lastBreak
      let line := c.rest.takeWhile (!isBreak ·)
      let (lastBreak, c) := (c.advance line.length).readBreak
      let (blankLines, _, c) ← readBlankLines indent start (c.rest.length + 1) [] 0 c
      blockFrom literal indent start bound
        { text := b.text ++ joint ++ b.blankLines ++ line, lastBreak, blankLines, startsBlank } c

/-- A block scalar, from its first character on, in a block that is indented to column `outer`, if it is
in a block at all. -/
def blockScalar (literal : Bool) (outer : Int) (c : Cursor) : Except Problem (String × Cursor) := do
  let start := c.mark
  let (head, c) ← readBlockHead start (c.advance 1)
  let c := c.skipWhile isSpace
  let c := if c.startsWith '#' then c.skipWhile (!isBreak ·) else c
  if !startsWithGap c.rest then
    c.fail "did not find expected comment or line break" (insideBlock start)
  else
    let c := c.readBreak.2
    let fixed := if head.increment = 0 then 0 else (max outer 0).toNat + head.increment
    let (blankLines, widest, c) ← readBlankLines fixed start (c.rest.length + 1) [] 0 c
    let indent := if fixed = 0 then max widest (max (outer + 1).toNat 1) else fixed
    let (b, c) ← blockFrom literal indent start (c.rest.length + 1) { blankLines } c
    let tail := match head.chomping with
      | .strip => []
      | .clip => b.lastBreak
      | .keep => b.lastBreak ++ b.blankLines
    return (String.ofList (b.text ++ tail), c)

end Hypertemplate.Yaml
