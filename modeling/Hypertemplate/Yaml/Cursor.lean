/-!
# Places in a YAML text

A text is read character by character, and every token knows where it starts: the number of characters
before it, its line and its column, all counted from zero. Messages count lines and columns from one.

A line ends with a line feed, a carriage return, both of them, or one of three other characters. Inside
scalars the first four count as line feeds.
-/

namespace Hypertemplate.Yaml

structure Mark where
  index : Nat := 0
  line : Nat := 0
  column : Nat := 0
  deriving DecidableEq, Repr, Inhabited

def Mark.isStart (m : Mark) : Bool := m.line == 0 && m.column == 0

def Mark.text (m : Mark) : String :=
  "line " ++ toString (m.line + 1) ++ " column " ++ toString (m.column + 1)

/-- The place of a mark in a message; the start of the text is not mentioned. -/
def Mark.place (m : Mark) : String := if m.isStart then "" else " at " ++ m.text

/-- Why a text is no YAML: what is wrong and where, and inside of what it is wrong. A character that no
text may hold has an offset in bytes instead of a mark. -/
structure Problem where
  what : String
  mark : Mark := {}
  offset : Nat := 0
  context : Option (String × Mark) := none
  deriving DecidableEq, Repr, Inhabited

def Problem.message (p : Problem) : String :=
  p.what ++
    (if p.mark.isStart then (if p.offset = 0 then "" else " at position " ++ toString p.offset)
      else p.mark.place) ++
    (match p.context with
      | some (inside, mark) =>
        ", " ++ inside ++
          (if mark.line = p.mark.line ∧ mark.column = p.mark.column then "" else mark.place)
      | none => "")

/-! ## Characters -/

/-- Characters that end a line. -/
def isBreak (c : Char) : Bool :=
  c == '\n' || c == '\r' || c == '\u0085' || c == '\u2028' || c == '\u2029'

/-- Space or tab. -/
def isSpace (c : Char) : Bool := c == ' ' || c == '\t'

/-- Space, tab or the end of a line. -/
def isGap (c : Char) : Bool := isSpace c || isBreak c

/-- Whether a text is over or starts with a gap. -/
def startsWithGap (cs : List Char) : Bool := (cs.head?.map isGap).getD true

/-- Characters of names: letters and digits of ASCII, underscore and hyphen. -/
def isNameChar (c : Char) : Bool := c.isAlphanum || c == '_' || c == '-'

/-- Characters that a YAML text may hold. -/
def isPermitted (c : Char) : Bool :=
  let n := c.toNat
  n == 0x09 || n == 0x0A || n == 0x0D || (0x20 ≤ n && n ≤ 0x7E) || n == 0x85 ||
    (0xA0 ≤ n && n ≤ 0xD7FF) || (0xE000 ≤ n && n ≤ 0xFFFD) || 0x10000 ≤ n

/-! ## Cursors -/

/-- What is left of a text, and where it starts. -/
structure Cursor where
  rest : List Char
  mark : Mark := {}
  deriving Repr, Inhabited

namespace Cursor

def head? (c : Cursor) : Option Char := c.rest.head?

/-- Whether the next character is the given one. -/
def startsWith (c : Cursor) (x : Char) : Bool := c.rest.head? == some x

/-- Pass `n` characters of a line. -/
def advance (c : Cursor) (n : Nat) : Cursor :=
  { rest := c.rest.drop n
    mark := { c.mark with index := c.mark.index + n, column := c.mark.column + n } }

/-- Pass the characters of a line that satisfy `p`. -/
def skipWhile (c : Cursor) (p : Char → Bool) : Cursor := c.advance (c.rest.takeWhile p).length

/-- Pass the end of a line, if one is next; its form inside a scalar comes along. -/
def readBreak (c : Cursor) : List Char × Cursor :=
  let next (n : Nat) : Mark := ⟨c.mark.index + n, c.mark.line + 1, 0⟩
  match c.rest with
  | '\r' :: '\n' :: rest => (['\n'], ⟨rest, next 2⟩)
  | x :: rest =>
    if x = '\u2028' ∨ x = '\u2029' then ([x], ⟨rest, next 1⟩)
    else if isBreak x then (['\n'], ⟨rest, next 1⟩)
    else ([], c)
  | [] => ([], c)

/-- Whether a line starts here with three hyphens or three dots that stand alone. -/
def atDocumentMark (c : Cursor) : Bool :=
  c.mark.column == 0 &&
    match c.rest with
    | '-' :: '-' :: '-' :: rest => startsWithGap rest
    | '.' :: '.' :: '.' :: rest => startsWithGap rest
    | _ => false

/-- Something is wrong here. -/
def fail {α : Type} (c : Cursor) (what : String) (context : Option (String × Mark) := none) :
    Except Problem α :=
  .error { what, mark := c.mark, context }

end Cursor

end Hypertemplate.Yaml
