import Hypertemplate.Yaml.Scalar

/-!
# YAML tokens

The tokens of a text make its structure plain: blocks that are only indented get a start and an end, and a
scalar that turns out to be a key gets a token in front of it. A scalar may turn out to be a key only
when the colon after it is read; until then it is a *candidate*, and no token from it on can be used.
`tokens` gives the tokens that can be used, and why there are no more if the text is malformed.
-/

namespace Hypertemplate.Yaml

inductive TokenKind where
  | documentStart
  | documentEnd
  | streamEnd
  | blockSequenceStart
  | blockMappingStart
  | blockEnd
  | flowSequenceStart
  | flowSequenceEnd
  | flowMappingStart
  | flowMappingEnd
  | entry
  | flowEntry
  | key
  | value
  | alias (name : String)
  | anchor (name : String)
  | tag (handle suffix : String)
  | tagDirective (handle : String) (lead : String)
  | version (major minor : Nat)
  | scalar (text : String) (isPlain : Bool)
  deriving DecidableEq, Repr, Inhabited

/-- A token, where it starts and where it ends. -/
structure Token where
  kind : TokenKind
  start : Mark
  stop : Mark
  deriving Repr, Inhabited

/-- A place where a key may have started: the number of its first token, and whether it has to be a
key because it stands where keys stand. -/
structure Candidate where
  number : Nat
  mark : Mark
  isRequired : Bool
  deriving Repr, Inhabited

structure Scanner where
  cursor : Cursor
  tokens : Array Token := #[]
  /-- The column of the block that is open, and those of the blocks around it. -/
  indent : Int := -1
  outerIndents : List Int := []
  /-- The candidates of the open brackets, the innermost first, and of the block around them. -/
  candidates : List (Option Candidate) := [none]
  /-- Whether a key may start here. -/
  keyAllowed : Bool := true
  isDone : Bool := false

namespace Scanner

def inFlow (s : Scanner) : Bool := 1 < s.candidates.length

def mark (s : Scanner) : Mark := s.cursor.mark

def fail {α : Type} (s : Scanner) (what : String) (context : Option (String × Mark) := none) :
    Except Problem α := s.cursor.fail what context

def push (s : Scanner) (kind : TokenKind) (start stop : Mark) : Scanner :=
  { s with tokens := s.tokens.push ⟨kind, start, stop⟩ }

/-- Add a token that takes `n` characters. -/
def take (s : Scanner) (kind : TokenKind) (n : Nat) : Scanner :=
  let c := s.cursor.advance n
  { s.push kind s.mark c.mark with cursor := c }

/-! ## Candidates -/

/-- A candidate that is over without a colon. -/
def give (s : Scanner) (c : Candidate) : Except Problem Unit :=
  if c.isRequired then
    s.fail "could not find expected ':'" ("while scanning a simple key", c.mark)
  else .ok ()

/-- Drop the candidates that are on an earlier line or too far away. -/
def dropStale (s : Scanner) : Except Problem Scanner := do
  let candidates ← s.candidates.mapM fun candidate =>
    match candidate with
    | some c =>
      if c.mark.line < s.mark.line || c.mark.index + 1024 < s.mark.index then do
        s.give c
        pure none
      else pure (some c)
    | none => pure none
  return { s with candidates }

/-- Drop the innermost candidate. -/
def dropCandidate (s : Scanner) : Except Problem Scanner := do
  match s.candidates with
  | some c :: outer =>
    s.give c
    return { s with candidates := none :: outer }
  | _ => return s

/-- Note that the next token may start a key. -/
def noteCandidate (s : Scanner) : Except Problem Scanner := do
  if s.keyAllowed then
    let s ← s.dropCandidate
    let isRequired := !s.inFlow && s.indent == (s.mark.column : Int)
    return { s with candidates := some ⟨s.tokens.size, s.mark, isRequired⟩ :: s.candidates.drop 1 }
  else return s

/-! ## Indentation -/

/-- Open a block at a column if it is further in than the one that is open; `number` is the place of its
token. -/
def openBlock (s : Scanner) (column : Nat) (number : Nat) (kind : TokenKind) (mark : Mark) : Scanner :=
  if !s.inFlow && s.indent < column then
    { s with
      tokens := s.tokens.insertIdxIfInBounds number ⟨kind, mark, mark⟩
      outerIndents := s.indent :: s.outerIndents
      indent := column }
  else s

/-- Close the blocks that are further in than a column. -/
def closeBlocks (column : Int) (s : Scanner) : Scanner :=
  if s.inFlow then s else go s.outerIndents s
where
  /-- Close as many blocks as there are around the open one. -/
  go : List Int → Scanner → Scanner
  | [], s => s
  | outer :: rest, s =>
    if column < s.indent then
      go rest { s.push .blockEnd s.mark s.mark with indent := outer, outerIndents := rest }
    else s

/-! ## Steps -/

/-- Skip blanks, comments and line ends. A tab is no blank where a key may start in a block. -/
def skipToToken : (bound : Nat) → Scanner → Scanner
  | 0, s => s
  | bound + 1, s =>
    let c := if s.mark.index = 0 && s.cursor.startsWith '\ufeff' then s.cursor.advance 1 else s.cursor
    let c := c.skipWhile fun x => x == ' ' || ((s.inFlow || !s.keyAllowed) && x == '\t')
    let c := if c.startsWith '#' then c.skipWhile (!isBreak ·) else c
    if (c.head?.map isBreak).getD false then
      skipToToken bound { s with cursor := c.readBreak.2, keyAllowed := s.keyAllowed || !s.inFlow }
    else { s with cursor := c }

def streamEnd (s : Scanner) : Except Problem Scanner := do
  let m := s.mark
  let m := if m.column = 0 then m else { m with line := m.line + 1, column := 0 }
  let s := { s with cursor := { s.cursor with mark := m } }
  let s ← (s.closeBlocks (-1)).dropCandidate
  return { s.push .streamEnd m m with keyAllowed := false, isDone := true }

def documentMark (s : Scanner) (kind : TokenKind) : Except Problem Scanner := do
  let s ← (s.closeBlocks (-1)).dropCandidate
  return { s with keyAllowed := false }.take kind 3

def openFlow (s : Scanner) (kind : TokenKind) : Except Problem Scanner := do
  let s ← s.noteCandidate
  return { s with candidates := none :: s.candidates, keyAllowed := true }.take kind 1

def closeFlow (s : Scanner) (kind : TokenKind) : Except Problem Scanner := do
  let s ← s.dropCandidate
  let candidates := if s.inFlow then s.candidates.drop 1 else s.candidates
  return { s with candidates, keyAllowed := false }.take kind 1

def flowEntry (s : Scanner) : Except Problem Scanner := do
  let s ← s.dropCandidate
  return { s with keyAllowed := true }.take .flowEntry 1

/-- Open a block at a mark that stands where a key may start. -/
def openBlockHere (s : Scanner) (kind : TokenKind) (refusal : String) : Except Problem Scanner :=
  if s.inFlow then .ok s
  else if !s.keyAllowed then s.fail refusal
  else .ok (s.openBlock s.mark.column s.tokens.size kind s.mark)

def blockEntry (s : Scanner) : Except Problem Scanner := do
  let s ← s.openBlockHere .blockSequenceStart "block sequence entries are not allowed in this context"
  let s ← s.dropCandidate
  return { s with keyAllowed := true }.take .entry 1

def explicitKey (s : Scanner) : Except Problem Scanner := do
  let s ← s.openBlockHere .blockMappingStart "mapping keys are not allowed in this context"
  let s ← s.dropCandidate
  return { s with keyAllowed := !s.inFlow }.take .key 1

/-- A colon makes the innermost candidate a key. -/
def value (s : Scanner) : Except Problem Scanner :=
  match s.candidates with
  | some c :: outer =>
    let s := { s with tokens := s.tokens.insertIdxIfInBounds c.number ⟨.key, c.mark, c.mark⟩ }
    let s := s.openBlock c.mark.column c.number .blockMappingStart c.mark
    .ok ({ s with candidates := none :: outer, keyAllowed := false }.take .value 1)
  | _ => do
    let s ← s.openBlockHere .blockMappingStart "mapping values are not allowed in this context"
    return { s with keyAllowed := !s.inFlow }.take .value 1

/-- An anchor or an alias. -/
def nodeName (s : Scanner) (isAlias : Bool) : Except Problem Scanner := do
  let s ← s.noteCandidate
  let start := s.mark
  let name := (s.cursor.rest.drop 1).takeWhile isNameChar
  let c := s.cursor.advance (name.length + 1)
  let isEnd := startsWithGap c.rest || (c.head?.map ("?:,]\x7d%@`".toList.contains ·)).getD false
  if name.isEmpty || !isEnd then
    c.fail "did not find expected alphabetic or numeric character"
      ((if isAlias then "while scanning an alias" else "while scanning an anchor"), start)
  else
    let name := String.ofList name
    return { s.push (if isAlias then .alias name else .anchor name) start c.mark with
      cursor := c, keyAllowed := false }

/-! ### Tags and directives -/

/-- Characters of a tag; those inside angle brackets may also be brackets and commas. -/
def isTagChar (inAngles : Bool) (c : Char) : Bool :=
  isNameChar c || ";/?:@&=+$.!~*'()%".toList.contains c || (inAngles && ",[]".toList.contains c)

/-- How many octets follow a leading octet of a character; none if it cannot lead. -/
def trailingOctets? (octet : Nat) : Option Nat :=
  if octet < 0x80 then some 0
  else if octet < 0xC0 then none
  else if octet < 0xE0 then some 1
  else if octet < 0xF0 then some 2
  else if octet < 0xF8 then some 3
  else none

/-- The octets of a tag. A percent sign and two hexadecimal digits stand for an octet; `trailing` is the
number of octets that the character begun still needs. -/
def tagOctets (inAngles : Bool) (inside : String × Mark) :
    (trailing : Nat) → Mark → List Char → Except Problem (List UInt8 × Cursor)
  | trailing, mark, [] =>
    if trailing = 0 then .ok ([], ⟨[], mark⟩) else malformed mark "did not find URI escaped octet"
  | trailing, mark, '%' :: a :: b :: rest =>
    if !(Text.isHexDigit a && Text.isHexDigit b) then malformed mark "did not find URI escaped octet"
    else
      let octet := Text.numberIn 16 [a, b]
      let next := { mark with index := mark.index + 3, column := mark.column + 3 }
      match trailing with
      | 0 =>
        match trailingOctets? octet with
        | none => malformed mark "found an incorrect leading UTF-8 octet"
        | some needed => do
          let (octets, c) ← tagOctets inAngles inside needed next rest
          return (octet.toUInt8 :: octets, c)
      | needed + 1 =>
        if 0x80 ≤ octet && octet < 0xC0 then do
          let (octets, c) ← tagOctets inAngles inside needed next rest
          return (octet.toUInt8 :: octets, c)
        else malformed mark "found an incorrect trailing UTF-8 octet"
  | trailing, mark, x :: rest =>
    if trailing != 0 || x == '%' then malformed mark "did not find URI escaped octet"
    else if isTagChar inAngles x then do
      let next := { mark with index := mark.index + 1, column := mark.column + 1 }
      let (octets, c) ← tagOctets inAngles inside 0 next rest
      return (x.toNat.toUInt8 :: octets, c)
    else .ok ([], ⟨x :: rest, mark⟩)
where
  malformed (mark : Mark) (what : String) : Except Problem (List UInt8 × Cursor) :=
    .error { what, mark, context := some inside }

/-- The characters of a tag at a cursor. -/
def tagText (inAngles : Bool) (inside : String × Mark) (c : Cursor) : Except Problem (String × Cursor) := do
  let (octets, c) ← tagOctets inAngles inside 0 c.mark c.rest
  return ((String.fromUTF8? ⟨octets.toArray⟩).getD "", c)

/-- The handle of a tag: an exclamation mark, or a name between two of them. -/
def tagHandle (c : Cursor) : String × Cursor :=
  let name := (c.rest.drop 1).takeWhile isNameChar
  let n := if (c.rest.drop (name.length + 1)).head? == some '!' then name.length + 2 else name.length + 1
  (String.ofList (c.rest.take n), c.advance n)

/-- The handle and the rest of a tag. -/
def readTag (c : Cursor) : Except Problem (String × String × Cursor) := do
  let start := c.mark
  let inside := ("while parsing a tag", start)
  if (c.rest.drop 1).head? == some '<' then
    let (suffix, c) ← tagText true inside (c.advance 2)
    if suffix.isEmpty then c.fail "did not find expected tag URI" inside
    else if c.startsWith '>' then return ("", suffix, c.advance 1)
    else c.fail "did not find the expected '>'" ("while scanning a tag", start)
  else
    let (handle, c) := tagHandle c
    let (suffix, c) ← tagText false inside c
    if 1 < handle.length && handle.endsWith "!" then
      if suffix.isEmpty then c.fail "did not find expected tag URI" inside
      else return (handle, suffix, c)
    else
      let suffix := String.ofList (handle.toList.drop 1) ++ suffix
      if suffix.isEmpty then return ("", "!", c) else return ("!", suffix, c)

def tag (s : Scanner) : Except Problem Scanner := do
  let s ← s.noteCandidate
  let start := s.mark
  let (handle, suffix, c) ← readTag s.cursor
  if (s.inFlow && c.startsWith ',') || startsWithGap c.rest then
    return { s.push (.tag handle suffix) start c.mark with cursor := c, keyAllowed := false }
  else c.fail "did not find expected whitespace or line break" ("while scanning a tag", start)

def versionNumber (start : Mark) (c : Cursor) : Except Problem (Nat × Cursor) :=
  let inside := some ("while scanning a %YAML directive", start)
  let digits := c.rest.takeWhile Char.isDigit
  if 9 < digits.length then (c.advance 9).fail "found extremely long version number" inside
  else if digits.isEmpty then c.fail "did not find expected version number" inside
  else .ok (Text.numberIn 10 digits, c.advance digits.length)

/-- What follows the name of a directive. -/
def directiveValue (name : String) (start : Mark) (c : Cursor) : Except Problem (TokenKind × Cursor) :=
  match name with
  | "YAML" => do
    let (major, c) ← versionNumber start (c.skipWhile isSpace)
    if c.startsWith '.' then
      let (minor, c) ← versionNumber start (c.advance 1)
      return (.version major minor, c)
    else c.fail "did not find expected digit or '.' character" ("while scanning a %YAML directive", start)
  | "TAG" => do
    let inside := some ("while scanning a %TAG directive", start)
    let c := c.skipWhile isSpace
    if !c.startsWith '!' then c.fail "did not find expected '!'" ("while scanning a tag directive", start)
    else
      let (handle, c) := tagHandle c
      if handle != "!" && !(1 < handle.length && handle.endsWith "!") then
        c.fail "did not find expected '!'" ("while parsing a tag directive", start)
      else if !(c.head?.map isSpace).getD false then c.fail "did not find expected whitespace" inside
      else
        let inTag := ("while parsing a %TAG directive", start)
        let (lead, c) ← tagText true inTag (c.skipWhile isSpace)
        if lead.isEmpty then c.fail "did not find expected tag URI" inTag
        else if !startsWithGap c.rest then
          c.fail "did not find expected whitespace or line break" inside
        else return (.tagDirective handle lead, c)
  | _ => c.fail "found unknown directive name" ("while scanning a directive", start)

def directive (s : Scanner) : Except Problem Scanner := do
  let s ← (s.closeBlocks (-1)).dropCandidate
  let start := s.mark
  let inside := some ("while scanning a directive", start)
  let name := (s.cursor.rest.drop 1).takeWhile isNameChar
  let c := s.cursor.advance (name.length + 1)
  if name.isEmpty then c.fail "could not find expected directive name" inside
  else if !startsWithGap c.rest then c.fail "found unexpected non-alphabetical character" inside
  else
    let (kind, c) ← directiveValue (String.ofList name) start c
    let stop := c.mark
    let c := c.skipWhile isSpace
    let c := if c.startsWith '#' then c.skipWhile (!isBreak ·) else c
    if !startsWithGap c.rest then c.fail "did not find expected comment or line break" inside
    else return { s.push kind start stop with cursor := c.readBreak.2, keyAllowed := false }

/-! ### Scalars -/

def block (s : Scanner) (literal : Bool) : Except Problem Scanner := do
  let s ← s.dropCandidate
  let (text, c) ← blockScalar literal s.indent s.cursor
  return { s.push (.scalar text false) s.mark c.mark with cursor := c, keyAllowed := true }

def quoted (s : Scanner) (single : Bool) : Except Problem Scanner := do
  let s ← s.noteCandidate
  let (text, c) ← quotedScalar single s.cursor
  return { s.push (.scalar text false) s.mark c.mark with cursor := c, keyAllowed := false }

def plain (s : Scanner) : Except Problem Scanner := do
  let s ← s.noteCandidate
  let (text, passedBreak, c) ← plainScalar s.inFlow (s.indent + 1).toNat s.cursor
  return { s.push (.scalar text true) s.mark c.mark with cursor := c, keyAllowed := passedBreak }

/-- Whether a plain scalar starts with a character that is followed by others. -/
def startsPlain (s : Scanner) (x : Char) (rest : List Char) : Bool :=
  !(isGap x || "-?:,[]\x7b\x7d#&*!|>'\"%@`".toList.contains x) ||
    (x == '-' && !(rest.head?.map isSpace).getD false) ||
    (!s.inFlow && (x == '?' || x == ':') && !startsWithGap rest)

/-- Read the next token, with the tokens that it brings along. -/
def step (s : Scanner) : Except Problem Scanner := do
  let s ← s.dropStale
  let s ← (s.skipToToken (s.cursor.rest.length + 1)).dropStale
  let s := s.closeBlocks s.mark.column
  match s.cursor.rest with
  | [] => s.streamEnd
  | x :: rest =>
    let mayPair := s.inFlow || startsWithGap rest
    if s.mark.column = 0 && x == '%' then s.directive
    else if s.cursor.atDocumentMark then
      s.documentMark (if x = '-' then .documentStart else .documentEnd)
    else
      match x with
      | '[' => s.openFlow .flowSequenceStart
      | '\x7b' => s.openFlow .flowMappingStart
      | ']' => s.closeFlow .flowSequenceEnd
      | '\x7d' => s.closeFlow .flowMappingEnd
      | ',' => s.flowEntry
      | '*' => s.nodeName true
      | '&' => s.nodeName false
      | '!' => s.tag
      | '\'' => s.quoted true
      | '"' => s.quoted false
      | _ =>
        if x == '-' && startsWithGap rest then s.blockEntry
        else if x == '?' && mayPair then s.explicitKey
        else if x == ':' && mayPair then s.value
        else if x == '|' && !s.inFlow then s.block true
        else if x == '>' && !s.inFlow then s.block false
        else if s.startsPlain x rest then s.plain
        else
          s.fail "found character that cannot start any token" ("while scanning for the next token", s.mark)

/-- The tokens that can be used: those before the first candidate. -/
def usable (s : Scanner) : List Token :=
  let numbers := s.candidates.filterMap (·.map (·.number))
  s.tokens.toList.take (numbers.foldl min s.tokens.size)

/-- Read tokens until the text ends or is malformed. -/
def run : (bound : Nat) → Scanner → List Token × Option Problem
  | 0, s => (s.usable, none)
  | bound + 1, s =>
    if s.isDone then (s.tokens.toList, none)
    else match s.step with
      | .ok s => run bound s
      | .error p => (s.usable, some p)

end Scanner

/-- The offset in bytes of the first character that no text may hold. -/
def firstForbidden? : (offset : Nat) → List Char → Option Nat
  | _, [] => none
  | offset, c :: rest => if isPermitted c then firstForbidden? (offset + c.utf8Size) rest else some offset

/-- The tokens of a text that can be used, and why there are no more. -/
def tokens (text : String) : List Token × Option Problem :=
  let cs := text.toList
  match firstForbidden? 0 cs with
  | some offset => ([], some { what := "control characters are not allowed", offset })
  | none =>
    let cs := match cs with
      | '\ufeff' :: rest => rest
      | cs => cs
    Scanner.run (2 * cs.length + 2) { cursor := { rest := cs } }

end Hypertemplate.Yaml
