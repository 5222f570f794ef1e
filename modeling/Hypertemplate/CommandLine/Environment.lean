import Hypertemplate.Text.Blank

/-!
# Environment files

A file of environment variables has an entry `NAME=value` for each variable, on a line of its own; quotes
may hold the entry together over several lines. A dollar sign in a value stands for a variable. Variables
that are set already keep their values, and nothing is read from the first malformed entry on.
-/

namespace Hypertemplate.CommandLine

open Hypertemplate.Text

/-- Names of variables with their values, the latest in front. -/
abbrev Variables := List (String × String)

def Variables.get? (vs : Variables) (name : String) : Option String :=
  (vs.find? (·.1 == name)).map (·.2)

/-! ## Entries -/

/-- Where the end of a line stands in an entry. -/
inductive LinePart where
  | plain
  | blank
  | escape
  | quoted (mark : Char)
  | quotedEscape (mark : Char)
  deriving DecidableEq

/-- The part of a line after a character that is in no quotes. -/
def LinePart.afterPlain (c : Char) : LinePart :=
  if c = '\\' then .escape else if c = '"' || c = '\'' then .quoted c else .plain

/-- A line without the comment that ends it, and where its end stands. -/
def readLine : LinePart → List Char → List Char × LinePart
  | part, [] => ([], part)
  | part, c :: rest =>
    if part = .blank && c = '#' then ([], .plain)
    else
      let next := match part with
        | .plain => if isBlank c && c != '\n' && c != '\r' then .blank else LinePart.afterPlain c
        | .blank => LinePart.afterPlain c
        | .escape => .plain
        | .quoted mark => if c = '\\' then .quotedEscape mark else if c = mark then .plain else part
        | .quotedEscape mark => .quoted mark
      let (kept, last) := readLine next rest
      (c :: kept, last)

/-- The entries of a file up to the first that stays open, which has no text. Lines that start with a
number sign are empty entries. -/
def entries : (start : List Char) → LinePart → List (List Char) → List (Option (List Char))
  | _, part, [] => if part = .plain then [] else [none]
  | start, part, line :: rest =>
    if ((start ++ line).dropWhile isBlank).head? == some '#' then entries [] .plain rest
    else
      let (kept, part) := readLine part line
      if part = .plain then some (start ++ kept) :: entries [] .plain rest
      else entries (start ++ kept) part rest

/-- The lines of a text, each with the line feed that ends it. -/
def linesOf (text : String) : List (List Char) :=
  let pieces := splitBy (· == '\n') text.toList
  ((pieces.dropLast.map (· ++ ['\n'])) ++ pieces.getLast?.toList).filter (!·.isEmpty)

/-! ## Values -/

/-- Where a place in a value stands. -/
inductive ValuePart where
  | bare
  | single
  | double
  | escape (inQuotes : Bool)
  /-- The name of a variable, with its letters so far, the last in front. -/
  | name (inQuotes : Bool) (letters : List Char)
  | braces (inQuotes : Bool) (letters : List Char)
  /-- Only blanks and a comment may follow. -/
  | tail

/-- The part inside or outside of double quotes. -/
def ValuePart.plain (inQuotes : Bool) : ValuePart := if inQuotes then .double else .bare

/-- What a name stands for, the letters being in reverse. -/
def Variables.expand (vs : Variables) (letters : List Char) : List Char :=
  ((vs.get? (String.ofList letters.reverse)).getD "").toList

/-- The value that a text writes; none if it is malformed. A name after a dollar sign takes letters and
digits, and what ends it stands for itself. -/
def readValue (vs : Variables) : ValuePart → List Char → Option (List Char)
  | .bare, [] | .tail, [] | .escape false, [] => some []
  | .name false letters, [] => some (vs.expand letters)
  | _, [] => none
  | .tail, c :: rest =>
    if c = '#' then some [] else if c = ' ' || c = '\t' then readValue vs .tail rest else none
  | .escape inQuotes, c :: rest =>
    if "\\'\"$ ".toList.contains c then (readValue vs (.plain inQuotes) rest).map (c :: ·)
    else if c = 'n' then (readValue vs (.plain inQuotes) rest).map ('\n' :: ·)
    else none
  | .single, c :: rest =>
    if c = '\'' then readValue vs .bare rest else (readValue vs .single rest).map (c :: ·)
  | .name inQuotes letters, c :: rest =>
    if c.isAlphanum then readValue vs (.name inQuotes (c :: letters)) rest
    else if c = '\x7b' && letters.isEmpty then readValue vs (.braces inQuotes []) rest
    else if c = '$' then (readValue vs (.name inQuotes []) rest).map (vs.expand letters ++ ·)
    else (readValue vs (.plain inQuotes) rest).map (vs.expand letters ++ c :: ·)
  | .braces inQuotes letters, c :: rest =>
    if c = '\x7d' then (readValue vs (.plain inQuotes) rest).map (vs.expand letters ++ ·)
    else readValue vs (.braces inQuotes (c :: letters)) rest
  | .double, c :: rest =>
    if c = '$' then readValue vs (.name true []) rest
    else if c = '"' then readValue vs .bare rest
    else if c = '\\' then readValue vs (.escape true) rest
    else (readValue vs .double rest).map (c :: ·)
  | .bare, c :: rest =>
    if c = '$' then readValue vs (.name false []) rest
    else if c = '\'' then readValue vs .single rest
    else if c = '"' then readValue vs .double rest
    else if c = '\\' then readValue vs (.escape false) rest
    else if c = ' ' || c = '\t' then readValue vs .tail rest
    else (readValue vs .bare rest).map (c :: ·)

/-- The name at the start of a text, and what follows it. -/
def readName? (cs : List Char) : Option (String × List Char) :=
  let isNameChar (c : Char) : Bool := c.isAlphanum || c == '_' || c == '.'
  match cs with
  | [] => none
  | c :: _ =>
    if c.isAlpha || c == '_' then
      some (String.ofList (cs.takeWhile isNameChar), (cs.dropWhile isNameChar).dropWhile isBlank)
    else none

/-- The name and the text of the value of an entry that may start with `export`. -/
def readAssignment? (cs : List Char) : Option (String × List Char) :=
  match readName? cs with
  | some (name, '=' :: value) => some (name, value.dropWhile isBlank)
  | some ("export", rest) =>
    match readName? rest with
    | some (name, '=' :: value) => some (name, value.dropWhile isBlank)
    | _ => none
  | _ => none

/-- Take up the entries of an environment file. -/
def Variables.takeUp (vs : Variables) : List (Option (List Char)) → Variables
  | [] | none :: _ => vs
  | some entry :: rest =>
    match trimChars entry with
    | [] => vs.takeUp rest
    | '#' :: _ => vs.takeUp rest
    | cs =>
      match readAssignment? cs with
      | none => vs
      | some (name, value) =>
        match readValue vs .bare (if value.head? == some '#' then [] else value) with
        | none => vs
        | some value =>
          Variables.takeUp (if (vs.get? name).isSome then vs else (name, String.ofList value) :: vs) rest

/-- The variables after an environment file is read. -/
def Variables.withFile (vs : Variables) (text : String) : Variables :=
  let text := if text.startsWith "\ufeff" then (text.drop 1).toString else text
  vs.takeUp (entries [] .plain (linesOf text))

end Hypertemplate.CommandLine
