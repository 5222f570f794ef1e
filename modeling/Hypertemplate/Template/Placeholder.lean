import Hypertemplate.Json.Path
import Hypertemplate.Json.Print

/-!
# Placeholders in template text

A text is a sequence of literal pieces and placeholders: a placeholder is a dollar sign and a dotted path
in braces. An empty pair of braces is literal, and so is everything from an opening that is never closed.
`tokenize` cuts a text into its pieces: a literal piece is a range of bytes of the text. `resolve?` puts the
shown text of the value at each path in the placeholder's place.
-/

namespace Hypertemplate.Template

open Hypertemplate.Json Hypertemplate.Decimal Hypertemplate.Text

/-! ## Cutting a text into pieces -/

/-- A piece of a text: the bytes from one place up to another, or the path of a placeholder. -/
inductive Piece where
  | literal (start stop : Nat)
  | placeholder (path : String)
  deriving DecidableEq, Repr

def Piece.isPlaceholder : Piece → Bool
  | .placeholder _ => true
  | .literal .. => false

/-- What stands before the first opening of a placeholder in a text, and what follows this opening. -/
def splitAtOpening? : List Char → Option (List Char × List Char)
  | [] => none
  | '$' :: '\x7b' :: body => some ([], body)
  | c :: rest => (splitAtOpening? rest).map fun (before, body) => (c :: before, body)

/-- The path at the start of a text that follows an opening, and what comes after its closing brace. -/
def splitAtClose? : List Char → Option (List Char × List Char)
  | [] => none
  | c :: rest =>
    if c = '\x7d' then some ([], rest)
    else (splitAtClose? rest).map fun (path, after) => (c :: path, after)

theorem splitAtOpening?_length {cs before body : List Char} (h : splitAtOpening? cs = some (before, body)) :
    body.length < cs.length := by
  fun_induction splitAtOpening? cs generalizing before body with
  | case1 => cases h
  | case2 body' =>
    obtain ⟨-, rfl⟩ := Prod.mk.inj (Option.some.inj h)
    rw [List.length_cons, List.length_cons]
    omega
  | case3 c rest _ ih =>
    obtain ⟨⟨b, a⟩, hb, he⟩ := Option.map_eq_some_iff.mp h
    obtain ⟨-, rfl⟩ := Prod.mk.inj he
    have := ih hb
    rw [List.length_cons]
    omega

theorem splitAtClose?_length {cs path after : List Char} (h : splitAtClose? cs = some (path, after)) :
    after.length < cs.length := by
  induction cs generalizing path after with
  | nil => simp [splitAtClose?] at h
  | cons c rest ih =>
    rw [splitAtClose?] at h
    split at h
    · simp only [Option.some.injEq, Prod.mk.injEq] at h
      simp [← h.2]
    · rw [Option.map_eq_some_iff] at h
      obtain ⟨⟨p, a⟩, hp, he⟩ := h
      simp only [Prod.mk.injEq] at he
      have := @ih p a hp
      rw [← he.2]
      simp
      omega

/-- A range of bytes as a literal piece, unless it is empty. -/
def literalRange (start stop : Nat) : List Piece := if start < stop then [.literal start stop] else []

/-- Cut a text of `size` bytes into pieces. The literal piece that is being read starts at the byte `start`; the
next opening is looked for in `rest`, which is the text from the byte `cursor` on. -/
def piecesFrom (size start cursor : Nat) (rest : List Char) : List Piece :=
  match _ho : splitAtOpening? rest with
  | none => literalRange start size
  | some (before, body) =>
    let opening := cursor + byteLength before
    match _hc : splitAtClose? body with
    | none => literalRange start size
    | some (path, after) =>
      let close := opening + 2 + byteLength path
      if close = opening + 2 then piecesFrom size start (close + 1) after
      else literalRange start opening ++
        .placeholder (String.ofList path) :: piecesFrom size (close + 1) (close + 1) after
termination_by rest.length
decreasing_by
  all_goals
    have := splitAtOpening?_length _ho
    have := splitAtClose?_length _hc
    omega

/-- The pieces of a text. -/
def tokenize (text : String) : List Piece := piecesFrom (byteLength text.toList) 0 0 text.toList

/-! ## The shown text of a value -/

/-- Numbers are shown positionally, without a fraction if they are integral. -/
def shownLayout : Layout := ⟨none, none, "", ""⟩

def numberText : Number → String
  | .integer n => toString n
  | .real x => shownLayout.text .double x

mutual
/-- The text of a value inside an array: nothing for null, a bracketed word for an object, and an array's
entries joined by commas. -/
def entryText : Value → String
  | .null => ""
  | .bool b => if b then "true" else "false"
  | .number n => numberText n
  | .string s => s
  | .array items => String.intercalate "," (entryTexts items)
  | .object _ => "[object Object]"

def entryTexts : List Value → List String
  | [] => []
  | v :: rest => entryText v :: entryTexts rest
end

/-- The shown text of a value: nothing for null, false and zero, else its text as an array entry. -/
def displayText : Value → String
  | .bool false => ""
  | .number n => if n.isZero then "" else numberText n
  | v => entryText v

/-! ## Putting the pieces together -/

/-- The characters in the first `n` bytes of a text and those behind; none if the text is shorter or a character lies
across the border. -/
def splitAtByte? : Nat → List Char → Option (List Char × List Char)
  | 0, cs => some ([], cs)
  | _ + 1, [] => none
  | n + 1, c :: rest =>
    if c.utf8Size ≤ n + 1 then
      (splitAtByte? (n + 1 - c.utf8Size) rest).map fun (before, after) => (c :: before, after)
    else none

/-- The characters in a range of bytes of a text; none if the range does not begin and end between characters. -/
def slice? (cs : List Char) (start stop : Nat) : Option (List Char) :=
  if start ≤ stop then do
    let (_, rest) ← splitAtByte? start cs
    let (piece, _) ← splitAtByte? (stop - start) rest
    return piece
  else none

/-- The text of a piece once its path is looked up in an item; a path that leads nowhere shows nothing. -/
def Piece.fill? (cs : List Char) (item : Value) : Piece → Option String
  | .literal start stop => (slice? cs start stop).map String.ofList
  | .placeholder path => some (((item.lookup path).map displayText).getD "")

/-- What replacing placeholders gives: the given text itself, or a new one. -/
inductive Resolved where
  | borrowed
  | owned (text : String)
  deriving DecidableEq, Repr

def Resolved.text (given : String) : Resolved → String
  | borrowed => given
  | owned text => text

/-- Put the filled pieces of a text together; a text without placeholders stays as it is. -/
def assemble? (text : String) (item : Value) (pieces : List Piece) : Option Resolved :=
  if pieces.any Piece.isPlaceholder then
    (pieces.mapM (Piece.fill? text.toList item)).map fun parts => .owned (String.join parts)
  else some .borrowed

/-- Replace every placeholder of a text by the shown text of the value at its path. A text without openings is not
even cut into pieces. -/
def resolve? (text : String) (item : Value) : Option Resolved :=
  if (splitAtOpening? text.toList).isSome then assemble? text item (tokenize text) else some .borrowed

/-! ## Remembered texts -/

/-- Texts that were cut into pieces before, with their pieces. -/
structure TokenCache where
  entries : List (String × List Piece) := []

namespace TokenCache

/-- The pieces of a text, from memory if it was seen before, and the memory afterwards. -/
def tokenize (cache : TokenCache) (text : String) : List Piece × TokenCache :=
  match cache.entries.find? (·.1 == text) with
  | some (_, pieces) => (pieces, cache)
  | none =>
    let pieces := Template.tokenize text
    (pieces, ⟨(text, pieces) :: cache.entries⟩)

/-- Replace the placeholders of a text, with its pieces from memory if it was seen before. -/
def resolve? (cache : TokenCache) (text : String) (item : Value) : Option Resolved × TokenCache :=
  if (splitAtOpening? text.toList).isSome then
    let (pieces, cache) := cache.tokenize text
    (assemble? text item pieces, cache)
  else (some .borrowed, cache)

/-- How many texts are remembered. -/
def size (cache : TokenCache) : Nat := cache.entries.length

end TokenCache

end Hypertemplate.Template
