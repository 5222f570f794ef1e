import Hypertemplate.Html.Token
import Hypertemplate.Html.Entity

/-!
# Cutting a page into tokens

`lex` reads the next tokens at the front of a text in a given mode and returns what is left. Malformed
markup is never an error: a tag that is not closed before the end of the text is dropped, a `<` that opens
nothing is a character, and a comment or declaration ends with the text at the latest.
-/

namespace Hypertemplate.Html

open Hypertemplate.Text

/-- Carriage returns, alone or before a line feed, become line feeds. -/
def normalizeNewlines : List Char → List Char
  | [] => []
  | '\r' :: '\n' :: rest => '\n' :: normalizeNewlines rest
  | '\r' :: rest => '\n' :: normalizeNewlines rest
  | c :: rest => c :: normalizeNewlines rest

/-- The characters of a page: line ends normalized, one byte order mark at the start dropped. -/
def pageCharacters (text : String) : List Char :=
  normalizeNewlines (match text.toList with
    | '\ufeff' :: rest => rest
    | cs => cs)

/-- Tab, line feed, form feed or space. -/
def isSpace (c : Char) : Bool := c == '\t' || c == '\n' || c == '\x0c' || c == ' '

/-- The character in a name, a value or raw text: null is replaced. -/
def visibleChar (c : Char) : Char := if c = '\x00' then '\ufffd' else c

def nameChar (c : Char) : Char := visibleChar c.toLower

def visibleText (cs : List Char) : String := String.ofList (cs.map visibleChar)

/-! ## Character references -/

/-- What the numbers 128 to 159 stand for in a character reference. -/
def windowsCharacter (n : Nat) : Nat :=
  [0x20AC, 0x81, 0x201A, 0x0192, 0x201E, 0x2026, 0x2020, 0x2021, 0x02C6, 0x2030, 0x0160, 0x2039,
    0x0152, 0x8D, 0x017D, 0x8F, 0x90, 0x2018, 0x2019, 0x201C, 0x201D, 0x2022, 0x2013, 0x2014,
    0x02DC, 0x2122, 0x0161, 0x203A, 0x0153, 0x9D, 0x017E, 0x0178].getD (n - 0x80) n

/-- The character that a number in a reference stands for. -/
def referencedChar (n : Nat) : Char :=
  if n = 0 ∨ 0x10FFFF < n ∨ (0xD800 ≤ n ∧ n ≤ 0xDFFF) then '\ufffd'
  else if 0x80 ≤ n ∧ n ≤ 0x9F then Char.ofNat (windowsCharacter n)
  else Char.ofNat n

/-- A number in a base, held at its first value past the last code point. -/
def boundedNumber (base : Nat) (digits : List Char) : Nat :=
  digits.foldl (fun n c => if 0x10FFFF < n then n else n * base + digitValue c) 0

/-- Drop one semicolon at the front. -/
def dropSemicolon : List Char → List Char
  | ';' :: rest => rest
  | cs => cs

/-- The digits at the front of a numeric reference and the character they stand for. -/
def numericReference? (base : Nat) (isDigit : Char → Bool) (cs : List Char) :
    Option (List Char × List Char) :=
  let digits := cs.takeWhile isDigit
  if digits.isEmpty then none
  else some ([referencedChar (boundedNumber base digits)], dropSemicolon (cs.dropWhile isDigit))

/-- Whether a reference is the longest so far that stands at the front of a text. -/
def betterReference (cs : List Char) (best : Option (Nat × Bool × List Char)) (r : NamedReference) :
    Option (Nat × Bool × List Char) :=
  if r.name.isPrefixOf cs then
    let n := r.name.length
    let closed := (cs.drop n).head? == some ';'
    if !closed && !r.bare then best
    else
      let length := if closed then n + 1 else n
      match best with
      | some (m, _, _) => if m < length then some (length, closed, r.characters) else best
      | none => some (length, closed, r.characters)
  else best

/-- The longest name at the front of a text. In an attribute a name without semicolon is no reference if a
letter, a digit or an equals sign follows. -/
def namedReference? (inAttribute : Bool) (cs : List Char) : Option (List Char × List Char) :=
  match cs with
  | [] => none
  | c :: _ =>
    match (referencesFrom c).foldl (betterReference cs) none with
    | none => none
    | some (length, closed, characters) =>
      let rest := cs.drop length
      let glued := (rest.head?.map fun x => x.isAlphanum || x == '=').getD false
      if inAttribute && !closed && glued then none else some (characters, rest)

/-- The characters that stand for the reference after an ampersand, and what is left. -/
def characterReference? (inAttribute : Bool) : List Char → Option (List Char × List Char)
  | '#' :: 'x' :: rest => numericReference? 16 isHexDigit rest
  | '#' :: 'X' :: rest => numericReference? 16 isHexDigit rest
  | '#' :: rest => numericReference? 10 Char.isDigit rest
  | cs => namedReference? inAttribute cs

theorem dropSemicolon_length (cs : List Char) : (dropSemicolon cs).length ≤ cs.length := by
  unfold dropSemicolon
  split
  · simp
  · exact Nat.le_refl _

theorem numericReference?_length {base : Nat} {isDigit : Char → Bool} {cs out rest : List Char}
    (h : numericReference? base isDigit cs = some (out, rest)) : rest.length ≤ cs.length := by
  simp only [numericReference?] at h
  split at h
  · simp at h
  · simp only [Option.some.injEq, Prod.mk.injEq] at h
    have h₁ := dropSemicolon_length (cs.dropWhile isDigit)
    have h₂ : (cs.dropWhile isDigit).length ≤ cs.length := (List.dropWhile_sublist _).length_le
    rw [← h.2]
    omega

theorem namedReference?_length {inAttribute : Bool} {cs out rest : List Char}
    (h : namedReference? inAttribute cs = some (out, rest)) : rest.length ≤ cs.length := by
  cases cs with
  | nil => simp [namedReference?] at h
  | cons c tail =>
    unfold namedReference? at h
    cases hb : (referencesFrom c).foldl (betterReference (c :: tail)) none with
    | none => simp [hb] at h
    | some best =>
      simp only [hb, Option.ite_none_left_eq_some, Option.some.injEq, Prod.mk.injEq] at h
      rw [← h.2.2]
      simp

theorem characterReference?_length {inAttribute : Bool} {cs out rest : List Char}
    (h : characterReference? inAttribute cs = some (out, rest)) : rest.length ≤ cs.length := by
  unfold characterReference? at h
  split at h
  · have := numericReference?_length h; simp; omega
  · have := numericReference?_length h; simp; omega
  · have := numericReference?_length h; simp; omega
  · exact namedReference?_length h

/-! ## Tags -/

/-- The text up to the end of an attribute value, with its references resolved, and what is left; none if
the text ends first. A quoted value ends at its quote, which is dropped; an unquoted one before a space or
`>`. -/
def attributeValue? (quote : Option Char) (acc : List Char) (cs : List Char) :
    Option (String × List Char) :=
  match cs with
  | [] => none
  | c :: rest =>
    if quote = some c then some (String.ofList acc.reverse, rest)
    else if quote = none ∧ (isSpace c ∨ c = '>') then some (String.ofList acc.reverse, c :: rest)
    else if c = '&' then
      match _h : characterReference? true rest with
      | some (out, rest') => attributeValue? quote (out.reverse ++ acc) rest'
      | none => attributeValue? quote ('&' :: acc) rest
    else attributeValue? quote (visibleChar c :: acc) rest
termination_by cs.length
decreasing_by
  · have := characterReference?_length _h; simp; omega
  · simp
  · simp

theorem attributeValue?_length {quote : Option Char} {acc cs rest : List Char} {v : String}
    (h : attributeValue? quote acc cs = some (v, rest)) : rest.length ≤ cs.length := by
  fun_induction attributeValue? quote acc cs with
  | case1 => simp at h
  | case2 acc c rest' hq => simp only [Option.some.injEq, Prod.mk.injEq] at h; simp [← h.2]
  | case3 acc c rest' hq hs => simp only [Option.some.injEq, Prod.mk.injEq] at h; simp [← h.2]
  | case4 acc tail out after _h _ _ ih =>
    have := ih h
    have := characterReference?_length _h
    simp; omega
  | case5 acc tail _ _ _ ih => have := ih h; simp; omega
  | case6 acc c rest' _ _ _ ih => have := ih h; simp; omega

/-- Whether a character ends an attribute's name. -/
def endsName (c : Char) : Bool := isSpace c || c == '/' || c == '>' || c == '='

/-- Add an attribute unless its name is there already. -/
def addAttribute (name value : String) (attributes : List (String × String)) :
    List (String × String) :=
  if attributes.any (·.1 == name) then attributes else attributes ++ [(name, value)]

/-- The value that follows an attribute's name: after an equals sign, else empty. -/
def valueAfterName? (cs : List Char) : Option (String × List Char) :=
  match cs.dropWhile isSpace with
  | '=' :: rest =>
    match rest.dropWhile isSpace with
    | '"' :: rest => attributeValue? (some '"') [] rest
    | '\'' :: rest => attributeValue? (some '\'') [] rest
    | '>' :: rest => some ("", '>' :: rest)
    | rest => attributeValue? none [] rest
  | rest => some ("", rest)

theorem valueAfterName?_length {cs rest : List Char} {v : String}
    (h : valueAfterName? cs = some (v, rest)) : rest.length ≤ cs.length := by
  have h₁ : (cs.dropWhile isSpace).length ≤ cs.length := (List.dropWhile_sublist _).length_le
  unfold valueAfterName? at h
  split at h
  · rename_i tail heq
    have h₂ : (tail.dropWhile isSpace).length ≤ tail.length := (List.dropWhile_sublist _).length_le
    rw [heq] at h₁
    simp at h₁
    split at h
    · rename_i t₂ h₃; have := attributeValue?_length h; rw [h₃] at h₂; simp at h₂; omega
    · rename_i t₂ h₃; have := attributeValue?_length h; rw [h₃] at h₂; simp at h₂; omega
    · rename_i t₂ h₃
      simp only [Option.some.injEq, Prod.mk.injEq] at h
      rw [← h.2, ← h₃]; omega
    · have := attributeValue?_length h; omega
  · simp only [Option.some.injEq, Prod.mk.injEq] at h
    rw [← h.2]; omega

/-- The attributes of a tag after its name, whether it closes itself, and what is left; none if the text
ends inside the tag. -/
def attributes? (acc : List (String × String)) (cs : List Char) :
    Option (List (String × String) × Bool × List Char) :=
  match cs with
  | [] => none
  | c :: rest =>
    if isSpace c then attributes? acc rest
    else if c = '>' then some (acc, false, rest)
    else if c = '/' then
      match rest with
      | '>' :: rest => some (acc, true, rest)
      | rest => attributes? acc rest
    else
      let name := c :: rest.takeWhile (!endsName ·)
      match _h : valueAfterName? (rest.dropWhile (!endsName ·)) with
      | none => none
      | some (value, rest') =>
        attributes? (addAttribute (String.ofList (name.map nameChar)) value acc) rest'
termination_by cs.length
decreasing_by
  · simp
  · simp
  · have h₁ := valueAfterName?_length _h
    have h₂ : (rest.dropWhile (!endsName ·)).length ≤ rest.length :=
      (List.dropWhile_sublist _).length_le
    simp; omega

def endsTagName (c : Char) : Bool := isSpace c || c == '/' || c == '>'

/-- The rest of a tag from the first letter of its name: the name, the attributes, whether it closes
itself, and what is left; none if the text ends inside the tag. -/
def tag? (cs : List Char) : Option (Tag × List Char) :=
  let name := String.ofList ((cs.takeWhile (!endsTagName ·)).map nameChar)
  (attributes? [] (cs.dropWhile (!endsTagName ·))).map fun (attributes, selfClosing, rest) =>
    ({ name, attributes, selfClosing }, rest)

/-! ## Comments and declarations -/

/-- The text up to `>` and what is left after it. -/
def bogusComment (cs : List Char) : String × List Char :=
  (visibleText (cs.takeWhile (· != '>')), (cs.dropWhile (· != '>')).drop 1)

/-- The text of a comment up to its end and what is left; `acc` holds the text so far, last first. The
hyphens that end a comment are no part of it. -/
def commentBody (acc : List Char) : List Char → String × List Char
  | [] => (visibleText acc.reverse, [])
  | '-' :: '-' :: '>' :: rest => (visibleText acc.reverse, rest)
  | '-' :: '-' :: '!' :: '>' :: rest => (visibleText acc.reverse, rest)
  | ['-'] => (visibleText acc.reverse, [])
  | ['-', '-'] => (visibleText acc.reverse, [])
  | ['-', '-', '!'] => (visibleText acc.reverse, [])
  | c :: rest => commentBody (c :: acc) rest

/-- A comment after its opening: `>` and `->` close it at once. -/
def comment : List Char → String × List Char
  | '>' :: rest => ("", rest)
  | '-' :: '>' :: rest => ("", rest)
  | cs => commentBody [] cs

/-- Whether a text starts with a word, in any letter case. -/
def startsWithWord (word : String) (cs : List Char) : Bool :=
  (cs.take word.length).map Char.toLower == word.toList

/-- What ends a declaration without more parts: everything up to `>` is dropped. -/
def bogusDoctype (d : Doctype) (cs : List Char) : Doctype × List Char :=
  (d, (cs.dropWhile (· != '>')).drop 1)

def Doctype.spoiled (d : Doctype) : Doctype := { d with malformed := true }

/-- A quoted identifier up to its quote; `>` and the end of the text cut it off. -/
inductive Identifier where
  | closed (text : String) (rest : List Char)
  | cut (text : String) (rest : List Char)

def identifier (quote : Char) (acc : List Char) : List Char → Identifier
  | [] => .cut (visibleText acc.reverse) []
  | c :: rest =>
    if c = quote then .closed (visibleText acc.reverse) rest
    else if c = '>' then .cut (visibleText acc.reverse) rest
    else identifier quote (c :: acc) rest

/-- What follows the system identifier. -/
def afterSystemId (d : Doctype) (cs : List Char) : Doctype × List Char :=
  match cs.dropWhile isSpace with
  | [] => (d.spoiled, [])
  | '>' :: rest => (d, rest)
  | rest => bogusDoctype d rest

/-- The system identifier after its quote. -/
def systemId (d : Doctype) (quote : Char) (cs : List Char) : Doctype × List Char :=
  match identifier quote [] cs with
  | .closed text rest => afterSystemId { d with systemId := some text } rest
  | .cut text rest => ({ d with systemId := some text }.spoiled, rest)

/-- What follows the public identifier: the end, a system identifier, or nothing sensible. -/
def afterPublicId (d : Doctype) (cs : List Char) : Doctype × List Char :=
  match cs.dropWhile isSpace with
  | [] => (d.spoiled, [])
  | '>' :: rest => (d, rest)
  | '"' :: rest => systemId d '"' rest
  | '\'' :: rest => systemId d '\'' rest
  | rest => bogusDoctype d.spoiled rest

/-- The public identifier after its quote. -/
def publicId (d : Doctype) (quote : Char) (cs : List Char) : Doctype × List Char :=
  match identifier quote [] cs with
  | .closed text rest => afterPublicId { d with publicId := some text } rest
  | .cut text rest => ({ d with publicId := some text }.spoiled, rest)

/-- What follows the keyword before an identifier. -/
def afterKeyword (read : Doctype → Char → List Char → Doctype × List Char) (d : Doctype)
    (cs : List Char) : Doctype × List Char :=
  match cs.dropWhile isSpace with
  | [] => (d.spoiled, [])
  | '>' :: rest => (d.spoiled, rest)
  | '"' :: rest => read d '"' rest
  | '\'' :: rest => read d '\'' rest
  | rest => bogusDoctype d.spoiled rest

/-- What follows the name of a document type. -/
def afterDoctypeName (d : Doctype) (cs : List Char) : Doctype × List Char :=
  match cs.dropWhile isSpace with
  | [] => (d.spoiled, [])
  | '>' :: rest => (d, rest)
  | rest =>
    if startsWithWord "public" rest then afterKeyword publicId d (rest.drop 6)
    else if startsWithWord "system" rest then afterKeyword systemId d (rest.drop 6)
    else bogusDoctype d.spoiled rest

/-- A document type declaration after its keyword. -/
def doctype (cs : List Char) : Doctype × List Char :=
  match cs.dropWhile isSpace with
  | [] => ({ malformed := true }, [])
  | '>' :: rest => ({ malformed := true }, rest)
  | c :: rest =>
    let ends (x : Char) : Bool := isSpace x || x == '>'
    let name := c :: rest.takeWhile (!ends ·)
    afterDoctypeName { name := some (String.ofList (name.map nameChar)) } (rest.dropWhile (!ends ·))

/-! ## Text -/

def textToken (c : Char) : Token := if c = '\x00' then .nullChar else .char c

def rawToken (c : Char) : Token := .char (visibleChar c)

/-- The characters of a marked section up to its end, and what is left. -/
def markedSection : List Char → List Char × List Char
  | [] => ([], [])
  | ']' :: ']' :: '>' :: rest => ([], rest)
  | c :: rest =>
    let (cs, rest) := markedSection rest
    (c :: cs, rest)

/-- Tokens, the mode for the characters behind them, and what is left of the text. -/
structure Lexed where
  tokens : List Token
  mode : ReadMode
  rest : List Char

/-- What follows `<!`: a comment, a document type, a marked section if these are allowed, else a comment
up to `>`. -/
def declaration (sections : Bool) (cs : List Char) : List Token × List Char :=
  if ['-', '-'].isPrefixOf cs then
    let (text, rest) := comment (cs.drop 2)
    ([.comment text], rest)
  else if startsWithWord "doctype" cs then
    let (d, rest) := doctype (cs.drop 7)
    ([.doctype d], rest)
  else if sections && "[CDATA[".toList.isPrefixOf cs then
    let (text, rest) := markedSection (cs.drop 7)
    (text.map textToken, rest)
  else
    let (text, rest) := bogusComment cs
    ([.comment text], rest)

/-- What follows `<` in text. -/
def markup (sections : Bool) (cs : List Char) : List Token × List Char :=
  match cs with
  | '!' :: rest => declaration sections rest
  | '?' :: _ =>
    let (text, rest) := bogusComment cs
    ([.comment text], rest)
  | '/' :: c :: rest =>
    if c.isAlpha then
      match tag? (c :: rest) with
      | some (t, rest) => ([.endTag t.name], rest)
      | none => ([], [])
    else if c = '>' then ([], rest)
    else
      let (text, rest) := bogusComment (c :: rest)
      ([.comment text], rest)
  | c :: rest =>
    if c.isAlpha then
      match tag? (c :: rest) with
      | some (t, rest) => ([.startTag t], rest)
      | none => ([], [])
    else ([.char '<'], c :: rest)
  | [] => ([.char '<'], [])

/-- The end tag of an element at the front of a text after `<`: what is left after it. If the text ends
inside the tag nothing is left. -/
def endTagOf? (element : String) (cs : List Char) : Option (List Token × List Char) :=
  match cs with
  | '/' :: rest =>
    let n := element.length
    if startsWithWord element rest && ((rest.drop n).head?.map endsTagName).getD false then
      match attributes? [] (rest.drop n) with
      | some (_, _, rest) => some ([.endTag element], rest)
      | none => some ([], [])
    else none
  | _ => none

/-- Whether the word `script` and a character that ends a tag's name stand at the front of a text, and the
text up to and with that character. -/
def nestedScript? (cs : List Char) : Option (List Char × List Char) :=
  if startsWithWord "script" cs && ((cs.drop 6).head?.map endsTagName).getD false then
    some (cs.take 7, cs.drop 7)
  else none

/-- One character of a script, by the part it is in. -/
def scriptChar (part : ScriptPart) (c : Char) : Lexed :=
  let next : ScriptPart := match part, c with
    | .plain, _ => .plain
    | .escaped n, '-' => .escaped (min 2 (n + 1))
    | .escaped 2, '>' => .plain
    | .escaped _, _ => .escaped 0
    | .nested n, '-' => .nested (min 2 (n + 1))
    | .nested 2, '>' => .plain
    | .nested _, _ => .nested 0
  ⟨[rawToken c], .script next, []⟩

/-- What follows `<` in a script. -/
def scriptMarkup (part : ScriptPart) (cs : List Char) : Lexed :=
  match part with
  | .plain =>
    match endTagOf? "script" cs with
    | some (tokens, rest) => ⟨tokens, .data, rest⟩
    | none =>
      if ['!', '-', '-'].isPrefixOf cs then
        ⟨['<', '!', '-', '-'].map Token.char, .script (.escaped 2), cs.drop 3⟩
      else ⟨[.char '<'], .script .plain, cs⟩
  | .escaped _ =>
    match endTagOf? "script" cs with
    | some (tokens, rest) => ⟨tokens, .data, rest⟩
    | none =>
      match nestedScript? cs with
      | some (text, rest) => ⟨('<' :: text).map Token.char, .script (.nested 0), rest⟩
      | none => ⟨[.char '<'], .script (.escaped 0), cs⟩
  | .nested _ =>
    match cs with
    | '/' :: rest =>
      match nestedScript? rest with
      | some (text, rest) => ⟨('<' :: '/' :: text).map Token.char, .script (.escaped 0), rest⟩
      | none => ⟨[.char '<'], .script (.nested 0), cs⟩
    | _ => ⟨[.char '<'], .script (.nested 0), cs⟩

/-- The tokens at the front of a text that is not empty. `sections` allows marked sections. -/
def lex (mode : ReadMode) (sections : Bool) (c : Char) (rest : List Char) : Lexed :=
  match mode with
  | .data =>
    if c = '<' then
      let (tokens, rest) := markup sections rest
      ⟨tokens, .data, rest⟩
    else if c = '&' then
      match characterReference? false rest with
      | some (out, rest) => ⟨out.map Token.char, .data, rest⟩
      | none => ⟨[.char '&'], .data, rest⟩
    else ⟨[textToken c], .data, rest⟩
  | .escapableRaw element =>
    if c = '<' then
      match endTagOf? element rest with
      | some (tokens, rest) => ⟨tokens, .data, rest⟩
      | none => ⟨[.char '<'], mode, rest⟩
    else if c = '&' then
      match characterReference? false rest with
      | some (out, rest) => ⟨out.map Token.char, mode, rest⟩
      | none => ⟨[.char '&'], mode, rest⟩
    else ⟨[rawToken c], mode, rest⟩
  | .raw element =>
    if c = '<' then
      match endTagOf? element rest with
      | some (tokens, rest) => ⟨tokens, .data, rest⟩
      | none => ⟨[.char '<'], mode, rest⟩
    else ⟨[rawToken c], mode, rest⟩
  | .script part =>
    if c = '<' then scriptMarkup part rest else { scriptChar part c with rest }
  | .plaintext => ⟨[rawToken c], .plaintext, rest⟩

end Hypertemplate.Html
