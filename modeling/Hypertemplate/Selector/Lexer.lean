import Hypertemplate.Selector.Token
import Hypertemplate.Text.Digits
import Hypertemplate.Text.Blank

/-!
# Cutting a selector into tokens

Every text can be cut: what fits no other token is a delimiter. Names may hold any character behind a
backslash; a backslash before hexadecimal digits names a code point.
-/

namespace Hypertemplate.Selector

open Hypertemplate.Decimal Hypertemplate.Text

def isLineEnd (c : Char) : Bool := c == '\n' || c == '\r' || c == '\x0c'

def isNameStart (c : Char) : Bool := c.isAlpha || c == '_' || c == '\x00' || 0x80 ≤ c.toNat

def isNameChar (c : Char) : Bool := isNameStart c || c.isDigit || c == '-'

/-- Null characters are replaced. -/
def visibleChar (c : Char) : Char := if c = '\x00' then '\ufffd' else c

/-- Drop a line end, which may be two characters. -/
def dropLineEnd : List Char → List Char
  | '\r' :: '\n' :: rest => rest
  | _ :: rest => rest
  | [] => []

/-- Drop one blank after the digits of an escape. -/
def dropBlank (cs : List Char) : List Char :=
  if (cs.head?.map isAsciiBlank).getD false then dropLineEnd cs else cs

/-! ## Names -/

/-- The character that a backslash before `cs` stands for, and what is left. -/
def escape (cs : List Char) : Char × List Char :=
  match cs with
  | [] => ('\ufffd', [])
  | c :: rest =>
    if isHexDigit c then
      let digits := (cs.take 6).takeWhile isHexDigit
      let n := numberIn 16 digits
      (if n = 0 then '\ufffd' else if n.isValidChar then Char.ofNat n else '\ufffd',
        dropBlank (cs.drop digits.length))
    else (visibleChar c, rest)

/-- Whether a backslash before `cs` starts an escape. -/
def isEscape (cs : List Char) : Bool := !(cs.head?.map isLineEnd).getD false

/-- Whether a name starts here. -/
def startsName (cs : List Char) : Bool :=
  match cs with
  | '-' :: '\\' :: _ => true
  | '-' :: c :: _ => isNameStart c || c == '-'
  | '\\' :: rest => isEscape rest
  | c :: _ => isNameStart c
  | [] => false

/-- The rest of a name and what is left; `bound` limits its characters. -/
def nameFrom : (bound : Nat) → List Char → List Char × List Char
  | 0, cs => ([], cs)
  | _ + 1, [] => ([], [])
  | bound + 1, c :: rest =>
    if isNameChar c then
      let (name, left) := nameFrom bound rest
      (visibleChar c :: name, left)
    else if c = '\\' ∧ isEscape rest then
      let (x, rest) := escape rest
      let (name, left) := nameFrom bound rest
      (x :: name, left)
    else ([], c :: rest)

/-- A name and what is left. -/
def name (cs : List Char) : String × List Char :=
  let (n, rest) := nameFrom cs.length cs
  (String.ofList n, rest)

/-! ## Strings and addresses -/

/-- A string after its quote: whether it is closed before a line end, its text and what is left. -/
def stringFrom (quote : Char) : (bound : Nat) → List Char → Bool × List Char × List Char
  | 0, cs => (true, [], cs)
  | _ + 1, [] => (true, [], [])
  | bound + 1, c :: rest =>
    if c = quote then (true, [], rest)
    else if isLineEnd c then (false, [], c :: rest)
    else if c = '\\' then
      match rest with
      | [] => (true, [], [])
      | x :: _ =>
        if isLineEnd x then stringFrom quote bound (dropLineEnd rest)
        else
          let (x, rest) := escape rest
          let (ok, text, left) := stringFrom quote bound rest
          (ok, x :: text, left)
    else
      let (ok, text, left) := stringFrom quote bound rest
      (ok, visibleChar c :: text, left)

def stringToken (quote : Char) (cs : List Char) : Token × List Char :=
  let (ok, text, rest) := stringFrom quote cs.length cs
  (if ok then .quotedString (String.ofList text) else .badString (String.ofList text), rest)

/-- The characters of a broken address up to its parenthesis, and what is left after it. -/
def badUrlFrom : List Char → List Char × List Char
  | [] => ([], [])
  | ')' :: rest => ([], rest)
  | '\\' :: c :: rest =>
    let skips := c = ')' ∨ c = '\\'
    let (text, left) := badUrlFrom (if skips then rest else c :: rest)
    (if skips then '\\' :: c :: text else '\\' :: text, left)
  | c :: rest =>
    let (text, left) := badUrlFrom rest
    (c :: text, left)
termination_by cs => cs.length
decreasing_by
  · split <;> simp only [List.length_cons] <;> omega
  · simp

/-- A broken address that starts with `start`. -/
def badUrl (start : List Char) : Token × List Char :=
  let (text, rest) := badUrlFrom start
  (.badUrl (String.ofList text), rest)

/-- Characters that an address without quotes may not hold. -/
def breaksUrl (c : Char) : Bool :=
  let n := c.toNat
  (1 ≤ n && n ≤ 8) || n == 0x0B || (0x0E ≤ n && n ≤ 0x1F) || n == 0x7F || c == '"' || c == '\'' ||
    c == '('

/-- An address without quotes after its blanks; `start` is where it starts. -/
def urlFrom (start : List Char) : (bound : Nat) → (acc : List Char) → List Char → Token × List Char
  | 0, acc, cs => (.url (String.ofList acc.reverse), cs)
  | _ + 1, acc, [] => (.url (String.ofList acc.reverse), [])
  | bound + 1, acc, c :: rest =>
    if c = ')' then (.url (String.ofList acc.reverse), rest)
    else if isAsciiBlank c then
      match rest.dropWhile isAsciiBlank with
      | [] => (.url (String.ofList acc.reverse), [])
      | ')' :: rest => (.url (String.ofList acc.reverse), rest)
      | _ => badUrl start
    else if breaksUrl c then badUrl start
    else if c = '\\' then
      if isEscape rest then
        let (x, rest) := escape rest
        urlFrom start bound (x :: acc) rest
      else badUrl start
    else urlFrom start bound (visibleChar c :: acc) rest

/-- An address after `url(`; none if it is a quoted one, which makes this a function. -/
def url? (cs : List Char) : Option (Token × List Char) :=
  match cs.dropWhile isAsciiBlank with
  | '"' :: _ => none
  | '\'' :: _ => none
  | cs => some (urlFrom cs cs.length [] cs)

/-- A name, a function or an address. -/
def nameLike (cs : List Char) : Token × List Char :=
  match name cs with
  | (n, '(' :: rest) =>
    if eqIgnoringCase n "url" then (url? rest).getD (.function n, rest) else (.function n, rest)
  | (n, rest) => (.ident n, rest)

/-! ## Numbers -/

/-- Whether a number starts here, after its sign if it has one. -/
def startsDigits : List Char → Bool
  | '.' :: c :: _ => c.isDigit
  | c :: _ => c.isDigit
  | [] => false

/-- The exponent of a number and what is left. -/
def exponent (cs : List Char) : Option (Int × List Char) :=
  let digits (negative : Bool) (cs : List Char) : Option (Int × List Char) :=
    let ds := cs.takeWhile Char.isDigit
    if ds.isEmpty then none
    else
      let n : Int := numberIn 10 ds
      some (if negative then -n else n, cs.drop ds.length)
  match cs with
  | c :: rest =>
    if c = 'e' ∨ c = 'E' then
      match rest with
      | '-' :: rest => digits true rest
      | '+' :: rest => digits false rest
      | rest => digits false rest
    else none
  | [] => none

/-- An integer held between the bounds of 32 bits. -/
def clamp (n : Int) : Int := max (-2147483648) (min 2147483647 n)

/-- A number, a percentage or a number with a unit. -/
def numeric (cs : List Char) : Token × List Char :=
  let (signed, negative, cs) := match cs with
    | '-' :: rest => (true, true, rest)
    | '+' :: rest => (true, false, rest)
    | _ => (false, false, cs)
  let whole := cs.takeWhile Char.isDigit
  let cs := cs.drop whole.length
  let fraction := match cs with
    | '.' :: rest => rest.takeWhile Char.isDigit
    | _ => []
  let cs := if fraction.isEmpty then cs else cs.drop (fraction.length + 1)
  let (power, hasPower, cs) := match exponent cs with
    | some (e, rest) => (e, true, rest)
    | none => (0, false, cs)
  let digits := numberIn 10 (whole ++ fraction)
  let scale := power - fraction.length
  let integer : Int := if negative then -(digits : Int) else digits
  let n (shift : Int) : Numeric :=
    { signed, negative
      value := Format.single.ofDecimal? negative digits (scale + shift)
      whole := if fraction.isEmpty && !hasPower then some (clamp integer) else none }
  match cs with
  | '%' :: rest => (.percentage (n (-2)), rest)
  | cs =>
    if startsName cs then
      let (unit, rest) := name cs
      (.dimension (n 0) unit, rest)
    else (.number (n 0), cs)

/-! ## Tokens -/

/-- What is left after a comment. -/
def afterComment : List Char → List Char
  | '*' :: '/' :: rest => rest
  | _ :: rest => afterComment rest
  | [] => []

/-- Delimiters that an equals sign turns into another token. -/
def withEquals (t : Token) (c : Char) (rest : List Char) : Token × List Char :=
  match rest with
  | '=' :: rest => (t, rest)
  | rest => (.delim c, rest)

/-- The token at the front of a text that starts with `c`. -/
def token (c : Char) (rest : List Char) : Token × List Char :=
  let cs := c :: rest
  if isAsciiBlank c then
    (.blank (String.ofList (cs.takeWhile isAsciiBlank)), cs.dropWhile isAsciiBlank)
  else if c.isDigit then numeric cs
  else if isNameStart c then nameLike cs
  else match c with
    | '"' => stringToken '"' rest
    | '\'' => stringToken '\'' rest
    | '#' =>
      if startsName rest then
        let (n, rest) := name rest
        (.idHash n, rest)
      else if (rest.head?.map fun x => x.isDigit || x == '-').getD false then
        let (n, rest) := name rest
        (.hash n, rest)
      else (.delim c, rest)
    | '$' => withEquals .endMatch c rest
    | '*' => withEquals .substringMatch c rest
    | '^' => withEquals .startMatch c rest
    | '|' => withEquals .dashMatch c rest
    | '~' => withEquals .includeMatch c rest
    | '(' => (.openParenthesis, rest)
    | ')' => (.closeParenthesis, rest)
    | '[' => (.openSquare, rest)
    | ']' => (.closeSquare, rest)
    | '\x7b' => (.openCurly, rest)
    | '\x7d' => (.closeCurly, rest)
    | ',' => (.comma, rest)
    | ':' => (.colon, rest)
    | ';' => (.semicolon, rest)
    | '+' => if startsDigits rest then numeric cs else (.delim c, rest)
    | '-' =>
      if startsDigits rest then numeric cs
      else match rest with
        | '-' :: '>' :: rest => (.commentClose, rest)
        | _ => if startsName cs then nameLike cs else (.delim c, rest)
    | '.' => if startsDigits cs then numeric cs else (.delim c, rest)
    | '/' =>
      match rest with
      | '*' :: rest => (.comment, afterComment rest)
      | _ => (.delim c, rest)
    | '<' =>
      match rest with
      | '!' :: '-' :: '-' :: rest => (.commentOpen, rest)
      | _ => (.delim c, rest)
    | '@' =>
      if startsName rest then
        let (n, rest) := name rest
        (.atKeyword n, rest)
      else (.delim c, rest)
    | '\\' => if isEscape rest then nameLike cs else (.delim c, rest)
    | c => (.delim c, rest)

/-- The tokens of a text; `bound` limits their number. -/
def tokensFrom : (bound : Nat) → List Char → List Token
  | 0, _ => []
  | _ + 1, [] => []
  | bound + 1, c :: rest =>
    let (t, rest) := token c rest
    t :: tokensFrom bound rest

def tokens (text : String) : List Token := tokensFrom text.toList.length text.toList

end Hypertemplate.Selector
