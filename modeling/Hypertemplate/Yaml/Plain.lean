import Hypertemplate.Decimal.Shortest
import Hypertemplate.Text.Digits
import Hypertemplate.Text.Quote

/-!
# Meanings of plain scalars

A plain scalar may be a null, a boolean or a number; everything else is text. Integers may be hexadecimal,
octal or binary. Digits with a zero in front are text.
-/

namespace Hypertemplate.Yaml

open Hypertemplate.Text Hypertemplate.Decimal

/-- What a plain scalar means. -/
inductive Plain where
  | null
  | bool (b : Bool)
  | integer (n : Int)
  | real (text : String)
  | text (text : String)
  deriving DecidableEq, Repr, Inhabited

def isNullText (s : String) : Bool := ["null", "Null", "NULL", "~"].contains s

def boolOf? (s : String) : Option Bool :=
  if ["true", "True", "TRUE"].contains s then some true
  else if ["false", "False", "FALSE"].contains s then some false
  else none

/-- The number that digits of a base write, if there are digits and no other characters. -/
def numberOf? (base : Nat) (digits : List Char) : Option Nat :=
  let fits (c : Char) : Bool := isHexDigit c && digitValue c < base
  if digits.isEmpty || !digits.all fits then none else some (numberIn base digits)

/-- Whether decimal digits have a zero in front that means nothing. -/
def hasIdleZero : List Char → Bool
  | '0' :: d :: rest => (d :: rest).all Char.isDigit
  | _ => false

/-- The number that an integer without sign writes. -/
def naturalOf? (cs : List Char) : Option Nat :=
  match cs with
  | '0' :: 'x' :: digits => numberOf? 16 digits
  | '0' :: 'o' :: digits => numberOf? 8 digits
  | '0' :: 'b' :: digits => numberOf? 2 digits
  | digits => if hasIdleZero digits then none else numberOf? 10 digits

/-- The integer that a text writes, if it fits 128 bits. -/
def integerOf? (cs : List Char) : Option Int :=
  match cs with
  | '-' :: digits => (naturalOf? digits).bind fun n => if n ≤ Nat.pow 2 127 then some (-n) else none
  | '+' :: digits => (naturalOf? digits).bind fun n => if n < Nat.pow 2 128 then some n else none
  | digits => (naturalOf? digits).bind fun n => if n < Nat.pow 2 128 then some n else none

/-- The exponent of a number behind its mark, if the text has no other characters. -/
def exponentOf? : List Char → Option Int
  | [] => some 0
  | mark :: '-' :: digits => if isMark mark then (numberOf? 10 digits).map fun n => -(n : Int) else none
  | mark :: '+' :: digits => if isMark mark then (numberOf? 10 digits).map Int.ofNat else none
  | mark :: digits => if isMark mark then (numberOf? 10 digits).map Int.ofNat else none
where
  isMark (c : Char) : Bool := c == 'e' || c == 'E'

/-- The number that a decimal fraction without sign writes. -/
def realOf? (negative : Bool) (cs : List Char) : Option Binary :=
  let whole := cs.takeWhile Char.isDigit
  let rest := cs.dropWhile Char.isDigit
  let (fraction, rest) := match rest with
    | '.' :: rest => (rest.takeWhile Char.isDigit, rest.dropWhile Char.isDigit)
    | rest => ([], rest)
  if whole.isEmpty && fraction.isEmpty then none
  else
    (exponentOf? rest).bind fun e =>
      Format.double.ofDecimal? negative (numberIn 10 (whole ++ fraction)) (e - fraction.length)

/-- The shown text of the number that a text writes. -/
def realTextOf? (cs : List Char) : Option String :=
  let (negative, magnitude) := match cs with
    | '-' :: rest => (true, rest)
    | '+' :: rest => (false, rest)
    | rest => (false, rest)
  if [".inf", ".Inf", ".INF"].contains (String.ofList magnitude) then
    some (if negative then "-inf" else "inf")
  else if [".nan", ".NaN", ".NAN"].contains (String.ofList cs) then some "NaN"
  else if hasIdleZero magnitude then none
  else (realOf? negative magnitude).map (Layout.text ⟨none, none, ".0", ""⟩ .double)

/-- What a plain scalar means. -/
def Plain.ofText (s : String) : Plain :=
  if s.isEmpty || isNullText s then null
  else match boolOf? s with
    | some b => bool b
    | none =>
      match integerOf? s.toList with
      | some n => integer n
      | none =>
        match realTextOf? s.toList with
        | some r => real r
        | none => text s

/-- The name of a value in messages. -/
def Plain.describe : Plain → String
  | null => "unit value"
  | bool b => "boolean `" ++ (if b then "true" else "false") ++ "`"
  | integer n =>
    "integer `" ++ toString n ++ "`" ++
      (if Nat.pow 2 64 ≤ n.toNat then " as u128" else if Nat.pow 2 63 < (-n).toNat then " as i128" else "")
  | real r => "floating point `" ++ r ++ "`"
  | text s => "string " ++ quoted s

end Hypertemplate.Yaml
