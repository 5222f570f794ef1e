import Hypertemplate.Json.Value

/-!
# Compact JSON text

`Value.text` writes a value without blanks, fields in their order. Strings escape the quote, the
backslash and the control characters below U+0020. A floating-point number is the shortest decimal that
reads back: positional from `1e-5` up to below `1e16`, with a fraction always shown.
-/

namespace Hypertemplate.Json

open Hypertemplate.Decimal

/-- Floating-point numbers show a fraction or an exponent, so that they read back as such. -/
def numberLayout : Layout := ⟨some (-5), some 16, ".0", "+"⟩

def Number.text : Number → String
  | .integer n => toString n
  | .real x => numberLayout.text .double x

/-- The written form of one character of a string. -/
def escapeChar (c : Char) : List Char :=
  if c == '"' then ['\\', '"']
  else if c == '\\' then ['\\', '\\']
  else if c == '\n' then ['\\', 'n']
  else if c == '\r' then ['\\', 'r']
  else if c == '\t' then ['\\', 't']
  else if c == '\x08' then ['\\', 'b']
  else if c == '\x0c' then ['\\', 'f']
  else if c.toNat < 0x20 then
    ['\\', 'u', '0', '0'] ++ [Nat.digitChar (c.toNat / 16), Nat.digitChar (c.toNat % 16)]
  else [c]

def quote (s : String) : String :=
  "\"" ++ String.ofList (s.toList.flatMap escapeChar) ++ "\""

mutual
/-- The compact text of a value. -/
def Value.text : Value → String
  | .null => "null"
  | .bool true => "true"
  | .bool false => "false"
  | .number n => n.text
  | .string s => quote s
  | .array items => "[" ++ String.intercalate "," (itemTexts items) ++ "]"
  | .object fields => "\x7b" ++ String.intercalate "," (fieldTexts fields) ++ "\x7d"

def itemTexts : List Value → List String
  | [] => []
  | v :: rest => v.text :: itemTexts rest

def fieldTexts : List (String × Value) → List String
  | [] => []
  | (k, v) :: rest => (quote k ++ ":" ++ v.text) :: fieldTexts rest
end

end Hypertemplate.Json
