import Hypertemplate.Text.Blank
import Hypertemplate.Text.Digits

/-!
# Percent encoding

A part of a URL writes the bytes that it must not hold as they are by a percent sign and two hexadecimal
digits. Which characters those are depends on the part. A character outside ASCII is always encoded, byte
for byte of its UTF-8 form.
-/

namespace Hypertemplate.Url

open Hypertemplate.Text

/-- Control characters and everything outside ASCII. -/
def isControl (c : Char) : Bool := c.toNat < 0x20 || 0x7E < c.toNat

def encodedInFragment (c : Char) : Bool := isControl c || " \"<>`".toList.contains c

def encodedInQuery (c : Char) : Bool := isControl c || " \"#<>".toList.contains c

/-- In the query of a special URL the apostrophe is encoded too. -/
def encodedInSpecialQuery (c : Char) : Bool := encodedInQuery c || c == '\''

def encodedInPath (c : Char) : Bool := encodedInFragment c || "#?\x7b\x7d".toList.contains c

def encodedInUserinfo (c : Char) : Bool := encodedInPath c || "/:;=@[\\]^|".toList.contains c

/-- A byte as a percent sign and two hexadecimal digits. -/
def percentByte (b : UInt8) : String :=
  let digits := upperAscii (digitsIn 16 b.toNat)
  "%" ++ (if digits.length < 2 then "0" ++ digits else digits)

/-- Encode the characters that satisfy `encoded`. -/
def percentEncode (encoded : Char → Bool) (cs : List Char) : String :=
  String.join (cs.map fun c =>
    if encoded c then String.join ((String.singleton c).toUTF8.toList.map percentByte)
    else String.singleton c)

/-- The byte that a percent sign and the next two characters write. -/
def percentDigits? : List Char → Option (UInt8 × List Char)
  | '%' :: a :: b :: rest =>
    if isHexDigit a && isHexDigit b then some (UInt8.ofNat (numberIn 16 [a, b]), rest) else none
  | _ => none

theorem percentDigits?_length {cs rest : List Char} {b : UInt8}
    (h : percentDigits? cs = some (b, rest)) : rest.length < cs.length := by
  unfold percentDigits? at h
  split at h
  · split at h
    · simp only [Option.some.injEq, Prod.mk.injEq] at h
      simp [← h.2]
      omega
    · simp at h
  · simp at h

/-- The bytes of a text in which percent signs with two hexadecimal digits stand for bytes. -/
def percentDecode (cs : List Char) : List UInt8 :=
  match _h : percentDigits? cs with
  | some (b, rest) => b :: percentDecode rest
  | none =>
    match cs with
    | [] => []
    | c :: rest => (String.singleton c).toUTF8.toList ++ percentDecode rest
termination_by cs.length
decreasing_by
  · exact percentDigits?_length _h
  · simp

/-- The text that bytes write in UTF-8. -/
def textOfBytes? (bytes : List UInt8) : Option String := String.fromUTF8? ⟨bytes.toArray⟩

end Hypertemplate.Url
