import Hypertemplate.Text.Blank
import Hypertemplate.Url.Punycode

/-!
# Domain names

A domain name is brought to ASCII before it is used: letters become small ones, characters that are only
another form of others become those, some characters vanish, and a label that still has characters outside
ASCII is written in Punycode behind the mark `xn--`. The table of letters covers the Latin, Greek, Cyrillic
and Armenian scripts and the wide forms of ASCII.
-/

namespace Hypertemplate.Url

open Hypertemplate.Text

/-- A range of capitals: the first, the last, the step between them, and the distance to the small
letters. -/
structure CapitalRange where
  first : Nat
  last : Nat
  step : Nat
  shift : Int

/-- Capitals outside ASCII. -/
def capitalRanges : List CapitalRange :=
  [⟨0xC0, 0xD6, 1, 32⟩, ⟨0xD8, 0xDE, 1, 32⟩, ⟨0x100, 0x12E, 2, 1⟩, ⟨0x132, 0x136, 2, 1⟩,
    ⟨0x139, 0x147, 2, 1⟩, ⟨0x14A, 0x176, 2, 1⟩, ⟨0x178, 0x178, 1, -121⟩, ⟨0x179, 0x17D, 2, 1⟩,
    ⟨0x181, 0x181, 1, 210⟩, ⟨0x182, 0x184, 2, 1⟩, ⟨0x186, 0x186, 1, 206⟩, ⟨0x187, 0x187, 1, 1⟩,
    ⟨0x189, 0x18A, 1, 205⟩, ⟨0x18B, 0x18B, 1, 1⟩, ⟨0x18E, 0x18E, 1, 79⟩, ⟨0x18F, 0x18F, 1, 202⟩,
    ⟨0x190, 0x190, 1, 203⟩, ⟨0x191, 0x191, 1, 1⟩, ⟨0x193, 0x193, 1, 205⟩, ⟨0x194, 0x194, 1, 207⟩,
    ⟨0x196, 0x196, 1, 211⟩, ⟨0x197, 0x197, 1, 209⟩, ⟨0x198, 0x198, 1, 1⟩, ⟨0x19C, 0x19C, 1, 211⟩,
    ⟨0x19D, 0x19D, 1, 213⟩, ⟨0x19F, 0x19F, 1, 214⟩, ⟨0x1A0, 0x1A4, 2, 1⟩, ⟨0x1CD, 0x1DB, 2, 1⟩,
    ⟨0x1DE, 0x1EE, 2, 1⟩, ⟨0x1F8, 0x21E, 2, 1⟩, ⟨0x222, 0x232, 2, 1⟩, ⟨0x386, 0x386, 1, 38⟩,
    ⟨0x388, 0x38A, 1, 37⟩, ⟨0x38C, 0x38C, 1, 64⟩, ⟨0x38E, 0x38F, 1, 63⟩, ⟨0x391, 0x3A1, 1, 32⟩,
    ⟨0x3A3, 0x3AB, 1, 32⟩, ⟨0x3D8, 0x3EE, 2, 1⟩, ⟨0x400, 0x40F, 1, 80⟩, ⟨0x410, 0x42F, 1, 32⟩,
    ⟨0x460, 0x480, 2, 1⟩, ⟨0x48A, 0x4BE, 2, 1⟩, ⟨0x4C1, 0x4CD, 2, 1⟩, ⟨0x4D0, 0x52E, 2, 1⟩,
    ⟨0x531, 0x556, 1, 48⟩, ⟨0x1E00, 0x1E94, 2, 1⟩, ⟨0x1E9E, 0x1E9E, 1, -7615⟩,
    ⟨0x1EA0, 0x1EFE, 2, 1⟩]

/-- The distance from a capital outside ASCII to its small letter; zero for other characters. -/
def shiftToSmall (n : Nat) : Int :=
  match capitalRanges.find? fun r => r.first ≤ n && n ≤ r.last && (n - r.first) % r.step == 0 with
  | some r => r.shift
  | none => 0

/-- Characters that vanish from a domain name: marks for hyphenation, joining and variation. -/
def vanishes (n : Nat) : Bool :=
  n == 0xAD || n == 0x34F || n == 0x200B || n == 0x2060 || n == 0x2064 || n == 0xFEFF ||
    (0x180B ≤ n && n ≤ 0x180D) || (0xFE00 ≤ n && n ≤ 0xFE0F)

/-- The ASCII character that a character is another form of: an ideographic stop, a blank, a wide form. -/
def plainForm? (n : Nat) : Option Char :=
  if n == 0x3002 || n == 0xFF61 then some '.'
  else if n == 0xA0 || (0x2000 ≤ n && n ≤ 0x200A) || n == 0x202F || n == 0x205F || n == 0x3000 then
    some ' '
  else if 0xFF01 ≤ n && n ≤ 0xFF5E then some (Char.ofNat (n - 0xFEE0))
  else none

/-- What a character of a domain name becomes. -/
def mapDomainChar (c : Char) : List Char :=
  let n := c.toNat
  if n < 0x80 then [c.toLower]
  else if vanishes n then []
  else match plainForm? n with
    | some c => [c.toLower]
    | none => [Char.ofNat (Int.toNat (n + shiftToSmall n))]

/-- Characters that no domain name may have: in ASCII those that separate the parts of a URL, outside of it
controls, separators, private ones and those that stand for no character. -/
def isForbiddenInDomain (c : Char) : Bool :=
  let n := c.toNat
  n ≤ 0x20 || n == 0x7F || "%#/:<>?@[\\]^|".toList.contains c ||
    (0x80 ≤ n && n ≤ 0x9F) || (0x200E ≤ n && n ≤ 0x200F) || (0x2028 ≤ n && n ≤ 0x202E) ||
    (0x2066 ≤ n && n ≤ 0x206F) || (0xE000 ≤ n && n ≤ 0xF8FF) || (0xFDD0 ≤ n && n ≤ 0xFDEF) ||
    (0xFFF0 ≤ n && n ≤ 0xFFFF) || 0xE0000 ≤ n

/-- The mark of a label in Punycode. -/
def punycodeMark : List Char := ['x', 'n', '-', '-']

/-- A label in ASCII. A label that is in Punycode already has to write a label that needs it and whose
characters stay as they are. -/
def labelToAscii? (label : List Char) : Option (List Char) :=
  if punycodeMark.isPrefixOf label then
    match Punycode.decode? (label.drop punycodeMark.length) with
    | some plain =>
      if plain.any (0x80 ≤ ·.toNat) && plain.all (fun c => mapDomainChar c == [c]) &&
          !plain.any isForbiddenInDomain
        then some label else none
    | none => none
  else if label.all (·.toNat < 0x80) then some label
  else some (punycodeMark ++ Punycode.encode label)

/-- A domain name in ASCII; none if it has a forbidden character or a malformed label. -/
def domainToAscii? (domain : String) : Option String :=
  let mapped := domain.toList.flatMap mapDomainChar
  if mapped.any isForbiddenInDomain then none
  else
    ((splitBy (· == '.') mapped).mapM labelToAscii?).map fun labels =>
      String.intercalate "." (labels.map String.ofList)

end Hypertemplate.Url
