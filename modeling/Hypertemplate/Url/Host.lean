import Hypertemplate.Url.Domain
import Hypertemplate.Url.Percent

/-!
# Hosts

The host of a URL is an IPv6 address in square brackets, an IPv4 address, or a name. In a special URL a
name is a domain name; in others it is any text without the characters that separate the parts of a URL.
-/

namespace Hypertemplate.Url

open Hypertemplate.Text

/-- Why a text is no URL. -/
inductive Problem where
  | emptyHost
  | invalidDomain
  | invalidPort
  | invalidIpv4
  | invalidIpv6
  | invalidDomainCharacter
  | relativeWithoutBase
  | relativeToOpaqueBase
  deriving DecidableEq, Repr, Inhabited

def Problem.message : Problem → String
  | emptyHost => "empty host"
  | invalidDomain => "invalid international domain name"
  | invalidPort => "invalid port number"
  | invalidIpv4 => "invalid IPv4 address"
  | invalidIpv6 => "invalid IPv6 address"
  | invalidDomainCharacter => "invalid domain character"
  | relativeWithoutBase => "relative URL without a base"
  | relativeToOpaqueBase => "relative URL with a cannot-be-a-base base"

inductive Host where
  | name (text : String)
  | ipv4 (address : Nat)
  | ipv6 (pieces : List Nat)
  deriving DecidableEq, Repr, Inhabited

/-! ## IPv4 -/

/-- The number that a part of an IPv4 address writes: hexadecimal after `0x`, octal after another zero. -/
def ipv4Number? (part : List Char) : Option Nat :=
  match part with
  | [] => none
  | '0' :: 'x' :: ds | '0' :: 'X' :: ds => if ds.all isHexDigit then some (numberIn 16 ds) else none
  | '0' :: d :: ds =>
    if (d :: ds).all fun c => '0' ≤ c && c ≤ '7' then some (numberIn 8 (d :: ds)) else none
  | ds => if ds.all Char.isDigit then some (numberIn 10 ds) else none

/-- The parts of a name between its dots, without the empty one after a dot at the end. -/
def dottedParts (name : List Char) : List (List Char) :=
  let parts := splitBy (· == '.') name
  if 1 < parts.length && parts.getLast? == some [] then parts.dropLast else parts

/-- Whether the last part of a name is a number, so that the name has to be an IPv4 address. -/
def endsInNumber (name : List Char) : Bool :=
  match (dottedParts name).getLast? with
  | none | some [] => false
  | some last => last.all Char.isDigit || (ipv4Number? last).isSome

/-- The address that numbers write: each but the last is a byte, the last fills the remaining bytes. -/
def ipv4OfNumbers? (numbers : List Nat) : Option Nat :=
  match numbers.reverse with
  | [] => none
  | last :: leading =>
    let leading := leading.reverse
    if 3 < leading.length || leading.any (255 < ·) || Nat.pow 256 (4 - leading.length) ≤ last then none
    else some (leading.zipIdx.foldl (fun n (b, i) => n + b * Nat.pow 256 (3 - i)) last)

def ipv4? (name : List Char) : Option Nat :=
  ((dottedParts name).mapM ipv4Number?).bind ipv4OfNumbers?

/-! ## IPv6 -/

/-- A byte of an IPv4 address inside an IPv6 one: decimal, without leading zero. -/
def decimalByte? (ds : List Char) : Option Nat :=
  if ds.isEmpty || !ds.all Char.isDigit || 3 < ds.length || (1 < ds.length && ds.head? == some '0') ||
      255 < numberIn 10 ds
    then none else some (numberIn 10 ds)

/-- The two pieces that a dotted IPv4 address fills. -/
def dottedPieces? (group : List Char) : Option (List Nat) :=
  match (splitBy (· == '.') group).mapM decimalByte? with
  | some [a, b, c, d] => some [a * 256 + b, c * 256 + d]
  | _ => none

/-- A piece of one to four hexadecimal digits. -/
def hexPiece? (group : List Char) : Option Nat :=
  if group.isEmpty || 4 < group.length || !group.all isHexDigit then none
  else some (numberIn 16 group)

/-- The pieces of groups; the last group may be a dotted IPv4 address if `dottedEnd`. -/
def piecesOf? (dottedEnd : Bool) : List (List Char) → Option (List Nat)
  | [] => some []
  | [last] =>
    if dottedEnd && last.contains '.' then dottedPieces? last else (hexPiece? last).map ([·])
  | group :: rest => do
    let piece ← hexPiece? group
    let pieces ← piecesOf? dottedEnd rest
    return piece :: pieces

/-- The pieces of a text between colons; an empty text has none. -/
def piecesIn? (dottedEnd : Bool) (text : List Char) : Option (List Nat) :=
  piecesOf? dottedEnd (if text.isEmpty then [] else splitBy (· == ':') text)

/-- A text before and after its first pair of colons. -/
def splitAtColons? : List Char → Option (List Char × List Char)
  | [] => none
  | ':' :: ':' :: rest => some ([], rest)
  | c :: rest => (splitAtColons? rest).map fun (before, after) => (c :: before, after)

/-- The eight pieces of an IPv6 address; a pair of colons stands for zeros, at least one. -/
def ipv6? (text : List Char) : Option (List Nat) :=
  match splitAtColons? text with
  | some (before, after) => do
    let left ← piecesIn? false before
    let right ← piecesIn? true after
    let missing := 8 - (left.length + right.length)
    if missing = 0 then none else return left ++ List.replicate missing 0 ++ right
  | none => (piecesIn? true text).filter (·.length == 8)

/-- The length of the run of zeros at the start of a list. -/
def zeroRun (pieces : List Nat) : Nat := (pieces.takeWhile (· == 0)).length

/-- The longest run of zeros of two or more pieces, the first of equal ones: where it starts and its
length. -/
def longestZeroRun? (pieces : List Nat) : Option (Nat × Nat) :=
  let runs := (List.range pieces.length).map fun i => (i, zeroRun (pieces.drop i))
  let longest := runs.foldl (fun best run => if best.2 < run.2 then run else best) (0, 1)
  if 2 ≤ longest.2 then some longest else none

def ipv6Text (pieces : List Nat) : String :=
  let join (ps : List Nat) : String := String.intercalate ":" (ps.map (digitsIn 16))
  match longestZeroRun? pieces with
  | some (start, n) => join (pieces.take start) ++ "::" ++ join (pieces.drop (start + n))
  | none => join pieces

/-! ## Reading and writing -/

def Host.text : Host → String
  | name t => t
  | ipv4 n =>
    String.intercalate "." ([16777216, 65536, 256, 1].map fun unit => toString (n / unit % 256))
  | ipv6 pieces => "[" ++ ipv6Text pieces ++ "]"

/-- An address in square brackets. -/
def bracketedHost (text : List Char) : Except Problem Host :=
  if text.getLast? ≠ some ']' then .error .invalidIpv6
  else match ipv6? (text.drop 1).dropLast with
    | some pieces => .ok (.ipv6 pieces)
    | none => .error .invalidIpv6

/-- The host of a special URL. -/
def specialHost (text : List Char) : Except Problem Host :=
  if text.head? = some '[' then bracketedHost text
  else
    match (textOfBytes? (percentDecode text)).bind domainToAscii? with
    | none => .error .invalidDomain
    | some domain =>
      if domain.isEmpty then .error .emptyHost
      else if endsInNumber domain.toList then
        match ipv4? domain.toList with
        | some n => .ok (.ipv4 n)
        | none => .error .invalidIpv4
      else .ok (.name domain)

/-- The host of a URL that is not special. -/
def plainHost (text : List Char) : Except Problem Host :=
  if text.head? = some '[' then bracketedHost text
  else if text.any "\x00\t\n\r #/:<>?@[\\]^|".toList.contains then .error .invalidDomainCharacter
  else .ok (.name (percentEncode isControl text))

end Hypertemplate.Url
