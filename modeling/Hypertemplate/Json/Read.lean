import Hypertemplate.Json.Value
import Hypertemplate.Text.Blank

/-!
# Reading JSON text

`Value.read` reads a text as one JSON value with blanks around it. Values nest at most 127 deep. A failure
is a cause with the byte at which it arose; `ReadError.message` turns the byte into a line and a column.

Every reader takes a bound on the characters that are left and returns a place below that bound, so that
recursion is on what remains of the text.
-/

namespace Hypertemplate.Json

open Hypertemplate.Decimal Hypertemplate.Text

/-- Why a text is not a JSON value. -/
inductive Cause where
  | endOfList
  | endOfObject
  | endOfString
  | endOfValue
  | expectedColon
  | expectedListCommaOrEnd
  | expectedObjectCommaOrEnd
  | expectedIdentifier
  | expectedValue
  | invalidEscape
  | invalidNumber
  | numberOutOfRange
  | controlCharacter
  | keyMustBeString
  | loneSurrogate
  | trailingComma
  | trailingCharacters
  | unexpectedEndOfHexEscape
  | nestingLimit
  deriving DecidableEq, Repr

def Cause.text : Cause → String
  | .endOfList => "EOF while parsing a list"
  | .endOfObject => "EOF while parsing an object"
  | .endOfString => "EOF while parsing a string"
  | .endOfValue => "EOF while parsing a value"
  | .expectedColon => "expected `:`"
  | .expectedListCommaOrEnd => "expected `,` or `]`"
  | .expectedObjectCommaOrEnd => "expected `,` or `\x7d`"
  | .expectedIdentifier => "expected ident"
  | .expectedValue => "expected value"
  | .invalidEscape => "invalid escape"
  | .invalidNumber => "invalid number"
  | .numberOutOfRange => "number out of range"
  | .controlCharacter => "control character (\\u0000-\\u001F) found while parsing a string"
  | .keyMustBeString => "key must be a string"
  | .loneSurrogate => "lone leading surrogate in hex escape"
  | .trailingComma => "trailing comma"
  | .trailingCharacters => "trailing characters"
  | .unexpectedEndOfHexEscape => "unexpected end of hex escape"
  | .nestingLimit => "recursion limit exceeded"

/-- A failure: its cause and the number of bytes before the place where it shows. -/
structure ReadError where
  cause : Cause
  offset : Nat
  deriving DecidableEq, Repr

/-- The line of a byte offset, from 1, and the bytes between the line's start and the offset. -/
def lineAndColumn (text : String) (offset : Nat) : Nat × Nat :=
  let before := (text.toUTF8.toList.take offset).map UInt8.toNat
  (1 + before.count 10, (before.reverse.takeWhile (· != 10)).length)

/-- The cause and its place. -/
def ReadError.message (e : ReadError) (text : String) : String :=
  let (line, column) := lineAndColumn text e.offset
  e.cause.text ++ " at line " ++ toString line ++ " column " ++ toString column

/-- A place in a text: the characters that are left and the bytes that were passed. -/
structure Cursor where
  rest : List Char
  offset : Nat

/-- What a reader comes to: a result and a place with fewer than `n` characters left, or a failure. -/
abbrev Step (n : Nat) (α : Type) := Except ReadError (α × { c : Cursor // c.rest.length < n })

/-- A failure at the place itself. -/
def Cursor.fail {α : Type} (c : Cursor) (cause : Cause) : Except ReadError α :=
  .error ⟨cause, c.offset⟩

/-- A failure that counts the next byte as read, if there is one. -/
def Cursor.failNext {α : Type} (c : Cursor) (cause : Cause) : Except ReadError α :=
  .error ⟨cause, if c.rest.isEmpty then c.offset else c.offset + 1⟩

/-- The characters that JSON allows between tokens. -/
def isBlank (c : Char) : Bool := c == ' ' || c == '\n' || c == '\t' || c == '\r'

/-- The next place that holds no blank. -/
def Cursor.skipBlanks (c : Cursor) : Cursor :=
  ⟨c.rest.dropWhile isBlank, c.offset + (c.rest.takeWhile isBlank).length⟩

theorem Cursor.skipBlanks_le (c : Cursor) : c.skipBlanks.rest.length ≤ c.rest.length :=
  (List.dropWhile_sublist _).length_le

/-! ## Literal names -/

/-- Read the letters of a literal name after its first. -/
def readLetters {α : Type} (n : Nat) (v : α) : (expected : List Char) → (c : Cursor) →
    c.rest.length < n → Step n α
  | [], c, h => .ok (v, ⟨c, h⟩)
  | _ :: _, ⟨[], o⟩, _ => .error ⟨.endOfValue, o⟩
  | e :: es, ⟨x :: rest, o⟩, h =>
    if x = e then readLetters n v es ⟨rest, o + 1⟩ (by simp at h; simp; omega)
    else .error ⟨.expectedIdentifier, o + 1⟩

/-! ## Strings -/

def hexDigit? (c : Char) : Option Nat :=
  if '0' ≤ c ∧ c ≤ '9' then some (c.toNat - '0'.toNat)
  else if 'a' ≤ c ∧ c ≤ 'f' then some (c.toNat - 'a'.toNat + 10)
  else if 'A' ≤ c ∧ c ≤ 'F' then some (c.toNat - 'A'.toNat + 10)
  else none

/-- Four hexadecimal digits. Four bytes are taken whatever they are, and none if fewer are left. -/
def readHex (n : Nat) (c : Cursor) (h : c.rest.length < n) : Step n Nat :=
  let bytes := byteLength (c.rest.take 4)
  if bytes < 4 then .error ⟨.endOfString, c.offset + bytes⟩
  else match (c.rest.take 4).mapM hexDigit? with
    | some ds =>
      .ok (ds.foldl (fun acc d => acc * 16 + d) 0,
        ⟨⟨c.rest.drop 4, c.offset + 4⟩, by simp; omega⟩)
    | none => .error ⟨.invalidEscape, c.offset + 4⟩

def isLeadingSurrogate (u : Nat) : Bool := 0xD800 ≤ u && u ≤ 0xDBFF

def isTrailingSurrogate (u : Nat) : Bool := 0xDC00 ≤ u && u ≤ 0xDFFF

/-- What follows `\u`: one code unit, or a leading surrogate and the escape of a trailing one. -/
def readUnicodeEscape (n : Nat) (c : Cursor) (h : c.rest.length < n) : Step n Char :=
  match readHex n c h with
  | .error e => .error e
  | .ok (u, ⟨c, h⟩) =>
    if isTrailingSurrogate u then c.fail .loneSurrogate
    else if !isLeadingSurrogate u then .ok (Char.ofNat u, ⟨c, h⟩)
    else match c, h with
      | ⟨'\\' :: 'u' :: rest, o⟩, h =>
        match readHex n ⟨rest, o + 2⟩ (by simp at h; simp; omega) with
        | .error e => .error e
        | .ok (v, ⟨c, h⟩) =>
          if isTrailingSurrogate v then
            .ok (Char.ofNat (0x10000 + (u - 0xD800) * 0x400 + (v - 0xDC00)), ⟨c, h⟩)
          else c.fail .loneSurrogate
      | ⟨['\\'], o⟩, _ => .error ⟨.endOfString, o + 1⟩
      | ⟨'\\' :: _ :: _, o⟩, _ => .error ⟨.unexpectedEndOfHexEscape, o + 2⟩
      | ⟨[], o⟩, _ => .error ⟨.endOfString, o⟩
      | ⟨_ :: _, o⟩, _ => .error ⟨.unexpectedEndOfHexEscape, o + 1⟩

/-- The character that an escape after its backslash stands for. -/
def readEscape (n : Nat) (c : Cursor) (h : c.rest.length < n) : Step n Char :=
  match c, h with
  | ⟨[], o⟩, _ => .error ⟨.endOfString, o⟩
  | ⟨x :: rest, o⟩, h =>
    have h' : rest.length < n := by simp at h; omega
    let simple (y : Char) : Step n Char := .ok (y, ⟨⟨rest, o + 1⟩, h'⟩)
    match x with
    | '"' => simple '"'
    | '\\' => simple '\\'
    | '/' => simple '/'
    | 'b' => simple '\x08'
    | 'f' => simple '\x0c'
    | 'n' => simple '\n'
    | 'r' => simple '\r'
    | 't' => simple '\t'
    | 'u' => readUnicodeEscape n ⟨rest, o + 1⟩ h'
    | _ => .error ⟨.invalidEscape, o + 1⟩

/-- The rest of a string after its opening quote; `acc` holds what was read, last first. -/
def readString (n : Nat) (c : Cursor) (h : c.rest.length < n) (acc : List Char) : Step n String :=
  match c, h with
  | ⟨[], o⟩, _ => .error ⟨.endOfString, o⟩
  | ⟨x :: rest, o⟩, h =>
    have h' : rest.length < n := by simp at h; omega
    if x = '"' then .ok (String.ofList acc.reverse, ⟨⟨rest, o + 1⟩, h'⟩)
    else if x = '\\' then
      match readEscape (rest.length + 1) ⟨rest, o + 1⟩ (by simp) with
      | .error e => .error e
      | .ok (y, ⟨d, hd⟩) => readString n d (by omega) (y :: acc)
    else if x.toNat < 0x20 then .error ⟨.controlCharacter, o + 1⟩
    else readString n ⟨rest, o + x.utf8Size⟩ h' (x :: acc)
termination_by c.rest.length
decreasing_by all_goals simp_all; try omega

/-! ## Numbers -/

/-- The digits at a place and the place behind them. -/
def readDigits (c : Cursor) : List Char × Cursor :=
  let ds := c.rest.takeWhile Char.isDigit
  (ds, ⟨c.rest.dropWhile Char.isDigit, c.offset + ds.length⟩)

theorem readDigits_le (c : Cursor) : (readDigits c).2.rest.length ≤ c.rest.length :=
  (List.dropWhile_sublist _).length_le

/-- The exponent's digits as far as they stay below 2^31, and whether they all do. -/
def boundedExponent (ds : List Char) : Nat × Nat × Bool :=
  ds.foldl (fun (acc, used, ok) d =>
    if !ok then (acc, used, ok)
    else
      let next := acc * 10 + (d.toNat - '0'.toNat)
      if next ≤ 2147483647 then (next, used + 1, true) else (acc, used + 1, false)) (0, 0, true)

/-- Take up digits while the significand stays below 2^64; the digits left over are counted. -/
def takeUpDigits (s : Nat) : List Char → Nat × Nat
  | [] => (s, 0)
  | d :: ds =>
    let next := s * 10 + (d.toNat - '0'.toNat)
    if next < Nat.pow 2 64 then takeUpDigits next ds else (s, ds.length + 1)

/-- The significand below 2^64 that stands for the digits before and after a point, and its decimal scale.
Digits that it has no room for are dropped. -/
def significandOf (whole fraction : List Char) : Nat × Int :=
  let (s, left) := takeUpDigits 0 whole
  let (s, left') := takeUpDigits s fraction
  (s, (left : Int) - (fraction.length - left'))

/-- A power of ten as a floating-point number. -/
def powerOfTen (k : Nat) : Binary := (Format.double.nearest? false (Nat.pow 10 k) 1).getD (.zero false)

/-- Divide by a power of ten, in steps of at most 308 places; `steps` bounds them, and what is left after
them has vanished. -/
def scaleDown : (steps : Nat) → Binary → Nat → Option Binary
  | 0, x, _ => some (.zero x.negative)
  | steps + 1, x, k =>
    if k ≤ 308 then Format.double.over? x (powerOfTen k)
    else (Format.double.over? x (powerOfTen 308)).bind fun x => scaleDown steps x (k - 308)

/-- The floating-point number of a significand and a decimal scale, if it is finite: the significand is
rounded first, and its product or quotient with the power of ten once more. -/
def realOf? (negative : Bool) (s : Nat) (scale : Int) : Option Binary :=
  (Format.double.nearest? negative s 1).bind fun x =>
    if x.isZero then some x
    else if scale < 0 then scaleDown 4 x (-scale).toNat
    else if scale ≤ 308 then Format.double.times? x (powerOfTen scale.toNat)
    else none

/-- The number of a significand and a decimal scale, read up to `c`. -/
def realNumber (n : Nat) (negative : Bool) (s : Nat) (scale : Int) (c : Cursor)
    (h : c.rest.length < n) : Step n Number :=
  match realOf? negative s scale with
  | some x => .ok (.real x, ⟨c, h⟩)
  | none => c.fail .numberOutOfRange

/-- The digits of an exponent, after its sign. -/
def readExponentDigits (n : Nat) (negative minus : Bool) (digits : Nat) (scale : Int) (c : Cursor)
    (h : c.rest.length < n) : Step n Number :=
  match c, h with
  | ⟨[], o⟩, _ => .error ⟨.endOfValue, o⟩
  | ⟨x :: rest, o⟩, h =>
    if !x.isDigit then .error ⟨.invalidNumber, o + 1⟩
    else
      let c : Cursor := ⟨x :: rest, o⟩
      have hd : (readDigits c).2.rest.length < n := Nat.lt_of_le_of_lt (readDigits_le c) h
      let (e, used, bounded) := boundedExponent (readDigits c).1
      if bounded then
        realNumber n negative digits (if minus then scale - e else scale + e) (readDigits c).2 hd
      else if digits = 0 || minus then
        .ok (.real (.zero negative), ⟨(readDigits c).2, hd⟩)
      else .error ⟨.numberOutOfRange, o + used⟩

/-- The part of a number after its `e`. -/
def readExponent (n : Nat) (negative : Bool) (digits : Nat) (scale : Int) (c : Cursor)
    (h : c.rest.length < n) : Step n Number :=
  match c, h with
  | ⟨'+' :: rest, o⟩, h =>
    readExponentDigits n negative false digits scale ⟨rest, o + 1⟩ (by simp at h; simp; omega)
  | ⟨'-' :: rest, o⟩, h =>
    readExponentDigits n negative true digits scale ⟨rest, o + 1⟩ (by simp at h; simp; omega)
  | c, h => readExponentDigits n negative false digits scale c h

/-- The part of a number after its integral digits. -/
def readFraction (n : Nat) (negative : Bool) (digits : List Char) (c : Cursor)
    (h : c.rest.length < n) : Step n Number :=
  match c, h with
  | ⟨'.' :: rest, o⟩, h =>
    let c : Cursor := ⟨rest, o + 1⟩
    have hc : c.rest.length < n := by simp at h; simp [c]; omega
    let ds := (readDigits c).1
    have hd : (readDigits c).2.rest.length < n := Nat.lt_of_le_of_lt (readDigits_le c) hc
    if ds.isEmpty then
      c.failNext (if rest.isEmpty then .endOfValue else .invalidNumber)
    else
      let (s, scale) := significandOf digits ds
      match (readDigits c).2, hd with
      | ⟨x :: rest, o⟩, h =>
        if x = 'e' ∨ x = 'E' then
          readExponent n negative s scale ⟨rest, o + 1⟩ (by simp at h; simp; omega)
        else realNumber n negative s scale ⟨x :: rest, o⟩ h
      | d, h => realNumber n negative s scale d h
  | ⟨x :: rest, o⟩, h =>
    if x = 'e' ∨ x = 'E' then
      let (s, scale) := significandOf digits []
      readExponent n negative s scale ⟨rest, o + 1⟩ (by simp at h; simp; omega)
    else whole ⟨x :: rest, o⟩ h
  | c, h => whole c h
where
  /-- A number without fraction and exponent: exact if 64 bits hold it, and minus zero is a real. -/
  whole (c : Cursor) (h : c.rest.length < n) : Step n Number :=
    let (s, scale) := significandOf digits []
    if scale = 0 && !negative then .ok (.integer s, ⟨c, h⟩)
    else if scale = 0 && 0 < s && s ≤ Nat.pow 2 63 then .ok (.integer (-(s : Int)), ⟨c, h⟩)
    else realNumber n negative s scale c h

/-- A number after its sign. A leading zero stands alone. -/
def readNumber (n : Nat) (negative : Bool) (c : Cursor) (h : c.rest.length < n) : Step n Number :=
  match c, h with
  | ⟨[], o⟩, _ => .error ⟨.endOfValue, o⟩
  | ⟨x :: rest, o⟩, h =>
    have h' : rest.length < n := by simp at h; omega
    if x = '0' then
      match rest, h' with
      | y :: rest, h' =>
        if y.isDigit then .error ⟨.invalidNumber, o + 2⟩
        else readFraction n negative [x] ⟨y :: rest, o + 1⟩ h'
      | [], h' => readFraction n negative [x] ⟨[], o + 1⟩ h'
    else if x.isDigit then
      let c : Cursor := ⟨x :: rest, o⟩
      readFraction n negative (readDigits c).1 (readDigits c).2
        (Nat.lt_of_le_of_lt (readDigits_le c) h)
    else .error ⟨.invalidNumber, o + 1⟩

/-! ## Arrays, objects and values -/

/-- The items of an array after its bracket or after an item; `acc` holds the items read, last first. -/
def readItems (item : (c : Cursor) → Step c.rest.length Value) (n : Nat) (c : Cursor)
    (h : c.rest.length < n) (acc : List Value) : Step n (List Value) :=
  let d := c.skipBlanks
  have hd : d.rest.length < n := Nat.lt_of_le_of_lt c.skipBlanks_le h
  match hm : d, hd with
  | ⟨[], o⟩, _ => .error ⟨.endOfList, o⟩
  | ⟨x :: rest, o⟩, hd =>
    have hr : rest.length < n := by simp at hd; omega
    have hx : (x :: rest).length ≤ c.rest.length := by
      have := c.skipBlanks_le
      rw [show c.skipBlanks = d from rfl, hm] at this
      exact this
    if x = ']' then .ok (acc.reverse, ⟨⟨rest, o + 1⟩, hr⟩)
    else if acc.isEmpty then
      match item ⟨x :: rest, o⟩ with
      | .error e => .error e
      | .ok (v, ⟨f, hf⟩) => readItems item n f (by simp at hf hd; omega) (v :: acc)
    else if x = ',' then
      let e := (Cursor.mk rest (o + 1)).skipBlanks
      have he : e.rest.length ≤ rest.length := (Cursor.mk rest (o + 1)).skipBlanks_le
      if e.rest.isEmpty then e.failNext .endOfValue
      else if e.rest.head? = some ']' then e.failNext .trailingComma
      else match item e with
        | .error e => .error e
        | .ok (v, ⟨f, hf⟩) => readItems item n f (by omega) (v :: acc)
    else (Cursor.mk (x :: rest) o).failNext .expectedListCommaOrEnd
termination_by c.rest.length
decreasing_by
  · simp at hf hx ⊢; omega
  · simp at hx ⊢; omega

/-- The value of a field after its name: a colon and a value. -/
def readFieldValue (item : (c : Cursor) → Step c.rest.length Value) (n : Nat) (c : Cursor)
    (h : c.rest.length < n) : Step n Value :=
  let d := c.skipBlanks
  have hd : d.rest.length < n := Nat.lt_of_le_of_lt c.skipBlanks_le h
  match d, hd with
  | ⟨':' :: rest, o⟩, hd =>
    match item ⟨rest, o + 1⟩ with
    | .error e => .error e
    | .ok (v, ⟨f, hf⟩) => .ok (v, ⟨f, by simp at hf hd; omega⟩)
  | ⟨[], o⟩, _ => .error ⟨.endOfObject, o⟩
  | ⟨_ :: _, o⟩, _ => .error ⟨.expectedColon, o + 1⟩

/-- The fields of an object after its brace or after a field; `acc` holds the fields read, last first. -/
def readFields (item : (c : Cursor) → Step c.rest.length Value) (n : Nat) (c : Cursor)
    (h : c.rest.length < n) (acc : List (String × Value)) : Step n (List (String × Value)) :=
  let d := c.skipBlanks
  have hd : d.rest.length < n := Nat.lt_of_le_of_lt c.skipBlanks_le h
  match hm : d, hd with
  | ⟨[], o⟩, _ => .error ⟨.endOfObject, o⟩
  | ⟨x :: rest, o⟩, hd =>
    have hr : rest.length < n := by simp at hd; omega
    have hx : (x :: rest).length ≤ c.rest.length := by
      have := c.skipBlanks_le
      rw [show c.skipBlanks = d from rfl, hm] at this
      exact this
    if x = '\x7d' then .ok (acc.reverse, ⟨⟨rest, o + 1⟩, hr⟩)
    else if acc.isEmpty then
      if x = '"' then
        match readString (rest.length + 1) ⟨rest, o + 1⟩ (by simp) [] with
        | .error e => .error e
        | .ok (k, ⟨f, hf⟩) =>
          match readFieldValue item (f.rest.length + 1) f (by omega) with
          | .error e => .error e
          | .ok (v, ⟨g, hg⟩) => readFields item n g (by omega) ((k, v) :: acc)
      else (Cursor.mk (x :: rest) o).failNext .keyMustBeString
    else if x = ',' then
      let e := (Cursor.mk rest (o + 1)).skipBlanks
      have he : e.rest.length ≤ rest.length := (Cursor.mk rest (o + 1)).skipBlanks_le
      match e, he with
      | ⟨[], o⟩, _ => .error ⟨.endOfValue, o⟩
      | ⟨y :: rest', o⟩, hy =>
        if y = '"' then
          match readString (rest'.length + 1) ⟨rest', o + 1⟩ (by simp) [] with
          | .error e => .error e
          | .ok (k, ⟨f, hf⟩) =>
            match readFieldValue item (f.rest.length + 1) f (by omega) with
            | .error e => .error e
            | .ok (v, ⟨g, hg⟩) => readFields item n g (by simp at hy; omega) ((k, v) :: acc)
        else (Cursor.mk (y :: rest') o).failNext
          (if y = '\x7d' then .trailingComma else .keyMustBeString)
    else (Cursor.mk (x :: rest) o).failNext .expectedObjectCommaOrEnd
termination_by c.rest.length
decreasing_by
  · simp at hx ⊢; omega
  · simp at hx hy ⊢; omega

/-- One value at a place, with blanks before it. Arrays and objects nest at most `depth` deep. -/
def readValue : (depth : Nat) → (c : Cursor) → Step c.rest.length Value
  | depth, c =>
    let d := c.skipBlanks
    have hd : d.rest.length ≤ c.rest.length := c.skipBlanks_le
    match d, hd with
    | ⟨[], o⟩, _ => .error ⟨.endOfValue, o⟩
    | ⟨x :: rest, o⟩, hd =>
      have hr : rest.length < c.rest.length := by simp at hd; omega
      let next : Cursor := ⟨rest, o + 1⟩
      if x = 'n' then readLetters _ .null ['u', 'l', 'l'] next hr
      else if x = 't' then readLetters _ (.bool true) ['r', 'u', 'e'] next hr
      else if x = 'f' then readLetters _ (.bool false) ['a', 'l', 's', 'e'] next hr
      else if x = '"' then
        match readString _ next hr [] with
        | .error e => .error e
        | .ok (s, p) => .ok (.string s, p)
      else if x = '-' then
        match readNumber _ true next hr with
        | .error e => .error e
        | .ok (k, p) => .ok (.number k, p)
      else if x.isDigit then
        match readNumber (rest.length + 2) false ⟨x :: rest, o⟩ (by simp) with
        | .error e => .error e
        | .ok (k, ⟨p, _⟩) =>
          if hp : p.rest.length < c.rest.length then .ok (.number k, ⟨p, hp⟩)
          else .error ⟨.invalidNumber, o⟩
      else if x = '[' then
        match depth with
        | 0 => (Cursor.mk (x :: rest) o).failNext .nestingLimit
        | depth + 1 =>
          match readItems (readValue depth) _ next hr [] with
          | .error e => .error e
          | .ok (vs, p) => .ok (.array vs, p)
      else if x = '\x7b' then
        match depth with
        | 0 => (Cursor.mk (x :: rest) o).failNext .nestingLimit
        | depth + 1 =>
          match readFields (readValue depth) _ next hr [] with
          | .error e => .error e
          | .ok (fs, p) => .ok (.ofFields fs, p)
      else (Cursor.mk (x :: rest) o).failNext .expectedValue

/-- How deep arrays and objects may nest. -/
def nestingLimit : Nat := 127

/-- The value that a text holds. -/
def Value.read (text : String) : Except ReadError Value :=
  match readValue nestingLimit ⟨text.toList, 0⟩ with
  | .error e => .error e
  | .ok (v, ⟨c, _⟩) =>
    let d := c.skipBlanks
    if d.rest.isEmpty then .ok v else d.failNext .trailingCharacters

end Hypertemplate.Json
