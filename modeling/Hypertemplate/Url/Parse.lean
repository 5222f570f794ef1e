import Hypertemplate.Url.Basic

/-!
# Reading URLs

`Url.parse` reads a URL, `Url.join` reads a reference relative to a base. Blanks and controls around the
text are dropped, and tabs and line ends anywhere in it. In special URLs a backslash separates like a
slash. A segment of one dot vanishes from a path, and one of two dots takes the segment before it along;
`%2e` counts as a dot. The first segment of the path of a `file` URL may be a drive: a letter with a colon
or a bar.
-/

namespace Hypertemplate.Url

open Hypertemplate.Text

/-- A text without controls and spaces around it and without tabs and line ends. -/
def cleaned (text : String) : List Char :=
  let isEdge (c : Char) : Bool := c ≤ ' '
  (((text.toList.dropWhile isEdge).reverse.dropWhile isEdge).reverse).filter
    fun c => !(c == '\t' || c == '\n' || c == '\r')

/-- The scheme at the start of a text, in small letters, and what follows its colon. -/
def scheme? (cs : List Char) : Option (String × List Char) :=
  let isSchemeChar (c : Char) : Bool := c.isAlphanum || c == '+' || c == '-' || c == '.'
  let name := cs.takeWhile isSchemeChar
  match name, cs.dropWhile isSchemeChar with
  | first :: _, ':' :: rest => if first.isAlpha then some (lowerAscii (String.ofList name), rest) else none
  | _, _ => none

def isSlash (c : Char) : Bool := c == '/' || c == '\\'

/-- The characters that end a path segment, or a host and its port. -/
def isSeparator (special : Bool) (c : Char) : Bool := c == '/' || (special && c == '\\')

/-- The characters after which a path is over. -/
def endsPath (c : Char) : Bool := c == '?' || c == '#'

/-! ## Paths -/

/-- A segment in which each dot is written plainly or as `%2e`, with the dots plain. -/
def plainDots : List Char → List Char
  | '%' :: '2' :: e :: rest => if e = 'e' || e = 'E' then '.' :: plainDots rest else '%' :: '2' :: e :: rest
  | '.' :: rest => '.' :: plainDots rest
  | cs => cs

def isSingleDot (segment : List Char) : Bool := plainDots segment == ['.']

def isDoubleDot (segment : List Char) : Bool := plainDots segment == ['.', '.']

/-- The drive that a segment names, with a colon: a letter and a colon or a bar. -/
def drive? : List Char → Option String
  | [letter, mark] =>
    if letter.isAlpha && (mark == ':' || mark == '|') then some (String.ofList [letter, ':']) else none
  | _ => none

/-- Whether a segment is a drive in its written form. -/
def isDrive (segment : String) : Bool :=
  match segment.toList with
  | [letter, ':'] => letter.isAlpha
  | _ => false

/-- The path without its last segment; a drive stays. -/
def parentPath (isFile : Bool) (path : List String) : List String :=
  if isFile && (path.getLast?.map isDrive).getD false then path else path.dropLast

/-- Follow segments from a path; the last one is not followed by a slash. -/
def followSegments (isFile : Bool) : (path : List String) → List (List Char) → List String
  | path, [] => path
  | path, segment :: rest =>
    let isLast := rest.isEmpty
    let path :=
      if isDoubleDot segment then
        parentPath isFile path ++ (if isLast then [""] else [])
      else if isSingleDot segment then path ++ (if isLast then [""] else [])
      else
        match (if isFile && path.isEmpty then drive? segment else none) with
        | some drive => path ++ [drive]
        | none => path ++ [percentEncode encodedInPath segment]
    followSegments isFile path rest

/-- The path of a `file` URL: empty segments at its start are dropped. -/
def filePath (path : List String) : List String :=
  match path.dropWhile (· == "") with
  | [] => [""]
  | path => path

/-- The path that a text leads to from another path, and the rest of the text. -/
def readPath (scheme : String) (path : List String) (cs : List Char) : List String × List Char :=
  let isFile := scheme == "file"
  let pieces := splitBy (isSeparator (isSpecialScheme scheme)) (cs.takeWhile (!endsPath ·))
  let path := followSegments isFile path pieces
  (if isFile then filePath path else path, cs.dropWhile (!endsPath ·))

def pathAfterAuthority (scheme : String) (cs : List Char) : List String × List Char :=
  let special := isSpecialScheme scheme
  match cs with
  | [] => (if special then [""] else [], [])
  | c :: rest =>
    if isSeparator special c then readPath scheme [] rest
    else if endsPath c && !special then ([], cs)
    else readPath scheme [] cs

/-! ## Query and fragment -/

/-- Complete a URL by the query and the fragment at the start of a text, which is empty or starts with
a question mark or a number sign. -/
def withQueryAndFragment (u : Url) (cs : List Char) : Url :=
  let encoded := if u.isSpecial then encodedInSpecialQuery else encodedInQuery
  let fragmentOf (cs : List Char) : Option String :=
    match cs with
    | '#' :: rest => some (percentEncode encodedInFragment rest)
    | _ => none
  match cs with
  | '?' :: rest =>
    { u with
      query := some (percentEncode encoded (rest.takeWhile (· != '#')))
      fragment := fragmentOf (rest.dropWhile (· != '#')) }
  | cs => { u with query := none, fragment := fragmentOf cs }

/-! ## Authorities -/

/-- The texts before and after the last occurrence of an element. -/
def splitAtLast? (c : Char) (cs : List Char) : Option (List Char × List Char) :=
  if cs.contains c then
    let reversed := cs.reverse
    some (((reversed.dropWhile (· != c)).drop 1).reverse, (reversed.takeWhile (· != c)).reverse)
  else none

/-- User name and password before the last at sign of an authority, and what follows. -/
def readUserinfo (special : Bool) (cs : List Char) :
    Except Problem (String × String × List Char) :=
  let isEnd (c : Char) : Bool := isSeparator special c || endsPath c
  let inside := cs.takeWhile (!isEnd ·)
  let after := cs.dropWhile (!isEnd ·)
  match splitAtLast? '@' inside with
  | none => .ok ("", "", cs)
  | some ([], host) =>
    if host.isEmpty && !after.isEmpty then .error .emptyHost else .ok ("", "", host ++ after)
  | some (userinfo, host) =>
    let name := userinfo.takeWhile (· != ':')
    let password := (userinfo.dropWhile (· != ':')).drop 1
    .ok (percentEncode encodedInUserinfo name, percentEncode encodedInUserinfo password, host ++ after)

/-- The characters of a host: up to a colon outside of square brackets or the end of the authority. -/
def hostLength (special : Bool) : (inBrackets : Bool) → List Char → Nat
  | _, [] => 0
  | inBrackets, c :: rest =>
    if (c == ':' && !inBrackets) || isSeparator special c || endsPath c then 0
    else hostLength special (if c = '[' then true else if c = ']' then false else inBrackets) rest + 1

/-- The port at the start of a text that follows a colon; none if no digits are there. -/
def readPort (cs : List Char) : Except Problem (Option Nat × List Char) :=
  let digits := cs.takeWhile Char.isDigit
  let rest := cs.dropWhile Char.isDigit
  let port := numberIn 10 digits
  if 65535 < port then .error .invalidPort
  else match rest with
    | c :: _ =>
      if isSlash c || endsPath c then .ok (if digits.isEmpty then none else some port, rest)
      else .error .invalidPort
    | [] => .ok (if digits.isEmpty then none else some port, rest)

/-- The authority at the start of a text that follows two slashes. An empty host is one of a URL that is
not special and then goes without user and port. -/
def readAuthority (scheme : String) (cs : List Char) : Except Problem (Authority × List Char) := do
  let special := isSpecialScheme scheme
  let (username, password, cs) ← readUserinfo special cs
  let n := hostLength special false cs
  let hostText := cs.take n
  let rest := cs.drop n
  if hostText.isEmpty && special then throw .emptyHost
  let host ← if special then specialHost hostText else plainHost hostText
  let (port, rest) ← match rest with
    | ':' :: digits => if hostText.isEmpty then throw .emptyHost else readPort digits
    | rest => pure (none, rest)
  if hostText.isEmpty && !(username.isEmpty && password.isEmpty) then throw .emptyHost
  return ({ username, password, host, port := port.filter (some · != defaultPort? scheme) }, rest)

/-- The URL whose authority starts a text. -/
def afterSlashes (scheme : String) (cs : List Char) : Except Problem Url := do
  let (authority, cs) ← readAuthority scheme cs
  let (path, cs) := pathAfterAuthority scheme cs
  return ({ scheme, authority := some authority, path := .segments path } : Url).withQueryAndFragment cs

/-! ## Files -/

/-- A host that is none: `file` URLs are written with the slashes of an authority even without a host. -/
def noHost : Authority := { host := .name "" }

/-- Whether a text starts with a drive that is a whole segment. -/
def startsWithDrive (cs : List Char) : Bool :=
  (drive? (cs.take 2)).isSome && ((cs.drop 2).head?.map fun c => isSlash c || endsPath c).getD true

def fileUrl (authority : Authority) (path : List String) (cs : List Char) : Url :=
  let (path, rest) := readPath "file" path cs
  let authority := if (path.head?.map isDrive).getD false then noHost else authority
  ({ scheme := "file", authority := some authority, path := .segments path } : Url).withQueryAndFragment rest

/-- The host of a `file` URL after two slashes; the own host is none. -/
def readFileHost (cs : List Char) : Except Problem Url := do
  let isEnd (c : Char) : Bool := isSlash c || endsPath c
  let hostText := cs.takeWhile (!isEnd ·)
  if (drive? hostText).isSome then return fileUrl noHost [] cs
  let host ← if hostText.isEmpty then pure (.name "") else specialHost hostText
  let host := if host = .name "localhost" then .name "" else host
  let rest := cs.dropWhile (!isEnd ·)
  return fileUrl { host } [] (match rest with | c :: more => if isSlash c then more else rest | [] => [])

/-- A `file` URL, relative to a base if there is one. -/
def readFile (base : Option Url) (cs : List Char) : Except Problem Url :=
  match cs with
  | a :: rest =>
    if isSlash a then
      match rest with
      | b :: rest' =>
        if isSlash b then readFileHost rest'
        else .ok (fromRoot rest)
      | [] => .ok (fromRoot rest)
    else
      match base with
      | none => .ok (fileUrl noHost [] cs)
      | some u =>
        if a = '?' then .ok (u.withQueryAndFragment cs)
        else if a = '#' then .ok { u with fragment := some (percentEncode encodedInFragment rest) }
        else if startsWithDrive cs then .ok (fileUrl noHost [] cs)
        else .ok (fileUrl (u.authority.getD noHost) (parentPath true u.segments) cs)
  | [] => .ok ((base.map fun u => { u with fragment := none }).getD (fileUrl noHost [] []))
where
  /-- A path from the root: a base keeps its drive, or else its host. -/
  fromRoot (cs : List Char) : Url :=
    if startsWithDrive cs then fileUrl noHost [] cs
    else match base with
      | none => fileUrl noHost [] cs
      | some u =>
        match u.segments with
        | first :: _ =>
          if isDrive first then fileUrl noHost [first] cs else fileUrl (u.authority.getD noHost) [] cs
        | [] => fileUrl (u.authority.getD noHost) [] cs

/-! ## References -/

/-- A reference without scheme, or with the scheme of its base, relative to a base that is no file. -/
def readRelative (base : Url) (cs : List Char) : Except Problem Url :=
  match cs with
  | [] => .ok { base with fragment := none }
  | c :: rest =>
    if c = '?' then .ok (base.withQueryAndFragment cs)
    else if c = '#' then .ok { base with fragment := some (percentEncode encodedInFragment rest) }
    else if isSlash c then
      match rest with
      | c' :: rest' =>
        if isSlash c' then
          afterSlashes base.scheme (if c = '/' && c' = '/' then rest' else cs.dropWhile isSlash)
        else .ok (onPath [] rest)
      | [] => .ok (onPath [] rest)
    else .ok (onPath base.segments.dropLast cs)
where
  /-- The base with another path. -/
  onPath (path : List String) (cs : List Char) : Url :=
    let (path, rest) := readPath base.scheme path cs
    { base with path := .segments path }.withQueryAndFragment rest

/-- What follows a scheme that is not special and no authority. -/
def readPlain (scheme : String) (cs : List Char) : Url :=
  match cs with
  | '/' :: rest =>
    let (path, rest) := readPath scheme [] rest
    ({ scheme, path := .segments path } : Url).withQueryAndFragment rest
  | cs =>
    ({ scheme, path := .opaqueText (percentEncode isControl (cs.takeWhile (!endsPath ·))) } : Url)
      |>.withQueryAndFragment (cs.dropWhile (!endsPath ·))

/-- What follows a scheme. -/
def afterScheme (base : Option Url) (scheme : String) (cs : List Char) : Except Problem Url :=
  if scheme = "file" then readFile (base.filter (·.scheme == "file")) cs
  else if isSpecialScheme scheme then
    let slashes := (cs.takeWhile isSlash).length
    match base.filter fun u => slashes < 2 && u.scheme == scheme with
    | some u => readRelative u cs
    | none => afterSlashes scheme (cs.dropWhile isSlash)
  else
    match cs with
    | '/' :: '/' :: rest => afterSlashes scheme rest
    | cs => .ok (readPlain scheme cs)

/-- Read a URL, relative to a base if there is one. -/
def read (base : Option Url) (text : String) : Except Problem Url :=
  let cs := cleaned text
  match scheme? cs with
  | some (scheme, rest) => afterScheme base scheme rest
  | none =>
    match base with
    | none => .error .relativeWithoutBase
    | some u =>
      match cs with
      | '#' :: rest => .ok { u with fragment := some (percentEncode encodedInFragment rest) }
      | cs =>
        if u.hasOpaquePath then .error .relativeToOpaqueBase
        else if u.scheme = "file" then readFile (some u) cs
        else readRelative u cs

def parse (text : String) : Except Problem Url := read none text

def join (base : Url) (reference : String) : Except Problem Url := read (some base) reference

end Hypertemplate.Url
