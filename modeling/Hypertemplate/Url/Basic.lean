import Hypertemplate.Url.Host

/-!
# URLs

A URL has a scheme, maybe an authority, a path, maybe a query and maybe a fragment. Its parts are kept in
the form in which they are written. A path is a list of segments, or, where the scheme is followed by
neither a slash nor an authority, a text without structure.
-/

namespace Hypertemplate

namespace Url

structure Authority where
  username : String := ""
  password : String := ""
  host : Host
  port : Option Nat := none
  deriving DecidableEq, Repr, Inhabited

inductive Path where
  | opaqueText (text : String)
  | segments (segments : List String)
  deriving DecidableEq, Repr

instance : Inhabited Path := ⟨.segments []⟩

def Authority.text (a : Authority) : String :=
  let userinfo := a.username ++ (if a.password = "" then "" else ":" ++ a.password)
  (if userinfo = "" then "" else userinfo ++ "@") ++ a.host.text ++
    ((a.port.map fun p => ":" ++ toString p).getD "")

def Path.text : Path → String
  | opaqueText t => t
  | segments ss => String.join (ss.map ("/" ++ ·))

/-- Whether a path without authority would read as one that has an authority. -/
def Path.startsLikeAuthority : Path → Bool
  | segments ("" :: _ :: _) => true
  | _ => false

/-- The port that a scheme has unless another one is given. -/
def defaultPort? (scheme : String) : Option Nat :=
  match scheme with
  | "http" | "ws" => some 80
  | "https" | "wss" => some 443
  | "ftp" => some 21
  | _ => none

/-- Schemes whose URLs have a host, which is a domain name or an address. -/
def isSpecialScheme (scheme : String) : Bool :=
  (defaultPort? scheme).isSome || scheme == "file"

end Url

structure Url where
  scheme : String
  authority : Option Url.Authority := none
  path : Url.Path
  query : Option String := none
  fragment : Option String := none
  deriving DecidableEq, Repr, Inhabited

namespace Url

def isSpecial (u : Url) : Bool := isSpecialScheme u.scheme

def hasOpaquePath (u : Url) : Bool :=
  match u.path with
  | .opaqueText _ => true
  | .segments _ => false

def segments (u : Url) : List String :=
  match u.path with
  | .opaqueText _ => []
  | .segments ss => ss

/-- A URL as it is written. -/
def text (u : Url) : String :=
  u.scheme ++ ":" ++
    (match u.authority with
      | some a => "//" ++ a.text
      | none => if u.path.startsLikeAuthority then "/." else "") ++
    u.path.text ++
    ((u.query.map ("?" ++ ·)).getD "") ++
    ((u.fragment.map ("#" ++ ·)).getD "")

end Url

end Hypertemplate
