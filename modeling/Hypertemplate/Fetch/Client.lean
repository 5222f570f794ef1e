import Hypertemplate.Binding.Diagnose
import Hypertemplate.Fetch.Script
import Hypertemplate.Settings.Basic

/-!
# Sending requests

A request goes to a script or out into the network. A client refuses what cannot be sent at all. What the
network answers to the rest is not said here: it is a function of the requests that it sees.
-/

namespace Hypertemplate

/-- A URL without user name and password, which are not shown in messages. -/
def Url.withoutUser (u : Url) : Url :=
  { u with authority := u.authority.map fun a => { a with username := "", password := "" } }

namespace Client

/-- A character that the value of a header can have. -/
def isHeaderChar (c : Char) : Bool := c == '\t' || (' ' ≤ c && c != '\x7f')

/-- Whether a client can be set up under a name. -/
def check (userAgent : String) : Except Failure Unit :=
  if userAgent.toList.all isHeaderChar then .ok () else .error (.httpClient "builder error")

/-- A character that a host can have in the target of a request: host names of URLs have a few more. -/
def isTargetHostChar (c : Char) : Bool := !("\"`\x7b\x7d".toList.contains c)

/-- The size in bytes above which the target of a request is refused. -/
def targetLimit : Nat := 65534

/-- Whether a URL is one that a request can be addressed to. -/
def isTarget (u : Url) : Bool :=
  (u.scheme == "http" || u.scheme == "https") &&
    u.authority.all (fun a => a.host.text.toList.all isTargetHostChar) &&
    u.withoutUser.text.utf8ByteSize ≤ targetLimit

/-- Why a client does not send a request at all. -/
def refusal? (r : Request) : Option TransportFailure :=
  match Url.parse r.url with
  | .error p => some (.invalidUrl r.url p.message)
  | .ok u =>
    if !isMethodToken r.method then some (.invalidMethod r.method)
    else if !isTarget u then some (.request ("builder error for url (" ++ u.withoutUser.text ++ ")"))
    else none

end Client

/-- The network that requests go out to. What it answers depends on the requests that it saw before. -/
structure Network where
  answer : List Request → Request → Reply
  requests : List Request := []

namespace Network

/-- Send a request, unless the client refuses it. -/
def send (n : Network) (r : Request) : Reply × Network :=
  match Client.refusal? r with
  | some failure => ({ answer := .error failure }, n)
  | none => (n.answer n.requests r, { n with requests := n.requests ++ [r] })

/-- The URL of a request as messages show it. -/
def shownUrl (r : Request) : String :=
  match Url.parse r.url with
  | .ok u => u.withoutUser.text
  | .error _ => r.url

/-- A network that no request gets through. -/
def unreachable : Network where
  answer _ r := { answer := .error (.request ("error sending request for url (" ++ shownUrl r ++ ")")) }

end Network

/-- What requests are sent to. -/
inductive Transport where
  | script (s : Script)
  | network (n : Network)

def Transport.send : Transport → Request → Reply × Transport
  | script s, r =>
    let (reply, s) := s.send r
    (reply, script s)
  | network n, r =>
    let (reply, n) := n.send r
    (reply, network n)

end Hypertemplate
