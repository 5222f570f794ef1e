import Hypertemplate.Fetch.Request
import Hypertemplate.Fetch.Response

/-!
# Scripted answers

A script answers requests without a network. Each pair of a method and a URL has a queue of answers; the
last one of a queue stays and answers again. A request that has no queue is refused. The script keeps the
requests that it saw.
-/

namespace Hypertemplate

open Hypertemplate.Text

/-- A scripted answer, with the milliseconds until it arrives. -/
structure Reply where
  answer : Except TransportFailure Response
  delay : Nat := 0

/-- The answers to requests with a method and a URL, the next one first. -/
structure Route where
  method : String
  url : String
  replies : List Reply

/-- The routes, and the requests seen so far in order. -/
structure Script where
  routes : List Route := []
  requests : List Request := []

namespace Script

/-- The answers that are queued for a method, in capitals, and a URL. -/
def replies? (s : Script) (method url : String) : Option (List Reply) :=
  (s.routes.find? fun r => r.method == method && r.url == url).map (·.replies)

/-- Change the queue of a method, in capitals, and a URL, and make it if there is none. -/
def updateRoute (method url : String) (f : List Reply → List Reply) : List Route → List Route
  | [] => [⟨method, url, f []⟩]
  | r :: rest =>
    if r.method = method ∧ r.url = url then { r with replies := f r.replies } :: rest
    else r :: updateRoute method url f rest

/-- Queue an answer for a method, in any letter case, and a URL. -/
def push (s : Script) (method url : String) (reply : Reply) : Script :=
  { s with routes := updateRoute (upperAscii method) url (· ++ [reply]) s.routes }

/-- A queue after its first answer was given: the last one stays. -/
def afterReply : List Reply → List Reply
  | _ :: next :: rest => next :: rest
  | replies => replies

/-- The answer to a request that has no queue. -/
def refusal (r : Request) : Reply :=
  { answer := .error (.request ("connection refused: " ++ r.method ++ " " ++ r.url)) }

/-- Answer a request. The method has to be in capitals to find its queue. -/
def send (s : Script) (r : Request) : Reply × Script :=
  let s := { s with requests := s.requests ++ [r] }
  match s.replies? r.method r.url with
  | some (reply :: rest) =>
    (reply, { s with routes := updateRoute r.method r.url (fun _ => afterReply (reply :: rest)) s.routes })
  | _ => (refusal r, s)

end Script

end Hypertemplate
