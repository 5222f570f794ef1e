import Hypertemplate.Json.Print
import Hypertemplate.Json.Read

/-!
# Responses

A response is data or an error. Its body has to be JSON. A status outside 200 to 299 is an error, and so is
an object with a field `error` that says something; the field's text is the error's.
-/

namespace Hypertemplate

open Hypertemplate.Json

/-- Why a request got no response: it was not sent, it got no answer, or the answer could not be read. -/
inductive TransportFailure where
  | invalidUrl (url reason : String)
  | invalidMethod (method : String)
  | request (reason : String)
  | body (reason : String)
  deriving DecidableEq, Repr, Inhabited

namespace TransportFailure

/-- The name of the kind of failure. -/
def kind : TransportFailure → String
  | invalidUrl .. => "InvalidUrl"
  | invalidMethod _ => "InvalidMethod"
  | request _ => "Request"
  | body _ => "Body"

def message : TransportFailure → String
  | invalidUrl url reason => "Invalid URL '" ++ url ++ "': " ++ reason
  | invalidMethod method => "Invalid HTTP method '" ++ method ++ "'"
  | request reason => "HTTP request failed: " ++ reason
  | body reason => "Failed to read response: " ++ reason

end TransportFailure

structure Response where
  status : Nat
  body : String
  deriving DecidableEq, Repr, Inhabited

def Response.isSuccess (r : Response) : Bool := 200 ≤ r.status && r.status < 300

/-- What a fetch gave. -/
inductive Fetched where
  | data (value : Value)
  | failed (message : String)

namespace Fetched

/-- The items that a fetch gives to render. -/
def itemCount : Fetched → Nat
  | data (.array items) => items.length
  | data _ => 1
  | failed _ => 0

def error? : Fetched → Option String
  | data _ => none
  | failed message => some message

def isError (f : Fetched) : Bool := f.error?.isSome

end Fetched

/-- What the field `error` of a response says; null, false, zero and an empty text say nothing. -/
def statedError? : Value → Option String
  | .null | .bool false => none
  | .number n => if n.isZero then none else some (Value.number n).text
  | .string s => if s = "" then none else some s
  | v => some v.text

/-- The error of a failed response that states none. -/
def unstatedError : String := "An error occurred"

/-- What a response means. -/
def Response.fetched (r : Response) : Fetched :=
  match Value.read r.body with
  | .error e => .failed ("Invalid JSON response: " ++ e.message r.body)
  | .ok v =>
    let stated := (v.get? "error").bind statedError?
    if r.isSuccess then
      match stated with
      | some message => .failed message
      | none => .data v
    else .failed (stated.getD unstatedError)

/-- What the answer to a request means. -/
def Fetched.ofAnswer : Except TransportFailure Response → Fetched
  | .ok response => response.fetched
  | .error failure => .failed failure.message

end Hypertemplate
