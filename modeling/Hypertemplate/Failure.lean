import Hypertemplate.Selector.Basic

/-!
# Failures

What can go wrong outside the fetching and rendering of data: reading files and settings, reading
selectors, setting up the client. Each failure has a message and a hint how to fix it.
-/

namespace Hypertemplate

open Selector

inductive Failure where
  | io (reason : String)
  | yaml (reason : String)
  | invalidSelector (selector : String) (problem : Problem)
  | noMatch (selector : String)
  | invalidBaseUrl (url reason : String)
  | invalidDispatch (spec : String)
  | httpClient (reason : String)
  deriving DecidableEq, Repr, Inhabited

namespace Failure

/-- The name of the kind of failure. -/
def kind : Failure → String
  | io _ => "Io"
  | yaml _ => "YamlParse"
  | invalidSelector .. => "InvalidSelector"
  | noMatch _ => "NoMatch"
  | invalidBaseUrl .. => "InvalidBaseUrl"
  | invalidDispatch _ => "InvalidDispatch"
  | httpClient _ => "HttpClient"

/-- What is said about a failure. -/
def message : Failure → String
  | io reason => "IO error: " ++ reason
  | yaml reason => "YAML parse error: " ++ reason
  | invalidSelector selector problem =>
    "HTMJ-010: Invalid selector '" ++ selector ++ "': " ++ problem.reason
  | noMatch selector => "HTMJ-011: Selector '" ++ selector ++ "' matched no element"
  | invalidBaseUrl url reason => "HTMJ-020: Invalid base URL '" ++ url ++ "': " ++ reason
  | invalidDispatch spec =>
    "HTMJ-021: Invalid dispatch spec '" ++ spec ++ "' (expected SELECTOR:EVENT)"
  | httpClient reason => "HTMJ-030: HTTP client error: " ++ reason

/-- A hint how to fix the failure. -/
def fix : Failure → String
  | io _ => "Check file path and permissions"
  | yaml _ => "Check YAML syntax: indentation and quoting"
  | invalidSelector .. =>
    "Use a querySelector-style CSS selector; escape special characters with '\\' (e.g. #a\\:b). " ++
      "Dynamic pseudo-classes like :hover are rejected"
  | noMatch _ => "Verify the element exists in the page"
  | invalidBaseUrl .. => "Use an absolute URL such as http://localhost:5000/"
  | invalidDispatch _ => "Use e.g. --dispatch '#load-btn:click'"
  | httpClient _ => "Check TLS backend and user agent settings"

end Failure

end Hypertemplate
