import Hypertemplate.Failure
import Hypertemplate.Binding.Attribute
import Hypertemplate.Url.Parse

/-!
# Settings

What a page is run with: the leading part of the binding attributes, the attribute that marks repeated
elements, the base of relative endpoints, and the name under which requests are sent. Environment
variables replace single settings.
-/

namespace Hypertemplate

/-- The settings of a page, with those that hold where nothing else is said. -/
structure Settings where
  attributeLead : String := "hx-"
  nestedArrayAttribute : String := "data-nested-array"
  baseUrl : Option Url := none
  userAgent : String := "htmj/0.1.0"
  deriving DecidableEq, Repr, Inhabited

namespace Settings

/-- The names of the binding attributes. -/
def names (s : Settings) : AttributeNames := .startingWith s.attributeLead

/-- Take a text as the base of relative endpoints. -/
def withBaseUrl (s : Settings) (base : String) : Except Failure Settings :=
  match Url.parse base with
  | .ok u => .ok { s with baseUrl := some u }
  | .error p => .error (.invalidBaseUrl base p.message)

/-- Apply environment variables. -/
def withEnvironment (s : Settings) (lookup : String → Option String) : Except Failure Settings := do
  let s ← match lookup "HTMJ_BASE_URL" with
    | some base => s.withBaseUrl base
    | none => pure s
  return { s with
    attributeLead := (lookup "HTMJ_ATTR_PREFIX").getD s.attributeLead
    nestedArrayAttribute := (lookup "HTMJ_NESTED_ARRAY_ATTR").getD s.nestedArrayAttribute }

end Settings

end Hypertemplate
