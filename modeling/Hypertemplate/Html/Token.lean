/-!
# Tokens of markup

What the characters of a page are cut into before the tree is built. The null character is a token of its
own, because the places where it is dropped differ from those where it is replaced.
-/

namespace Hypertemplate.Html

/-- The parts of a document type declaration. -/
structure Doctype where
  name : Option String := none
  publicId : Option String := none
  systemId : Option String := none
  malformed : Bool := false
  deriving DecidableEq, Repr, Inhabited

/-- A start tag; of attributes with one name the first is kept. -/
structure Tag where
  name : String
  attributes : List (String × String) := []
  selfClosing : Bool := false
  deriving DecidableEq, Repr, Inhabited

inductive Token where
  | doctype (d : Doctype)
  | startTag (t : Tag)
  | endTag (name : String)
  | comment (text : String)
  | char (c : Char)
  | nullChar
  | endOfFile
  deriving DecidableEq, Repr, Inhabited

/-- How far into a comment-like part of a script the reader is: outside, inside, or inside a nested script
element; and how many hyphens were just read. -/
inductive ScriptPart where
  | plain
  | escaped (hyphens : Nat)
  | nested (hyphens : Nat)
  deriving DecidableEq, Repr, Inhabited

/-- How the next characters are read. The raw modes end at the end tag of the element they name. -/
inductive ReadMode where
  | data
  | escapableRaw (element : String)
  | raw (element : String)
  | script (part : ScriptPart)
  | plaintext
  deriving DecidableEq, Repr, Inhabited

end Hypertemplate.Html
