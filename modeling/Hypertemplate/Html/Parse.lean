import Hypertemplate.Html.Lexer
import Hypertemplate.Html.Layout
import Hypertemplate.Html.OuterRules
import Hypertemplate.Document.Basic

/-!
# Reading a page

`parse` reads the markup of a page into a document. Every text is a page: what is missing is made up, what
is out of place is moved or dropped. In the document all elements belong to one vocabulary, attributes are
in order of family and name, and what stands between the tags of a template is its content fragment.
-/

namespace Hypertemplate.Html

/-! ## Feeding tokens to the builder -/

namespace Builder

/-- The times that one token can be handled again. -/
def againBound (b : Builder) : Nat := 3 * (b.stack.length + b.templateModes.length) + 16

/-- Handle a token until a rule is done with it. -/
def handle : (bound : Nat) → Builder → Token → Builder
  | 0, b, _ => b
  | bound + 1, b, t =>
    let outcome := if b.takesForeignRules t then b.foreign t else b.step t
    if outcome.again then handle bound outcome.builder t else outcome.builder

/-- A document type counts only in front of everything else. -/
def takeDoctype (b : Builder) (d : Doctype) : Builder :=
  if b.mode = .initial then
    let (i, b) := b.create (.doctype (d.name.getD ""))
    { b with draft := b.draft.append 0 i, oldLayout := d.asksForOldLayout, mode := .beforeHtml }
  else b

/-- Take the next token of a page. A line feed right after the start tag of preformatted text is
dropped. -/
def feed (b : Builder) (t : Token) : Builder :=
  let skips := b.skipsLineFeed
  let b := { b with skipsLineFeed := false }
  match t with
  | .doctype d => b.takeDoctype d
  | .char c => if skips && c == '\n' then b else handle b.againBound b t
  | _ => handle b.againBound b t

/-- Read characters and feed their tokens; `bound` limits the times that the text is cut. -/
def readAll : (bound : Nat) → Builder → List Char → Builder
  | 0, b, _ => b
  | _ + 1, b, [] => b.feed .endOfFile
  | bound + 1, b, c :: rest =>
    let lexed := lex b.reading b.isForeign c rest
    let b := lexed.tokens.foldl feed { b with reading := lexed.mode }
    readAll bound b lexed.rest

end Builder

/-- The draft of a page. -/
def draftOf (text : String) : Draft :=
  let cs := pageCharacters text
  (Builder.readAll (cs.length + 1) {} cs).draft

/-! ## From the draft to the document -/

/-- Families come in order of their names, after attributes without family. -/
def familyBefore : Option String → Option String → Bool
  | none, some _ => true
  | some a, some b => decide (a < b)
  | _, none => false

/-- Whether an attribute comes before another one. -/
def attributeBefore (a b : DraftAttribute) : Bool :=
  familyBefore a.family b.family || (a.family == b.family && decide (a.name < b.name))

/-- Put an attribute before the first that comes after it. -/
def insertSorted (a : DraftAttribute) : List DraftAttribute → List DraftAttribute
  | [] => [a]
  | b :: rest => if attributeBefore a b then a :: b :: rest else b :: insertSorted a rest

/-- Attributes in order of family and name. -/
def sortAttributes (attributes : List DraftAttribute) : List DraftAttribute :=
  attributes.foldr insertSorted []

/-- Copy a draft node and all below it to the end of a document node; `depth` bounds the levels. -/
def settle (t : Draft) : (depth : Nat) → (parent : NodeId) → Document → Nat → Document
  | 0, _, d, _ => d
  | depth + 1, parent, d, i =>
    match (t.node i).kind with
    | .page => (t.node i).children.foldl (settle t depth parent) d
    | .doctype name => d.setDoctype name
    | .text text =>
      let (n, d) := d.createText text
      d.appendChild parent n
    | .comment text =>
      let (n, d) := d.createComment text
      d.appendChild parent n
    | .element _ name attributes =>
      let (n, d) := d.createElement name
      let d := (sortAttributes attributes).foldl (fun d a => d.setAttribute n a.name a.value) d
      let container := (d.content? n).getD n
      let d := (t.node i).children.foldl (settle t depth container) d
      d.appendChild parent n

end Hypertemplate.Html

namespace Hypertemplate.Document

open Html

/-- The document of a page. -/
def parse (html : String) : Document :=
  let t := draftOf html
  settle t (t.size + 1) root empty 0

end Hypertemplate.Document
