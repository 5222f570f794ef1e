import Hypertemplate.Yaml.Event

/-!
# YAML documents

The first document of a text as a list of items. An alias is the number of its anchor; the number of an
anchor leads to the item that had it last. A document is kept up to the point where the text is malformed.
-/

namespace Hypertemplate.Yaml

inductive Item where
  /-- The whole of an empty text. -/
  | nothing
  | alias (number : Nat)
  | scalar (tag : Option String) (text : String) (isPlain : Bool)
  | sequenceStart
  | sequenceEnd
  | mappingStart
  | mappingEnd
  deriving DecidableEq, Repr, Inhabited

structure Document where
  items : List (Item × Mark) := []
  /-- The number of an anchor's name. -/
  names : List (String × Nat) := []
  /-- The place of the item that an anchor's number leads to. -/
  places : List (Nat × Nat) := []
  /-- Why there are no more items. -/
  fault : Option String := none
  /-- Whether another document follows. -/
  isFollowed : Bool := false

namespace Document

/-- Number the anchor of the next item. A name that comes again gets a new number. -/
def withAnchor (d : Document) : Option String → Document
  | none => d
  | some name =>
    let number := d.names.length
    { d with
      names := (name, number) :: d.names.filter (·.1 != name)
      places := (number, d.items.length) :: d.places }

def push (d : Document) (item : Item) (mark : Mark) : Document :=
  { d with items := d.items ++ [(item, mark)] }

/-- Take up events until the document ends. -/
def takeUp (problem : Option Problem) : Document → List (Event × Mark) → Document
  | d, [] => { d with fault := problem.map Problem.message }
  | d, (event, mark) :: rest =>
    match event with
    | .documentStart => takeUp problem d rest
    | .documentEnd => { d with isFollowed := !(rest.head?.map fun (e, _) => e == .streamEnd).getD false }
    | .streamEnd => if d.items.isEmpty then d.push .nothing mark else d
    | .alias name =>
      match d.names.find? (·.1 == name) with
      | some (_, number) => takeUp problem (d.push (.alias number) mark) rest
      | none => { d with fault := some ("unknown anchor" ++ mark.place) }
    | .scalar anchor tag text isPlain =>
      takeUp problem ((d.withAnchor anchor).push (.scalar tag text isPlain) mark) rest
    | .sequenceStart anchor => takeUp problem ((d.withAnchor anchor).push .sequenceStart mark) rest
    | .mappingStart anchor => takeUp problem ((d.withAnchor anchor).push .mappingStart mark) rest
    | .sequenceEnd => takeUp problem (d.push .sequenceEnd mark) rest
    | .mappingEnd => takeUp problem (d.push .mappingEnd mark) rest

def first (text : String) : Document :=
  let stream := events text
  takeUp stream.problem {} stream.events

/-- The item that an alias leads to; other items lead to themselves. -/
def follow (d : Document) (item : Item × Mark) : Item × Mark :=
  match item.1 with
  | .alias number =>
    ((d.places.find? (·.1 == number)).bind fun (_, place) => d.items[place]?).getD item
  | _ => item

end Document

end Hypertemplate.Yaml
