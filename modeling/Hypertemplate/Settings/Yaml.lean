import Hypertemplate.Settings.Basic
import Hypertemplate.Yaml.Document
import Hypertemplate.Yaml.Plain

/-!
# Settings in YAML

Settings are written as a mapping from names to scalars. A scalar is taken as it is written, whatever it
would mean elsewhere; only the base may be null. Names have to be known and may come only once. What is
wrong first in the order of the text decides, be it the text's form or its content.
-/

namespace Hypertemplate.Settings

open Hypertemplate.Text Hypertemplate.Yaml

def fieldNames : List String := ["attr_prefix", "nested_array_attr", "base_url", "user_agent"]

/-- What kind of item stands where another one is expected. -/
def misplaced (item : Item) (expected : String) : String :=
  let found := match item with
    | .scalar tag text isPlain =>
      if isPlain && tag.isNone then (Plain.ofText text).describe else (Plain.text text).describe
    | .sequenceStart | .sequenceEnd => "sequence"
    | _ => "map"
  "invalid type: " ++ found ++ ", expected " ++ expected

def scalarText (item : Item) (expected : String) : Except String String :=
  match item with
  | .scalar _ text _ => .ok text
  | item => .error (misplaced item expected)

def fieldName (item : Item) : Except String String := do
  let name ← scalarText item "field identifier"
  if fieldNames.contains name then return name
  else
    throw ("unknown field `" ++ name ++ "`, expected one of " ++
      String.intercalate ", " (fieldNames.map fun n => "`" ++ n ++ "`"))

/-- Whether a scalar stands for no value. -/
def isNull (item : Item) : Bool :=
  match item with
  | .scalar tag text true => tag.isNone && (text.isEmpty || isNullText text)
  | _ => false

/-- The base that a scalar writes. -/
def baseOf (item : Item) : Except String (Option Url) :=
  if isNull item then .ok none
  else do
    let text ← scalarText item "a string representing an URL"
    match Url.parse text with
    | .ok u => return some u
    | .error p => throw (p.message ++ ": " ++ quoted text)

def setField (s : Settings) (name : String) (item : Item) : Except String Settings :=
  match name with
  | "attr_prefix" => (scalarText item "a string").map fun t => { s with attributeLead := t }
  | "nested_array_attr" => (scalarText item "a string").map fun t => { s with nestedArrayAttribute := t }
  | "base_url" => (baseOf item).map fun u => { s with baseUrl := u }
  | _ => (scalarText item "a string").map fun t => { s with userAgent := t }

/-- A fault with the place where it is. -/
def atMark {α : Type} (lead : String) (mark : Mark) (result : Except String α) : Except String α :=
  result.mapError fun what => lead ++ what ++ mark.place

/-- The text of a scalar that is tagged as null. -/
def nullTagged? (item : Item) : Option String :=
  match item with
  | .scalar (some "tag:yaml.org,2002:null") text true => some text
  | _ => none

/-- Read the names and values of a mapping that starts at a mark; `seen` are the names so far. -/
def readFields (d : Yaml.Document) (start : Mark) :
    Settings → (seen : List String) → List (Item × Mark) → Except String Settings
  | _, _, [] => .error (d.fault.getD "EOF while parsing a value")
  | s, _, (.mappingEnd, _) :: _ => .ok s
  | s, seen, key :: rest => do
    let (item, mark) := d.follow key
    let name ← atMark "" mark (fieldName item)
    if seen.contains name then throw ("duplicate field `" ++ name ++ "`" ++ start.place)
    else
      match rest with
      | [] => throw (d.fault.getD "EOF while parsing a value")
      | value :: rest =>
        let lead := match key.1 with
          | .alias _ => "?: "
          | _ => name ++ ": "
        let (item, mark) := d.follow value
        let s ← match (if name = "base_url" then nullTagged? item else none) with
          | some text =>
            if isNullText text then pure { s with baseUrl := none }
            else throw ("invalid value: string " ++ quoted text ++ ", expected null" ++ start.place)
          | none => atMark lead mark (s.setField name item)
        readFields d start s (name :: seen) rest

/-- The settings that a document writes. -/
def ofDocument (d : Yaml.Document) : Except String Settings :=
  match d.items with
  | [] => .error (d.fault.getD "EOF while parsing a value")
  | (.nothing, _) :: _ => .ok {}
  | (.mappingStart, start) :: rest => readFields d start {} [] rest
  | (item, mark) :: _ =>
    match item with
    | .scalar _ "" true => .ok {}
    | item => atMark "" mark (.error (misplaced item "struct HtmjConfig"))

/-- Read settings; a blank text means the settings that hold without any. -/
def ofYaml (text : String) : Except Failure Settings :=
  if allBlank text then .ok {}
  else
    let d := Yaml.Document.first text
    let result := do
      let s ← ofDocument d
      match d.fault with
      | some fault => throw fault
      | none =>
        if d.isFollowed then
          throw "deserializing from YAML containing more than one document is not supported"
        else return s
    result.mapError .yaml

end Hypertemplate.Settings
