import Hypertemplate.Yaml.Token

/-!
# YAML events

The events of a text are its documents and nodes in the order in which they start and end. They are what
is left of the tokens once every node is known; nodes that are left out are empty plain scalars. The events
before a fault are kept, so that what can be read of a text is read before the fault counts.
-/

namespace Hypertemplate.Yaml

inductive Event where
  | documentStart
  | documentEnd
  | streamEnd
  | alias (name : String)
  | scalar (anchor tag : Option String) (text : String) (isPlain : Bool)
  | sequenceStart (anchor : Option String)
  | sequenceEnd
  | mappingStart (anchor : Option String)
  | mappingEnd
  deriving DecidableEq, Repr, Inhabited

/-- The events of a text with the places where they start, and why there are no more if the text is
malformed. -/
structure Stream where
  events : List (Event × Mark)
  problem : Option Problem := none

/-- The tokens that are left, why there are no more of them, the events so far with the latest in front,
and what the handles of tags stand for. -/
structure Reading where
  tokens : List Token
  problem : Option Problem
  events : List (Event × Mark) := []
  handles : List (String × String) := []

abbrev Reader := EStateM Problem Reading

namespace Reader

def emit (event : Event) (mark : Mark) : Reader Unit :=
  modify fun r => { r with events := (event, mark) :: r.events }

/-- The next token, which stays. -/
def peek : Reader Token := do
  let r ← get
  match r.tokens, r.problem with
  | t :: _, _ => return t
  | [], some p => throw p
  | [], none => throw { what := "unexpected end of stream" }

/-- Pass the next token. -/
def skip : Reader Unit := modify fun r => { r with tokens := r.tokens.drop 1 }

/-- The next token after the one that is passed. -/
def next : Reader Token := do
  skip
  peek

def fail {α : Type} (what : String) (mark : Mark) (context : Option (String × Mark) := none) : Reader α :=
  throw { what, mark, context }

def missingNode (mark : Mark) : Reader Unit := emit (.scalar none none "" true) mark

/-! ## Properties of nodes -/

/-- The tag that a handle and a suffix write. -/
def resolveTag (start : Mark) (t : Token) (handle suffix : String) : Reader String := do
  if handle.isEmpty then return suffix
  else
    match ((← get).handles ++ [("!", "!"), ("!!", "tag:yaml.org,2002:")]).find? (·.1 == handle) with
    | some (_, lead) => return lead ++ suffix
    | none => fail "found undefined tag handle" t.start ("while parsing a node", start)

/-- An anchor, if one is next. -/
def anchor? : Reader (Option String) := do
  match (← peek).kind with
  | .anchor name => do
    skip
    return some name
  | _ => return none

/-- A tag, if one is next. -/
def tag? : Reader (Option (Token × String × String)) := do
  let t ← peek
  match t.kind with
  | .tag handle suffix => do
    skip
    return some (t, handle, suffix)
  | _ => return none

/-- The anchor and the tag of a node, in either order. -/
def properties (start : Mark) : Reader (Option String × Option String) := do
  let first ← anchor?
  let tag ← tag?
  let anchor ← match first, tag with
    | none, some _ => anchor?
    | _, _ => pure first
  match tag with
  | some (t, handle, suffix) => return (anchor, some (← resolveTag start t handle suffix))
  | none => return (anchor, none)

/-! ## Nodes -/

/-- A node; `inBlock` says whether it may be a block, and `mayHang` whether it may be a sequence whose
entries are not further in. -/
def nodeWith (collection : TokenKind → Mark → Reader Unit) (inBlock mayHang : Bool) : Reader Unit := do
  let t ← peek
  match t.kind with
  | .alias name => do
    skip
    emit (.alias name) t.start
  | _ => do
    let start := t.start
    let (anchor, tag) ← properties start
    let t ← peek
    match t.kind with
    | .scalar text isPlain => do
      skip
      emit (.scalar anchor tag text isPlain) start
    | .flowSequenceStart => do
      emit (.sequenceStart anchor) start
      collection t.kind t.start
    | .flowMappingStart => do
      emit (.mappingStart anchor) start
      collection t.kind t.start
    | kind =>
      if kind = .entry && mayHang then do
        emit (.sequenceStart anchor) start
        collection kind t.start
      else if kind = .blockSequenceStart && inBlock then do
        emit (.sequenceStart anchor) start
        collection kind t.start
      else if kind = .blockMappingStart && inBlock then do
        emit (.mappingStart anchor) start
        collection kind t.start
      else if anchor.isSome || tag.isSome then emit (.scalar anchor tag "" true) start
      else
        fail "did not find expected node content" t.start
          (if inBlock then "while parsing a block node" else "while parsing a flow node", start)

/-- A node unless one of some tokens is next, which means that it is left out. -/
def nodeUnless (node : Reader Unit) (missing : Mark) (ends : List TokenKind) : Reader Unit := do
  if ends.contains (← peek).kind then missingNode missing else node

/-- The entries of a block sequence. -/
def blockEntries (node : Reader Unit) (start : Mark) : (bound : Nat) → Reader Unit
  | 0 => return
  | bound + 1 => do
    let t ← peek
    match t.kind with
    | .entry => do
      skip
      nodeUnless node t.stop [.entry, .blockEnd]
      blockEntries node start bound
    | .blockEnd => do
      skip
      emit .sequenceEnd t.start
    | _ => fail "did not find expected '-' indicator" t.start ("while parsing a block collection", start)

/-- The entries of a sequence in a mapping that are not further in than its keys. -/
def hangingEntries (node : Reader Unit) : (bound : Nat) → Reader Unit
  | 0 => return
  | bound + 1 => do
    let t ← peek
    match t.kind with
    | .entry => do
      skip
      nodeUnless node t.stop [.entry, .key, .value, .blockEnd]
      hangingEntries node bound
    | _ => emit .sequenceEnd t.start

/-- The value of a block mapping's key. -/
def blockValue (node : Reader Unit) : Reader Unit := do
  let t ← peek
  match t.kind with
  | .value => do
    skip
    nodeUnless node t.stop [.key, .value, .blockEnd]
  | _ => missingNode t.start

/-- The keys and values of a block mapping. -/
def blockPairs (node : Reader Unit) (start : Mark) : (bound : Nat) → Reader Unit
  | 0 => return
  | bound + 1 => do
    let t ← peek
    match t.kind with
    | .key => do
      skip
      nodeUnless node t.stop [.key, .value, .blockEnd]
      blockValue node
      blockPairs node start bound
    | .blockEnd => do
      skip
      emit .mappingEnd t.start
    | _ => fail "did not find expected key" t.start ("while parsing a block mapping", start)

/-- A pair that stands in a flow sequence, which is a mapping of its own. -/
def flowPair (node : Reader Unit) (mark : Mark) : Reader Unit := do
  emit (.mappingStart none) mark
  let t ← next
  if [TokenKind.value, .flowEntry, .flowSequenceEnd].contains t.kind then do
    skip
    missingNode t.stop
  else node
  let t ← peek
  if t.kind = .value then do
    skip
    nodeUnless node (← peek).start [.flowEntry, .flowSequenceEnd]
  else missingNode t.start
  emit .mappingEnd (← peek).start

/-- The comma before an entry that is not the first one. -/
def flowComma (isFirst : Bool) (inside closer : String) (start : Mark) : Reader Unit := do
  if isFirst then return
  let t ← peek
  if t.kind = .flowEntry then skip
  else fail ("did not find expected ',' or '" ++ closer ++ "'") t.start (inside, start)

/-- The entries of a flow sequence. -/
def flowEntries (node : Reader Unit) (start : Mark) : (bound : Nat) → (isFirst : Bool) → Reader Unit
  | 0, _ => return
  | bound + 1, isFirst => do
    if (← peek).kind ≠ .flowSequenceEnd then flowComma isFirst "while parsing a flow sequence" "]" start
    let t ← peek
    match t.kind with
    | .flowSequenceEnd => do
      skip
      emit .sequenceEnd t.start
    | .key => do
      flowPair node t.start
      flowEntries node start bound false
    | _ => do
      node
      flowEntries node start bound false

/-- The keys and values of a flow mapping. A key may stand without a value. -/
def flowPairs (node : Reader Unit) (start : Mark) : (bound : Nat) → (isFirst : Bool) → Reader Unit
  | 0, _ => return
  | bound + 1, isFirst => do
    if (← peek).kind ≠ .flowMappingEnd then flowComma isFirst "while parsing a flow mapping" "\x7d" start
    let t ← peek
    match t.kind with
    | .flowMappingEnd => do
      skip
      emit .mappingEnd t.start
    | .key => do
      let t ← next
      nodeUnless node t.start [.value, .flowEntry, .flowMappingEnd]
      let t ← peek
      if t.kind = .value then do
        skip
        nodeUnless node (← peek).start [.flowEntry, .flowMappingEnd]
      else missingNode t.start
      flowPairs node start bound false
    | _ => do
      node
      missingNode (← peek).start
      flowPairs node start bound false

/-- A node that is nested at most `depth` levels deep. -/
def node : (depth : Nat) → (inBlock mayHang : Bool) → Reader Unit
  | 0, _, _ => return
  | depth + 1, inBlock, mayHang =>
    nodeWith (fun kind start => do
      let bound := (← get).tokens.length + 1
      match kind with
      | .flowSequenceStart => do
        skip
        flowEntries (node depth false false) start bound true
      | .flowMappingStart => do
        skip
        flowPairs (node depth false false) start bound true
      | .blockSequenceStart => do
        skip
        blockEntries (node depth true false) start bound
      | .blockMappingStart => do
        skip
        blockPairs (node depth true true) start bound
      | _ => hangingEntries (node depth true false) bound) inBlock mayHang

/-! ## Documents -/

/-- The directives before a document. -/
def directives : (bound : Nat) → (versions : Nat) → Reader Unit
  | 0, _ => return
  | bound + 1, versions => do
    let t ← peek
    match t.kind with
    | .version major minor =>
      if 0 < versions then fail "found duplicate %YAML directive" t.start
      else if major ≠ 1 ∨ (minor ≠ 1 ∧ minor ≠ 2) then
        fail "found incompatible YAML document" t.start
      else do
        skip
        directives bound (versions + 1)
    | .tagDirective handle lead =>
      if (← get).handles.any (·.1 == handle) then fail "found duplicate %TAG directive" t.start
      else do
        skip
        modify fun r => { r with handles := (handle, lead) :: r.handles }
        directives bound versions
    | _ => return

/-- Pass marks of the end of a document. -/
def skipDocumentEnds : (bound : Nat) → Reader Unit
  | 0 => return
  | bound + 1 => do
    if (← peek).kind = .documentEnd then do
      skip
      skipDocumentEnds bound

/-- The end of a document, which need not be marked. -/
def documentEnd : Reader Unit := do
  let t ← peek
  emit .documentEnd t.start
  if t.kind = .documentEnd then skip

/-- A document that starts with its mark. -/
def markedDocument (bound : Nat) : Reader Unit := do
  let start := (← peek).start
  modify fun r => { r with handles := [] }
  directives bound 0
  let t ← peek
  if t.kind ≠ .documentStart then fail "did not find expected <document start>" t.start
  emit .documentStart start
  let t ← next
  match t.kind with
  | .version .. | .tagDirective .. | .documentStart | .documentEnd | .streamEnd => missingNode t.start
  | _ => node bound true false
  documentEnd

/-- The documents of a text. Only the first may go without its mark. -/
def documents : (bound : Nat) → (isFirst : Bool) → Reader Unit
  | 0, _ => return
  | bound + 1, isFirst => do
    if !isFirst then skipDocumentEnds (bound + 1)
    let t ← peek
    match t.kind with
    | .streamEnd => emit .streamEnd t.start
    | .version .. | .tagDirective .. | .documentStart => do
      markedDocument (bound + 1)
      documents bound false
    | _ => do
      if isFirst then do
        emit .documentStart t.start
        node (bound + 1) true false
        documentEnd
        documents bound false
      else markedDocument (bound + 1)

end Reader

def events (text : String) : Stream :=
  let (tokens, problem) := tokens text
  match (Reader.documents (tokens.length + 1) true).run { tokens, problem } with
  | .ok _ r => { events := r.events.reverse }
  | .error p r => { events := r.events.reverse, problem := some p }

end Hypertemplate.Yaml
