import Hypertemplate.Template.Placeholder

/-!
# Texts cut into tokens

`tokens` cuts a text in one walk over its characters into literal texts and the paths of placeholders. The pieces
of a text are measured against it: they are the same tokens, a literal one as its range of bytes
(`tokenize_eq_located`). So every range can be read back, and replacing the placeholders of a text never fails
(`resolve?_eq`).
-/

namespace Hypertemplate.Template

open Json Text

/-! ## Ranges of bytes -/

theorem byteLength_append (cs ds : List Char) : byteLength (cs ++ ds) = byteLength cs + byteLength ds := by
  induction cs with
  | nil => exact (Nat.zero_add _).symm
  | cons c rest ih => rw [List.cons_append, byteLength, byteLength, ih, Nat.add_assoc]

theorem byteLength_reverse (cs : List Char) : byteLength cs.reverse = byteLength cs := by
  induction cs with
  | nil => rfl
  | cons c rest ih =>
    rw [List.reverse_cons, byteLength_append, ih, byteLength, byteLength, byteLength]
    omega

theorem eq_nil_of_byteLength_eq_zero {cs : List Char} (h : byteLength cs = 0) : cs = [] := by
  cases cs with
  | nil => rfl
  | cons c rest =>
    have hc := c.utf8Size_pos
    rw [byteLength] at h
    omega

theorem splitAtByte?_eq_some_iff {cs : List Char} : ∀ {n : Nat} {before after : List Char},
    splitAtByte? n cs = some (before, after) ↔ cs = before ++ after ∧ byteLength before = n := by
  have hzero : ∀ {cs before after : List Char},
      splitAtByte? 0 cs = some (before, after) ↔ cs = before ++ after ∧ byteLength before = 0 := by
    intro cs before after
    rw [splitAtByte?, Option.some.injEq, Prod.mk.injEq]
    constructor
    · rintro ⟨rfl, rfl⟩
      exact ⟨rfl, rfl⟩
    · rintro ⟨rfl, hbytes⟩
      obtain rfl := eq_nil_of_byteLength_eq_zero hbytes
      exact ⟨rfl, rfl⟩
  induction cs with
  | nil =>
    intro n before after
    cases n with
    | zero => exact hzero
    | succ n =>
      refine iff_of_false nofun ?_
      rintro ⟨hcs, hbytes⟩
      rw [(List.append_eq_nil_iff.mp hcs.symm).1] at hbytes
      cases hbytes
  | cons c cs ih =>
    intro n before after
    cases n with
    | zero => exact hzero
    | succ n =>
      rw [splitAtByte?]
      constructor
      · intro h
        split at h
        · obtain ⟨⟨b, a⟩, hsplit, he⟩ := Option.map_eq_some_iff.mp h
          obtain ⟨rfl, rfl⟩ := Prod.mk.inj he
          obtain ⟨rfl, hbytes⟩ := ih.mp hsplit
          refine ⟨rfl, ?_⟩
          rw [byteLength]
          omega
        · cases h
      · rintro ⟨hcs, hbytes⟩
        cases before with
        | nil => cases hbytes
        | cons c' before =>
          obtain ⟨rfl, rfl⟩ := List.cons.inj hcs
          rw [byteLength] at hbytes
          rw [if_pos (by omega), Option.map_eq_some_iff]
          exact ⟨(before, after), ih.mpr ⟨rfl, by omega⟩, rfl⟩

/-- A range of bytes can be read if it begins and ends between characters. -/
theorem slice?_eq_some_iff {cs piece : List Char} {start stop : Nat} : slice? cs start stop = some piece ↔
    ∃ before after, cs = before ++ piece ++ after ∧ byteLength before = start ∧
      byteLength (before ++ piece) = stop := by
  unfold slice?
  constructor
  · intro h
    split at h
    · next hle =>
      obtain ⟨⟨before, rest⟩, hbefore, h⟩ := Option.bind_eq_some_iff.mp h
      obtain ⟨⟨piece', after⟩, hpiece, h⟩ := Option.bind_eq_some_iff.mp h
      obtain rfl : piece' = piece := Option.some.inj h
      obtain ⟨rfl, rfl⟩ := splitAtByte?_eq_some_iff.mp hbefore
      obtain ⟨rfl, hbytes⟩ := splitAtByte?_eq_some_iff.mp hpiece
      refine ⟨before, after, (List.append_assoc ..).symm, rfl, ?_⟩
      rw [byteLength_append]
      omega
    · cases h
  · rintro ⟨before, after, rfl, rfl, rfl⟩
    have hbefore : splitAtByte? (byteLength before) (before ++ piece ++ after) = some (before, piece ++ after) :=
      splitAtByte?_eq_some_iff.mpr ⟨List.append_assoc .., rfl⟩
    have hpiece : splitAtByte? (byteLength (before ++ piece) - byteLength before) (piece ++ after) =
        some (piece, after) :=
      splitAtByte?_eq_some_iff.mpr ⟨rfl, by rw [byteLength_append]; omega⟩
    rw [if_pos (by rw [byteLength_append]; omega), hbefore]
    change (splitAtByte? (byteLength (before ++ piece) - byteLength before) (piece ++ after)).bind _ = _
    rw [hpiece]
    rfl

/-! ## Tokens -/

/-- A literal text, or the path of a placeholder. -/
inductive Token where
  | literal (text : List Char)
  | placeholder (path : List Char)
  deriving DecidableEq, Repr

/-- A literal text, unless it is empty. -/
def literalOf (reversed : List Char) : List Token :=
  if reversed.isEmpty then [] else [.literal reversed.reverse]

/-- Cut a text into tokens; `held` is the literal text that is being read, last character first. -/
def tokensFrom (held : List Char) : List Char → List Token
  | [] => literalOf held
  | '$' :: '\x7b' :: body =>
    match _h : splitAtClose? body with
    | none => literalOf (body.reverse ++ '\x7b' :: '$' :: held)
    | some ([], after) => tokensFrom ('\x7d' :: '\x7b' :: '$' :: held) after
    | some (path, after) => literalOf held ++ .placeholder path :: tokensFrom [] after
  | c :: rest => tokensFrom (c :: held) rest
termination_by cs => cs.length
decreasing_by
  · have := splitAtClose?_length _h; simp; omega
  · have := splitAtClose?_length _h; simp; omega
  · simp

def tokens (text : String) : List Token := tokensFrom [] text.toList

/-- The characters that a token was read from. -/
def Token.source : Token → List Char
  | .literal cs => cs
  | .placeholder path => '$' :: '\x7b' :: (path ++ ['\x7d'])

def Token.isPlaceholder : Token → Bool
  | .placeholder _ => true
  | .literal _ => false

/-- The text of a token once its path is looked up in an item; a path that leads nowhere shows nothing. -/
def Token.fill (item : Value) : Token → String
  | .literal cs => String.ofList cs
  | .placeholder path => ((item.lookup (String.ofList path)).map displayText).getD ""

def hasPlaceholder (text : String) : Bool := (tokens text).any Token.isPlaceholder

/-- Replace every placeholder of a text by the shown text of the value at its path. -/
def substitute (text : String) (item : Value) : String :=
  String.join ((tokens text).map (Token.fill item))

/-! ## The walk over a text -/

/-- The path ends at the first closing brace. -/
theorem splitAtClose?_eq_some {cs path after : List Char} (h : splitAtClose? cs = some (path, after)) :
    cs = path ++ '\x7d' :: after ∧ '\x7d' ∉ path := by
  induction cs generalizing path with
  | nil => cases h
  | cons c rest ih =>
    rw [splitAtClose?] at h
    split at h
    · next hc =>
      obtain ⟨rfl, rfl⟩ := Prod.mk.inj (Option.some.inj h)
      exact ⟨by rw [hc]; rfl, List.not_mem_nil⟩
    · next hc =>
      obtain ⟨⟨p, a⟩, hp, he⟩ := Option.map_eq_some_iff.mp h
      obtain ⟨rfl, rfl⟩ := Prod.mk.inj he
      obtain ⟨hrest, hmem⟩ := ih hp
      rw [List.mem_cons, not_or]
      exact ⟨by rw [hrest, List.cons_append], Ne.symm hc, hmem⟩

theorem splitAtOpening?_eq_some {cs before body : List Char} (h : splitAtOpening? cs = some (before, body)) :
    cs = before ++ '$' :: '\x7b' :: body := by
  fun_induction splitAtOpening? cs generalizing before with
  | case1 => cases h
  | case2 body' =>
    obtain ⟨rfl, rfl⟩ := Prod.mk.inj (Option.some.inj h)
    rfl
  | case3 c rest _ ih =>
    obtain ⟨⟨b, a⟩, hb, he⟩ := Option.map_eq_some_iff.mp h
    obtain ⟨rfl, rfl⟩ := Prod.mk.inj he
    rw [ih hb, List.cons_append]

section Walk

variable {body path after : List Char}

theorem tokensFrom_cons {c : Char} {rest : List Char}
    (h : ∀ body, c = '$' → rest = '\x7b' :: body → False) (held : List Char) :
    tokensFrom held (c :: rest) = tokensFrom (c :: held) rest := by
  rw [tokensFrom]
  exact h

theorem tokensFrom_unclosed (h : splitAtClose? body = none) (held : List Char) :
    tokensFrom held ('$' :: '\x7b' :: body) = literalOf (body.reverse ++ '\x7b' :: '$' :: held) := by
  rw [tokensFrom]
  split <;> simp_all

theorem tokensFrom_empty (h : splitAtClose? body = some ([], after)) (held : List Char) :
    tokensFrom held ('$' :: '\x7b' :: body) = tokensFrom ('\x7d' :: '\x7b' :: '$' :: held) after := by
  rw [tokensFrom]
  split <;> simp_all

theorem tokensFrom_placeholder (h : splitAtClose? body = some (path, after)) (hne : path ≠ [])
    (held : List Char) : tokensFrom held ('$' :: '\x7b' :: body) =
      literalOf held ++ .placeholder path :: tokensFrom [] after := by
  rw [tokensFrom]
  split <;> simp_all

end Walk

/-- Without an opening all that is left is literal, and else the walk goes on at the first opening. -/
theorem tokensFrom_splitAtOpening? (held cs : List Char) : tokensFrom held cs =
    match splitAtOpening? cs with
    | none => literalOf (cs.reverse ++ held)
    | some (before, body) => tokensFrom (before.reverse ++ held) ('$' :: '\x7b' :: body) := by
  fun_induction splitAtOpening? cs generalizing held with
  | case1 => rw [tokensFrom]; rfl
  | case2 body => rfl
  | case3 c rest hne ih =>
    rw [tokensFrom_cons hne, ih]
    cases splitAtOpening? rest with
    | none => simp
    | some parts => simp

/-! ## Tokens with their places -/

/-- A token as a piece that starts at the byte `start`. -/
def Token.piece (start : Nat) : Token → Piece
  | .literal cs => .literal start (start + byteLength cs)
  | .placeholder path => .placeholder (String.ofList path)

/-- Tokens as pieces, one after the other, the first of which starts at the byte `start`. -/
def located (start : Nat) : List Token → List Piece
  | [] => []
  | t :: ts => t.piece start :: located (start + byteLength t.source) ts

theorem located_literalOf_append (start : Nat) (held : List Char) (ts : List Token) :
    located start (literalOf held ++ ts) =
      literalRange start (start + byteLength held) ++ located (start + byteLength held) ts := by
  cases held with
  | nil => rw [literalRange, if_neg (by rw [byteLength]; omega)]; rfl
  | cons c rest =>
    have hc := c.utf8Size_pos
    rw [literalRange, if_pos (by rw [byteLength]; omega), ← byteLength_reverse]
    rfl

theorem located_literalOf (start : Nat) (held : List Char) :
    located start (literalOf held) = literalRange start (start + byteLength held) := by
  have h := located_literalOf_append start held []
  rwa [List.append_nil, located, List.append_nil] at h

theorem byteLength_source (path : List Char) :
    byteLength (Token.placeholder path).source = byteLength path + 3 := by
  rw [Token.source, byteLength, byteLength, byteLength_append]
  change 1 + (1 + (byteLength path + (1 + 0))) = _
  omega

theorem byteLength_dollar (cs : List Char) : byteLength ('$' :: cs) = 1 + byteLength cs := rfl

theorem byteLength_brace (cs : List Char) : byteLength ('\x7b' :: cs) = 1 + byteLength cs := rfl

theorem byteLength_close (cs : List Char) : byteLength ('\x7d' :: cs) = 1 + byteLength cs := rfl

/-- The literal text that is being read, `held`, lies between the two positions of the loop. -/
theorem piecesFrom_eq_located (size start cursor : Nat) (rest : List Char) : ∀ held : List Char,
    cursor = start + byteLength held → size = cursor + byteLength rest →
      piecesFrom size start cursor rest = located start (tokensFrom held rest) := by
  fun_induction piecesFrom size start cursor rest with
  | case1 start cursor rest ho =>
    intro held hcursor hsize
    rw [tokensFrom_splitAtOpening?, ho, located_literalOf, byteLength_append, byteLength_reverse]
    congr 1
    omega
  | case2 start cursor rest before body ho hc =>
    intro held hcursor hsize
    have hwalk : tokensFrom held rest = literalOf (body.reverse ++ '\x7b' :: '$' :: (before.reverse ++ held)) := by
      rw [tokensFrom_splitAtOpening?, ho, ← tokensFrom_unclosed hc]
    rw [hwalk, located_literalOf]
    congr 1
    simp only [splitAtOpening?_eq_some ho, byteLength_append, byteLength_reverse, byteLength_dollar,
      byteLength_brace] at hsize ⊢
    omega
  | case3 start cursor rest before body ho opening path after hc close hempty ih =>
    intro held hcursor hsize
    obtain rfl : path = [] := eq_nil_of_byteLength_eq_zero (by omega)
    have hwalk : tokensFrom held rest = tokensFrom ('\x7d' :: '\x7b' :: '$' :: (before.reverse ++ held)) after := by
      rw [tokensFrom_splitAtOpening?, ho, ← tokensFrom_empty hc]
    rw [hwalk]
    simp only [splitAtOpening?_eq_some ho, (splitAtClose?_eq_some hc).1, List.nil_append, byteLength_append,
      byteLength_dollar, byteLength_brace, byteLength_close] at hsize
    refine ih _ ?_ ?_
    · simp only [byteLength_append, byteLength_reverse, byteLength_dollar, byteLength_brace, byteLength_close]
      omega
    · omega
  | case4 start cursor rest before body ho opening path after hc close hne ih =>
    intro held hcursor hsize
    have hpath : path ≠ [] := by
      rintro rfl
      exact hne rfl
    have hwalk : tokensFrom held rest =
        literalOf (before.reverse ++ held) ++ .placeholder path :: tokensFrom [] after := by
      rw [tokensFrom_splitAtOpening?, ho, ← tokensFrom_placeholder hc hpath]
    simp only [splitAtOpening?_eq_some ho, (splitAtClose?_eq_some hc).1, byteLength_append, byteLength_dollar,
      byteLength_brace, byteLength_close] at hsize
    have hopening : start + byteLength (before.reverse ++ held) = opening := by
      rw [byteLength_append, byteLength_reverse]
      omega
    have hplaceholder : opening + byteLength (Token.placeholder path).source = close + 1 := by
      rw [byteLength_source]
      omega
    rw [hwalk, located_literalOf_append, hopening, located, hplaceholder, ih [] rfl (by omega)]
    rfl

/-- The pieces of a text are its tokens, with their places in the text. -/
theorem tokenize_eq_located (text : String) : tokenize text = located 0 (tokens text) :=
  piecesFrom_eq_located _ 0 0 text.toList [] rfl (Nat.zero_add _).symm

/-! ## Reading the pieces back -/

theorem flatMap_source_literalOf (held : List Char) :
    (literalOf held).flatMap Token.source = held.reverse := by
  unfold literalOf
  cases held <;> simp [Token.source]

/-- The tokens of a text, one after the other, are the text. -/
theorem flatMap_source_tokensFrom (held cs : List Char) :
    (tokensFrom held cs).flatMap Token.source = held.reverse ++ cs := by
  fun_induction tokensFrom held cs with
  | case1 held => simp [flatMap_source_literalOf]
  | case2 held body _ => simp [flatMap_source_literalOf]
  | case3 held body after hs ih =>
    simp [ih, (splitAtClose?_eq_some hs).1]
  | case4 held body path after _ hs ih =>
    simp [ih, (splitAtClose?_eq_some hs).1, flatMap_source_literalOf, Token.source]
  | case5 held c rest _ ih => simp [ih]

/-- Without placeholders there is nothing to replace. -/
theorem substitute_of_not_hasPlaceholder {text : String} (h : hasPlaceholder text = false)
    (item : Value) : substitute text item = text := by
  have hfill : ∀ t ∈ tokens text, t.fill item = String.ofList t.source := by
    intro t ht
    have hlit := List.any_eq_false.mp h t ht
    cases t with
    | literal cs => rfl
    | placeholder path => exact absurd rfl hlit
  have hjoin : ∀ ts : List Token, String.join (ts.map fun t => String.ofList t.source) =
      String.ofList (ts.flatMap Token.source) := by
    intro ts
    induction ts with
    | nil => rfl
    | cons t rest ih => simp [ih]
  rw [substitute, List.map_congr_left hfill, hjoin, tokens, flatMap_source_tokensFrom]
  simp

section Located

variable {β : Type} {cs : List Char} {f : Piece → Option β} {g : Token → β}

/-- What is read off the pieces is what is read off the tokens, if it depends on the text of a range alone. -/
theorem mapM_located
    (hliteral : ∀ {start stop : Nat} {piece : List Char}, slice? cs start stop = some piece →
      f (.literal start stop) = some (g (.literal piece)))
    (hplaceholder : ∀ path, f (.placeholder (String.ofList path)) = some (g (.placeholder path)))
    (ts : List Token) : ∀ before : List Char, cs = before ++ ts.flatMap Token.source →
      (located (byteLength before) ts).mapM f = some (ts.map g) := by
  induction ts with
  | nil => exact fun _ _ => rfl
  | cons t rest ih =>
    intro before hcs
    have hnext := ih (before ++ t.source) (by rw [hcs, List.flatMap_cons, List.append_assoc])
    rw [byteLength_append] at hnext
    have hfirst : f (t.piece (byteLength before)) = some (g t) := by
      cases t with
      | literal piece =>
        refine hliteral (slice?_eq_some_iff.mpr ⟨before, rest.flatMap Token.source, ?_, rfl, byteLength_append ..⟩)
        rw [hcs, List.flatMap_cons, List.append_assoc]
        rfl
      | placeholder path => exact hplaceholder path
    rw [located, List.mapM_cons, hfirst]
    change ((located (byteLength before + byteLength t.source) rest).mapM f).bind _ = _
    rw [hnext]
    rfl

/-- What is read off the pieces of a text. -/
theorem mapM_tokenize {text : String}
    (hliteral : ∀ {start stop : Nat} {piece : List Char}, slice? text.toList start stop = some piece →
      f (.literal start stop) = some (g (.literal piece)))
    (hplaceholder : ∀ path, f (.placeholder (String.ofList path)) = some (g (.placeholder path))) :
    (tokenize text).mapM f = some ((tokens text).map g) := by
  rw [tokenize_eq_located]
  refine mapM_located hliteral hplaceholder (tokens text) [] ?_
  rw [tokens, flatMap_source_tokensFrom]
  rfl

end Located

theorem any_isPlaceholder_located (ts : List Token) : ∀ start : Nat,
    (located start ts).any Piece.isPlaceholder = ts.any Token.isPlaceholder := by
  induction ts with
  | nil => exact fun _ => rfl
  | cons t rest ih =>
    intro start
    have hfirst : (t.piece start).isPlaceholder = t.isPlaceholder := by cases t <;> rfl
    rw [located, List.any_cons, List.any_cons, ih, hfirst]

theorem mapM_fill?_tokenize (text : String) (item : Value) :
    (tokenize text).mapM (Piece.fill? text.toList item) = some ((tokens text).map (Token.fill item)) := by
  refine mapM_tokenize (fun hslice => ?_) fun path => rfl
  rw [Piece.fill?, hslice]
  rfl

/-- Replacing placeholders never fails; a text is given back itself if it has none. -/
theorem resolve?_eq (text : String) (item : Value) : resolve? text item =
    some (if hasPlaceholder text then .owned (substitute text item) else .borrowed) := by
  unfold resolve?
  cases ho : splitAtOpening? text.toList with
  | none =>
    have hnone : hasPlaceholder text = false := by
      rw [hasPlaceholder, tokens, tokensFrom_splitAtOpening?, ho]
      simp only [literalOf]
      split <;> rfl
    rw [hnone]
    rfl
  | some parts =>
    have hany : (tokenize text).any Piece.isPlaceholder = hasPlaceholder text := by
      rw [tokenize_eq_located, any_isPlaceholder_located, hasPlaceholder]
    rw [Option.isSome_some, if_pos rfl, assemble?, hany, mapM_fill?_tokenize]
    split <;> rfl

end Hypertemplate.Template
