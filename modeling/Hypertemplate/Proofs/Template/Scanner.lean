import Hypertemplate.Proofs.Template.Tokens

/-!
# The scanner of placeholders

`scan` says what the tokens of a text are, one character after the other: where a placeholder begins it is taken
as a whole, and every other character belongs to a literal text. The walk that `tokens` makes jumps ahead to the
next opening and keeps the literal text before it; it finds the same (`tokens_eq_scan`). So does the loop on byte
positions (`tokenize_eq_scan`).
-/

namespace Hypertemplate.Template

open Text

variable {c : Char} {cs path after : List Char}

/-! ## Scanning -/

/-- The path of the placeholder at the start of a text, and what follows the placeholder: some characters other
than a closing brace between an opening and the first closing brace. -/
def placeholderAt? : List Char → Option (List Char × List Char)
  | '$' :: '\x7b' :: body =>
    match body.takeWhile (· != '\x7d'), body.dropWhile (· != '\x7d') with
    | c :: path, _ :: after => some (c :: path, after)
    | _, _ => none
  | _ => none

theorem placeholderAt?_eq_some_iff : placeholderAt? cs = some (path, after) ↔
    cs = '$' :: '\x7b' :: (path ++ '\x7d' :: after) ∧ path ≠ [] ∧ '\x7d' ∉ path := by
  constructor
  · intro h
    unfold placeholderAt? at h
    split at h
    · next body =>
      split at h
      · next c path' d after' htake hdrop =>
        obtain ⟨rfl, rfl⟩ := Prod.mk.inj (Option.some.inj h)
        have hd : d = '\x7d' := by
          have hhead := List.head?_dropWhile_not (· != '\x7d') body
          rw [hdrop] at hhead
          simpa using hhead
        have hbody := List.takeWhile_append_dropWhile (p := (· != '\x7d')) (l := body)
        rw [htake, hdrop, hd] at hbody
        refine ⟨by rw [← hbody], by simp, fun hmem => ?_⟩
        have hall : (body.takeWhile (· != '\x7d')).all (· != '\x7d') = true := List.all_takeWhile
        rw [htake, List.all_eq_true] at hall
        simpa using hall _ hmem
      · cases h
    · cases h
  · rintro ⟨rfl, hne, hmem⟩
    have hopen : ∀ x ∈ path, (x != '\x7d') = true := by
      intro x hx
      rw [bne_iff_ne]
      rintro rfl
      exact hmem hx
    obtain ⟨c, path, rfl⟩ := List.exists_cons_of_ne_nil hne
    rw [placeholderAt?, List.takeWhile_append_of_pos hopen, List.dropWhile_append_of_pos hopen]
    simp

theorem placeholderAt?_eq_none (h : ∀ path after, cs = '$' :: '\x7b' :: (path ++ '\x7d' :: after) → path ≠ [] →
    '\x7d' ∉ path → False) : placeholderAt? cs = none := by
  rw [Option.eq_none_iff_forall_ne_some]
  rintro ⟨path, after⟩ hsome
  obtain ⟨hcs, hne, hmem⟩ := placeholderAt?_eq_some_iff.mp hsome
  exact h path after hcs hne hmem

theorem placeholderAt?_length (h : placeholderAt? cs = some (path, after)) : after.length < cs.length := by
  obtain ⟨rfl, -, -⟩ := placeholderAt?_eq_some_iff.mp h
  simp only [List.length_cons, List.length_append]
  omega

/-- A character in front of some tokens; it joins the literal text that they begin with. -/
def consLiteral (c : Char) : List Token → List Token
  | .literal cs :: ts => .literal (c :: cs) :: ts
  | ts => .literal [c] :: ts

/-- The tokens of a text. -/
def scan : List Char → List Token
  | [] => []
  | c :: rest =>
    match _h : placeholderAt? (c :: rest) with
    | some (path, after) => .placeholder path :: scan after
    | none => consLiteral c (scan rest)
termination_by cs => cs.length
decreasing_by
  · exact placeholderAt?_length _h
  · simp

theorem scan_placeholder (h : placeholderAt? (c :: cs) = some (path, after)) :
    scan (c :: cs) = .placeholder path :: scan after := by
  rw [scan]
  split <;> simp_all

theorem scan_literal (h : placeholderAt? (c :: cs) = none) : scan (c :: cs) = consLiteral c (scan cs) := by
  rw [scan]
  split <;> simp_all

/-! ## The walk finds what the scanner finds -/

/-- Literal text in front of tokens that do not begin with literal text. -/
theorem foldl_consLiteral (held : List Char) {ts : List Token} (h : ∀ cs, ts.head? ≠ some (.literal cs)) :
    held.foldl (fun ts c => consLiteral c ts) ts = literalOf held ++ ts := by
  have hjoin : ∀ (held cs : List Char), held.foldl (fun ts c => consLiteral c ts) (.literal cs :: ts) =
      .literal (held.reverse ++ cs) :: ts := by
    intro held
    induction held with
    | nil => exact fun _ => rfl
    | cons c rest ih =>
      intro cs
      rw [List.foldl_cons, consLiteral, ih, List.reverse_cons, List.append_assoc]
      rfl
  cases held with
  | nil => rfl
  | cons c rest =>
    have hfirst : consLiteral c ts = .literal [c] :: ts := by
      unfold consLiteral
      split
      · next cs _ => exact absurd rfl (h cs)
      · rfl
    rw [List.foldl_cons, hfirst, hjoin, literalOf, List.reverse_cons]
    rfl

theorem foldl_consLiteral_nil (held : List Char) :
    held.foldl (fun ts c => consLiteral c ts) [] = literalOf held := by
  rw [foldl_consLiteral held (by simp), List.append_nil]

theorem splitAtClose?_eq_none_iff {body : List Char} : splitAtClose? body = none ↔ '\x7d' ∉ body := by
  induction body with
  | nil => simp [splitAtClose?]
  | cons c rest ih =>
    rw [splitAtClose?]
    by_cases hc : c = '\x7d'
    · simp [hc]
    · rw [if_neg hc, Option.map_eq_none_iff, ih, List.mem_cons]
      simp [Ne.symm hc]

/-- Without closing braces everything is literal. -/
theorem scan_of_not_mem (h : '\x7d' ∉ cs) : scan cs = cs.reverse.foldl (fun ts c => consLiteral c ts) [] := by
  induction cs with
  | nil => rw [scan]; rfl
  | cons c rest ih =>
    have hnone : placeholderAt? (c :: rest) = none := by
      apply placeholderAt?_eq_none
      rintro path after hcs - -
      rw [hcs] at h
      simp at h
    rw [scan_literal hnone, ih fun hmem => h (List.mem_cons_of_mem c hmem), List.reverse_cons,
      List.foldl_append]
    rfl

/-- `held` is the literal text that was read before. -/
theorem tokensFrom_eq (held cs : List Char) :
    tokensFrom held cs = held.foldl (fun ts c => consLiteral c ts) (scan cs) := by
  fun_induction tokensFrom held cs with
  | case1 held => rw [scan, foldl_consLiteral_nil]
  | case2 held body hnone =>
    have hbody : '\x7d' ∉ '$' :: '\x7b' :: body := by
      simpa using splitAtClose?_eq_none_iff.mp hnone
    rw [scan_of_not_mem hbody, ← List.foldl_append, foldl_consLiteral_nil]
    simp
  | case3 held body after hempty ih =>
    obtain rfl : body = '\x7d' :: after := (splitAtClose?_eq_some hempty).1
    have hopening : placeholderAt? ('$' :: '\x7b' :: '\x7d' :: after) = none := by
      apply placeholderAt?_eq_none
      rintro path after' hcs hne hmem
      obtain ⟨c, path, rfl⟩ := List.exists_cons_of_ne_nil hne
      simp only [List.cons_append, List.cons.injEq, true_and] at hcs
      exact hmem (by simp [← hcs.1])
    have hother : ∀ {c : Char} {cs : List Char}, c ≠ '$' → placeholderAt? (c :: cs) = none := by
      intro c cs hc
      apply placeholderAt?_eq_none
      rintro path after' hcs - -
      exact hc (List.cons.inj hcs).1
    rw [ih, scan_literal hopening, scan_literal (hother (by decide)), scan_literal (hother (by decide))]
    rfl
  | case4 held body path after hne hsome ih =>
    obtain ⟨hbody, hmem⟩ := splitAtClose?_eq_some hsome
    have hplaceholder : placeholderAt? ('$' :: '\x7b' :: body) = some (path, after) :=
      placeholderAt?_eq_some_iff.mpr ⟨by rw [hbody], hne, hmem⟩
    rw [scan_placeholder hplaceholder, foldl_consLiteral held (by simp), ih]
    rfl
  | case5 held c rest hne ih =>
    have hnone : placeholderAt? (c :: rest) = none := by
      apply placeholderAt?_eq_none
      rintro path after' hcs - -
      obtain ⟨hc, hrest⟩ := List.cons.inj hcs
      exact hne _ hc hrest
    rw [ih, scan_literal hnone]
    rfl

theorem tokens_eq_scan (text : String) : tokens text = scan text.toList := tokensFrom_eq [] text.toList

/-! ## The places of the tokens -/

/-- Tokens of which no literal text is empty or next to another one. -/
inductive Merged : List Token → Prop
  | nil : Merged []
  | placeholder (path : List Char) {ts : List Token} (m : Merged ts) : Merged (.placeholder path :: ts)
  | literal {cs : List Char} {ts : List Token} (hne : cs ≠ []) (hapart : ∀ ds, ts.head? ≠ some (.literal ds))
    (m : Merged ts) : Merged (.literal cs :: ts)

theorem Merged.consLiteral {ts : List Token} (m : Merged ts) (c : Char) : Merged (consLiteral c ts) := by
  cases m with
  | nil => exact .literal (by simp) (by simp) .nil
  | placeholder path m => exact .literal (by simp) (by simp) (.placeholder path m)
  | literal _ hapart m => exact .literal (by simp) hapart m

theorem merged_scan (cs : List Char) : Merged (scan cs) := by
  fun_induction scan cs with
  | case1 => exact .nil
  | case2 c rest path after _ ih => exact .placeholder path ih
  | case3 c rest _ ih => exact ih.consLiteral c

theorem Merged.ne_nil {ts : List Token} (m : Merged ts) {cs : List Char} (h : .literal cs ∈ ts) : cs ≠ [] := by
  induction m with
  | nil => cases h
  | placeholder path _ ih => exact ih ((List.mem_cons.mp h).resolve_left nofun)
  | literal hne _ _ ih =>
    rcases List.mem_cons.mp h with he | h
    · rw [Token.literal.inj he]
      exact hne
    · exact ih h

/-- The bytes of a literal piece. -/
def Piece.range? : Piece → Option (Nat × Nat)
  | .literal start stop => some (start, stop)
  | .placeholder _ => none

/-- The ranges of merged tokens follow each other with gaps, and there is one before the first of them unless the
tokens begin with literal text. -/
theorem Merged.ranges {ts : List Token} (m : Merged ts) : ∀ start : Nat,
    ((located start ts).filterMap Piece.range?).Pairwise (fun r s => r.2 < s.1) ∧
      ∀ r ∈ (located start ts).filterMap Piece.range?,
        start ≤ r.1 ∧ ((∀ cs, ts.head? ≠ some (.literal cs)) → start < r.1) := by
  induction m with
  | nil =>
    intro start
    exact ⟨.nil, by simp [located]⟩
  | placeholder path m ih =>
    intro start
    obtain ⟨hpairs, hstart⟩ := ih (start + byteLength (Token.placeholder path).source)
    refine ⟨hpairs, fun r hr => ?_⟩
    have hle := (hstart r hr).1
    rw [byteLength_source] at hle
    exact ⟨by omega, fun _ => by omega⟩
  | @literal cs ts hne hapart m ih =>
    intro start
    obtain ⟨hpairs, hstart⟩ := ih (start + byteLength cs)
    have hrest : ∀ r ∈ (located (start + byteLength cs) ts).filterMap Piece.range?, start + byteLength cs < r.1 :=
      fun r hr => (hstart r hr).2 hapart
    refine ⟨List.pairwise_cons.mpr ⟨hrest, hpairs⟩, fun r hr => ?_⟩
    refine ⟨?_, fun hhead => absurd rfl (hhead cs)⟩
    rcases List.mem_cons.mp hr with rfl | hr
    · exact Nat.le_refl start
    · have hlt := hrest r hr
      omega

/-- A literal piece is the place of a literal text. -/
theorem exists_of_mem_located {start stop : Nat} {cs : List Char} (ts : List Token) : ∀ before : List Char,
    cs = before ++ ts.flatMap Token.source → .literal start stop ∈ located (byteLength before) ts →
      ∃ first piece last, cs = first ++ piece ++ last ∧ .literal piece ∈ ts ∧ byteLength first = start ∧
        byteLength (first ++ piece) = stop := by
  induction ts with
  | nil => exact fun _ _ hmem => absurd hmem List.not_mem_nil
  | cons t rest ih =>
    intro before hcs hmem
    rcases List.mem_cons.mp hmem with hfirst | hrest
    · cases t with
      | literal piece =>
        obtain ⟨rfl, rfl⟩ := Piece.literal.inj hfirst
        refine ⟨before, piece, rest.flatMap Token.source, ?_, List.mem_cons_self, rfl, byteLength_append ..⟩
        rw [hcs, List.flatMap_cons, List.append_assoc]
        rfl
      | placeholder path => cases hfirst
    · rw [← byteLength_append] at hrest
      obtain ⟨first, piece, last, hcs', hpiece, hstart, hstop⟩ :=
        ih (before ++ t.source) (by rw [hcs, List.flatMap_cons, List.append_assoc]) hrest
      exact ⟨first, piece, last, hcs', List.mem_cons_of_mem t hpiece, hstart, hstop⟩

theorem byteLength_eq_utf8ByteSize (cs : List Char) : byteLength cs = (String.ofList cs).utf8ByteSize := by
  induction cs with
  | nil => rfl
  | cons c rest ih =>
    have hcons : String.ofList (c :: rest) = String.singleton c ++ String.ofList rest := by
      rw [String.singleton_eq_ofList, ← String.ofList_append]
      rfl
    rw [hcons, String.utf8ByteSize_append, String.utf8ByteSize_singleton, byteLength, ih]

/-- The characters that a piece of a text was read from. -/
def Piece.source? (cs : List Char) : Piece → Option (List Char)
  | .literal start stop => slice? cs start stop
  | .placeholder path => some ('$' :: '\x7b' :: (path.toList ++ ['\x7d']))

/-- The loop finds the tokens of the scanner, with their places. Each literal piece is a range of bytes of the text
that is not empty and begins and ends between characters; there is a gap between it and the next one. The pieces,
read back one after the other, are the text. -/
theorem tokenize_eq_scan (text : String) :
    tokenize text = located 0 (scan text.toList) ∧
    (∀ start stop, .literal start stop ∈ tokenize text → ∃ before piece after : String,
      text = before ++ piece ++ after ∧ piece ≠ "" ∧ before.utf8ByteSize = start ∧
        (before ++ piece).utf8ByteSize = stop) ∧
    ((tokenize text).filterMap Piece.range?).Pairwise (fun r s => r.2 < s.1) ∧
    ((tokenize text).mapM (Piece.source? text.toList)).map List.flatten = some text.toList := by
  have hscan : tokenize text = located 0 (scan text.toList) := by rw [tokenize_eq_located, tokens_eq_scan]
  have hsource : (scan text.toList).flatMap Token.source = text.toList := by
    rw [← tokens_eq_scan, tokens, flatMap_source_tokensFrom]
    rfl
  refine ⟨hscan, fun start stop hmem => ?_, ?_, ?_⟩
  · rw [hscan] at hmem
    obtain ⟨first, piece, last, hcs, hpiece, hstart, hstop⟩ :=
      exists_of_mem_located (scan text.toList) [] hsource.symm hmem
    have hne := (merged_scan text.toList).ne_nil hpiece
    refine ⟨String.ofList first, String.ofList piece, String.ofList last, ?_, ?_, ?_, ?_⟩
    · rw [← String.ofList_append, ← String.ofList_append, ← hcs, String.ofList_toList]
    · intro hempty
      rw [← String.toList_ofList (l := piece), hempty] at hne
      exact hne rfl
    · rw [← byteLength_eq_utf8ByteSize, hstart]
    · rw [← String.ofList_append, ← byteLength_eq_utf8ByteSize, hstop]
  · rw [hscan]
    exact ((merged_scan text.toList).ranges 0).1
  · have hread : (tokenize text).mapM (Piece.source? text.toList) = some ((tokens text).map Token.source) :=
      mapM_tokenize (fun hslice => hslice) fun path => by rw [Piece.source?, String.toList_ofList]; rfl
    rw [hread, Option.map_some, tokens_eq_scan, ← List.flatMap_def, hsource]

/-- An empty pair of braces is literal, and what follows it is not. -/
example : tokenize "é$\x7b\x7d$\x7ba\x7d" = [.literal 0 5, .placeholder "a"] := by decide +kernel

end Hypertemplate.Template
