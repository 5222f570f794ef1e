import Hypertemplate.Html.Parse

/-!
# Reading parts of a page

A page is read one part after the other: a tag, a run of text (`Reads`). What a part does may depend on what
follows it, because a raw text ends where an end tag of its element stands. Tags without attributes are read as
one token each, and a text that no markup of its element interrupts is read character by character
(`IsVerbatim.lex_eq`).
-/

namespace Hypertemplate.Html

open Builder

/-! ## Parts -/

/-- Reading `cs` in front of `rest` takes the builder `b` to `b'`. -/
def Reads (b : Builder) (cs rest : List Char) (b' : Builder) : Prop :=
  ∃ k ≤ cs.length, ∀ n, readAll (n + k) b (cs ++ rest) = readAll n b' rest

namespace Reads

variable {b b₁ b₂ : Builder} {c : Char} {cs cs' rest : List Char} {tokens : List Token}
variable {mode : ReadMode}

theorem refl (b : Builder) (rest : List Char) : Reads b [] rest b := ⟨0, Nat.le_refl 0, fun _ => rfl⟩

theorem append (h : Reads b cs (cs' ++ rest) b₁) (h' : Reads b₁ cs' rest b₂) :
    Reads b (cs ++ cs') rest b₂ := by
  obtain ⟨k, hk, hread⟩ := h
  obtain ⟨k', hk', hread'⟩ := h'
  refine ⟨k' + k, by rw [List.length_append]; omega, fun n => ?_⟩
  calc readAll (n + (k' + k)) b (cs ++ cs' ++ rest)
      = readAll (n + k' + k) b (cs ++ (cs' ++ rest)) := by rw [Nat.add_assoc, List.append_assoc]
    _ = readAll (n + k') b₁ (cs' ++ rest) := hread _
    _ = readAll n b₂ rest := hread' n

/-- What is cut off the front at once. -/
theorem of_lex (h : lex b.reading b.isForeign c (cs ++ rest) = ⟨tokens, mode, rest⟩) :
    Reads b (c :: cs) rest (tokens.foldl feed { b with reading := mode }) :=
  ⟨1, by simp, fun n => by rw [List.cons_append, readAll, h]⟩

/-- A character that is read as itself. -/
theorem of_lex_char (h : lex b.reading b.isForeign c rest = ⟨[.char c], b.reading, rest⟩) :
    Reads b [c] rest (b.feed (.char c)) := by
  have hlex : lex b.reading b.isForeign c ([] ++ rest) = ⟨[.char c], b.reading, rest⟩ := h
  exact of_lex hlex

/-- A page that is read to its end leaves the draft that its end leaves. -/
theorem draftOf_eq {text : String} (h : Reads {} (pageCharacters text) [] b) :
    draftOf text = (b.feed .endOfFile).draft := by
  obtain ⟨k, hk, hread⟩ := h
  have hbound : (pageCharacters text).length + 1 = (pageCharacters text).length - k + 1 + k := by omega
  have hall := hread ((pageCharacters text).length - k + 1)
  rw [List.append_nil] at hall
  rw [draftOf, hbound, hall]
  rfl

end Reads

theorem normalizeNewlines_eq_self {cs : List Char} (h : '\r' ∉ cs) : normalizeNewlines cs = cs := by
  induction cs with
  | nil => rfl
  | cons c rest ih =>
    rw [List.mem_cons, not_or] at h
    rw [normalizeNewlines, ih h.2]
    · exact fun _ hc _ => h.1 hc.symm
    · exact fun hc => h.1 hc.symm

/-- The characters of a page that starts with a tag and has no carriage returns. -/
theorem pageCharacters_eq {text : String} (hstart : text.toList.head? = some '<')
    (hreturn : '\r' ∉ text.toList) : pageCharacters text = text.toList := by
  obtain ⟨cs, htext⟩ := List.head?_eq_some_iff.mp hstart
  rw [htext] at hreturn
  rw [pageCharacters, htext]
  exact normalizeNewlines_eq_self hreturn

/-! ## Tags -/

theorem attributes?_close (acc : List (String × String)) (rest : List Char) :
    attributes? acc ('>' :: rest) = some (acc, false, rest) := by
  rw [attributes?.eq_def]
  simp [isSpace]

/-- The start tag of an element without attributes. -/
def openTag (name : String) : String := "<" ++ name ++ ">"

def closeTag (name : String) : String := "</" ++ name ++ ">"

theorem toList_openTag (name : String) : (openTag name).toList = '<' :: name.toList ++ ['>'] := by
  rw [openTag, String.toList_append, String.toList_append]
  rfl

theorem toList_closeTag (name : String) : (closeTag name).toList = '<' :: '/' :: name.toList ++ ['>'] := by
  rw [closeTag, String.toList_append, String.toList_append]
  rfl

/-- A name of small letters. -/
def IsWord (name : String) : Prop := name ≠ "" ∧ ∀ c ∈ name.toList, c.isLower = true

instance (name : String) : Decidable (IsWord name) :=
  decidable_of_iff (name ≠ "" ∧ name.toList.all Char.isLower = true) (by rw [IsWord, List.all_eq_true])

namespace IsWord

variable {name : String} {c : Char} {rest : List Char}

theorem cons (h : IsWord name) : ∃ c cs, name.toList = c :: cs ∧ c.isLower = true := by
  cases hcs : name.toList with
  | nil => exact absurd (String.toList_eq_nil_iff.mp hcs) h.1
  | cons c cs => exact ⟨c, cs, rfl, h.2 c (by simp [hcs])⟩

theorem ne_of_mem (h : IsWord name) (hc : c ∈ name.toList) {x : Char} (hx : x.isLower = false) :
    c ≠ x := by
  rintro rfl
  rw [h.2 c hc] at hx
  cases hx

/-- A small letter goes on with a name. -/
theorem endsTagName_eq_false (h : IsWord name) (hc : c ∈ name.toList) : endsTagName c = false := by
  have hspace : isSpace c = false := by
    simp only [isSpace, Bool.or_eq_false_iff, beq_eq_false_iff_ne]
    exact ⟨⟨⟨h.ne_of_mem hc rfl, h.ne_of_mem hc rfl⟩, h.ne_of_mem hc rfl⟩, h.ne_of_mem hc rfl⟩
  simp only [endsTagName, hspace, Bool.false_or, Bool.or_eq_false_iff, beq_eq_false_iff_ne]
  exact ⟨h.ne_of_mem hc rfl, h.ne_of_mem hc rfl⟩

theorem not_mem_openTag (h : IsWord name) {x : Char} (hx : x.isLower = false)
    (hne : x ≠ '<' ∧ x ≠ '>') : x ∉ (openTag name).toList := by
  have hname : x ∉ name.toList := fun hc => h.ne_of_mem hc hx rfl
  simp [toList_openTag, hne, hname]

theorem not_mem_closeTag (h : IsWord name) {x : Char} (hx : x.isLower = false)
    (hne : x ≠ '<' ∧ x ≠ '>' ∧ x ≠ '/') : x ∉ (closeTag name).toList := by
  have hname : x ∉ name.toList := fun hc => h.ne_of_mem hc hx rfl
  simp [toList_closeTag, hne, hname]

theorem toLower_eq (h : IsWord name) (hc : c ∈ name.toList) : c.toLower = c := by
  have hlow : (decide (c.val ≥ 'a'.val) && decide (c.val ≤ 'z'.val)) = true := h.2 c hc
  rw [Bool.and_eq_true, decide_eq_true_eq, decide_eq_true_eq] at hlow
  refine dif_neg fun hup => ?_
  exact absurd (UInt32.le_trans hlow.1 hup.2) (by decide)

theorem map_toLower (h : IsWord name) : name.toList.map Char.toLower = name.toList :=
  (List.map_congr_left fun _ hc => h.toLower_eq hc).trans (List.map_id _)

theorem map_nameChar (h : IsWord name) : name.toList.map nameChar = name.toList := by
  refine (List.map_congr_left fun c hc => ?_).trans (List.map_id _)
  rw [nameChar, h.toLower_eq hc, visibleChar, if_neg (h.ne_of_mem hc rfl), id]

/-- The name of a tag without attributes. -/
theorem tag?_eq (h : IsWord name) (rest : List Char) :
    tag? (name.toList ++ '>' :: rest) = some ({ name }, rest) := by
  have hname : ∀ c ∈ name.toList, (!endsTagName c) = true := fun c hc => by
    rw [h.endsTagName_eq_false hc]
    rfl
  have hend : (!endsTagName '>') = false := by decide
  rw [tag?, List.takeWhile_append_of_pos hname, List.dropWhile_append_of_pos hname, List.takeWhile_cons,
    List.dropWhile_cons, hend]
  simp [h.map_nameChar, attributes?_close]

/-- The end tag of a text element. -/
theorem endTagOf?_eq (h : IsWord name) (rest : List Char) :
    endTagOf? name ('/' :: name.toList ++ '>' :: rest) = some ([.endTag name], rest) := by
  have hstart : startsWithWord name (name.toList ++ '>' :: rest) = true := by
    rw [startsWithWord, ← String.length_toList, List.take_left, h.map_toLower, beq_self_eq_true]
  have hdrop : (name.toList ++ '>' :: rest).drop name.length = '>' :: rest := by
    rw [← String.length_toList, List.drop_left]
  have hend : endsTagName '>' = true := by decide
  rw [List.cons_append, endTagOf?]
  simp only [hstart, hdrop, List.head?_cons, Option.map_some, Option.getD_some, hend, Bool.and_self,
    if_true, attributes?_close]

/-- What starts with a small letter after `<` is a start tag. -/
theorem markup_startTag (h : IsWord name) (sections : Bool) :
    markup sections (name.toList ++ '>' :: rest) = ([.startTag { name }], rest) := by
  have htag := h.tag?_eq rest
  obtain ⟨c, cs, hcs, hc⟩ := h.cons
  have halpha : c.isAlpha = true := by
    change (c.isUpper || c.isLower) = true
    rw [hc, Bool.or_true]
  rw [hcs, List.cons_append] at htag ⊢
  unfold markup
  split <;> simp_all

theorem markup_endTag (h : IsWord name) (sections : Bool) :
    markup sections ('/' :: name.toList ++ '>' :: rest) = ([.endTag name], rest) := by
  have htag := h.tag?_eq rest
  obtain ⟨c, cs, hcs, hc⟩ := h.cons
  have halpha : c.isAlpha = true := by
    change (c.isUpper || c.isLower) = true
    rw [hc, Bool.or_true]
  rw [hcs, List.cons_append] at htag
  simp only [hcs, List.cons_append, markup, halpha, if_true, htag]

end IsWord

namespace Reads

variable {b : Builder} {name : String} {rest : List Char}

theorem startTag (hw : IsWord name) (hb : b.reading = .data) :
    Reads b (openTag name).toList rest (b.feed (.startTag { name })) := by
  have hlex : lex b.reading b.isForeign '<' (name.toList ++ ['>'] ++ rest) =
      ⟨[.startTag { name }], .data, rest⟩ := by
    rw [hb, lex, if_pos rfl, List.append_assoc, List.singleton_append, hw.markup_startTag]
  have hreads := of_lex hlex
  rw [← hb] at hreads
  rwa [toList_openTag]

theorem endTag (hw : IsWord name) (hb : b.reading = .data) :
    Reads b (closeTag name).toList rest (b.feed (.endTag name)) := by
  have hlex : lex b.reading b.isForeign '<' ('/' :: name.toList ++ ['>'] ++ rest) =
      ⟨[.endTag name], .data, rest⟩ := by
    rw [hb, lex, if_pos rfl, List.append_assoc, List.singleton_append, hw.markup_endTag]
  have hreads := of_lex hlex
  rw [← hb] at hreads
  rwa [toList_closeTag]

end Reads

/-! ## Raw text -/

/-- How the content of an element is read that holds nothing but raw text. -/
def rawReading (name : String) : ReadMode := if name = "script" then .script .plain else .raw name

/-- Text that an element of raw text takes over as it is: nothing in it looks like an end tag or, in a script,
like a comment, and no character is replaced. -/
structure IsVerbatim (name : String) (cs : List Char) : Prop where
  no_return : '\r' ∉ cs
  no_null : '\x00' ∉ cs
  no_end : ¬ ['<', '/'] <:+: cs
  no_comment : name = "script" → ¬ ['<', '!'] <:+: cs

namespace IsVerbatim

variable {name : String} {c : Char} {cs rest : List Char}

theorem of_suffix {ds : List Char} (h : IsVerbatim name cs) (hds : ds <:+ cs) : IsVerbatim name ds where
  no_return hc := h.no_return (hds.subset hc)
  no_null hc := h.no_null (hds.subset hc)
  no_end hi := h.no_end (hi.trans hds.isInfix)
  no_comment hn hi := h.no_comment hn (hi.trans hds.isInfix)

theorem rawToken_eq (h : IsVerbatim name (c :: cs)) : rawToken c = .char c := by
  have hne : c ≠ '\x00' := fun hc => h.no_null (by simp [hc])
  rw [rawToken, visibleChar, if_neg hne]

/-- A `<` in the text starts no end tag. -/
theorem endTagOf?_eq_none (h : IsVerbatim name ('<' :: cs)) (element : String) :
    endTagOf? element (cs ++ '<' :: rest) = none := by
  cases cs with
  | nil => rfl
  | cons x tail =>
    have hx : x ≠ '/' := fun hx => h.no_end ⟨[], tail, by rw [hx]; rfl⟩
    rw [List.cons_append, endTagOf?]
    exact fun _ heq => hx (List.cons.inj heq).1

/-- A `<` in a script starts no comment. -/
theorem not_comment (h : IsVerbatim "script" ('<' :: cs)) :
    ['!', '-', '-'].isPrefixOf (cs ++ '<' :: rest) = false := by
  cases cs with
  | nil => rfl
  | cons x tail =>
    have hx : '!' ≠ x := fun hx => h.no_comment rfl ⟨[], tail, by rw [← hx]; rfl⟩
    rw [List.cons_append, List.isPrefixOf, beq_eq_false_iff_ne.mpr hx, Bool.false_and]

/-- A character of the text is read as it is. -/
theorem lex_eq (h : IsVerbatim name (c :: cs)) (sections : Bool) :
    lex (rawReading name) sections c (cs ++ '<' :: rest) =
      ⟨[.char c], rawReading name, cs ++ '<' :: rest⟩ := by
  have htoken := h.rawToken_eq
  by_cases hs : name = "script"
  · subst hs
    rw [rawReading, if_pos rfl, lex]
    by_cases hc : c = '<'
    · subst hc
      rw [if_pos rfl, scriptMarkup, h.endTagOf?_eq_none, h.not_comment]
      rfl
    · rw [if_neg hc, scriptChar, htoken]
  · rw [rawReading, if_neg hs, lex]
    by_cases hc : c = '<'
    · subst hc
      rw [if_pos rfl, h.endTagOf?_eq_none]
    · rw [if_neg hc, htoken]

end IsVerbatim

/-- The end tag of an element of raw text ends its text. -/
theorem Reads.rawEnd {b : Builder} {name : String} {rest : List Char} (hw : IsWord name)
    (hb : b.reading = rawReading name) :
    Reads b (closeTag name).toList rest ({ b with reading := .data }.feed (.endTag name)) := by
  have hlex : lex b.reading b.isForeign '<' ('/' :: name.toList ++ ['>'] ++ rest) =
      ⟨[.endTag name], .data, rest⟩ := by
    have hend := hw.endTagOf?_eq rest
    rw [List.append_assoc, List.singleton_append, hb, rawReading]
    by_cases hs : name = "script"
    · rw [if_pos hs, lex, if_pos rfl, scriptMarkup, ← hs, hend]
    · rw [if_neg hs, lex, if_pos rfl, hend]
  rw [toList_closeTag]
  exact of_lex hlex

end Hypertemplate.Html
