import Hypertemplate.Proofs.Html.Reload

/-!
# What does not come back

Text is not only changed by a second escape when a written page is loaded again. A line feed right after the start
tag of preformatted text or of a text area is dropped, and none is written in its place: each load takes one away
(`reload_linePage_iff`). Nothing ends the text of a plaintext element, so that its end tag and those behind it are text
the next time (`reload_plaintextPage_ne`). A carriage return that a reference stands for is written as it is and read as
a line feed (`reload_return_ne`).
-/

namespace Hypertemplate

namespace Html

open Document

/-! ## Plain characters -/

/-- A text in which nothing is a reference, markup or a character that is replaced. -/
def IsPlain (cs : List Char) : Prop := ∀ c ∈ cs, c ∉ ['&', '<', '>', '\r', '\x00']

instance (cs : List Char) : Decidable (IsPlain cs) :=
  inferInstanceAs (Decidable (∀ c ∈ cs, c ∉ ['&', '<', '>', '\r', '\x00']))

namespace IsPlain

variable {c : Char} {cs : List Char}

theorem ne_of_mem (h : IsPlain cs) (hc : c ∈ cs) :
    c ≠ '&' ∧ c ≠ '<' ∧ c ≠ '>' ∧ c ≠ '\r' ∧ c ≠ '\x00' := by
  simpa using h c hc

theorem no_return (h : IsPlain cs) : '\r' ∉ cs := fun hc => (h.ne_of_mem hc).2.2.2.1 rfl

theorem of_subset {ds : List Char} (h : IsPlain cs) (hds : ds ⊆ cs) : IsPlain ds := fun c hc => h c (hds hc)

/-- A plain character is read as itself, between tags and in a text area. -/
theorem lex_eq {reading : ReadMode} (h : IsPlain cs) (hc : c ∈ cs)
    (hreading : reading = .data ∨ ∃ element, reading = .escapableRaw element) (sections : Bool) (rest : List Char) :
    lex reading sections c rest = ⟨[.char c], reading, rest⟩ := by
  obtain ⟨hamp, hlt, -, -, hnull⟩ := h.ne_of_mem hc
  have htext : textToken c = .char c := if_neg hnull
  have hraw : rawToken c = .char c := by rw [rawToken, visibleChar, if_neg hnull]
  rcases hreading with rfl | ⟨element, rfl⟩
  · rw [lex, if_neg hlt, if_neg hamp, htext]
  · rw [lex, if_neg hlt, if_neg hamp, hraw]

end IsPlain

/-! ## Text that starts with line feeds -/

/-- The elements after whose start tag a line feed is dropped. -/
def lineElements : List String := ["listing", "pre", "textarea"]

theorem isWord_of_mem_lineElements {name : String} (hname : name ∈ lineElements) :
    IsWord name ∧ isVoid name = false ∧ isRawText name = false := by
  revert name
  decide

/-- What is left of a text without a line feed at its start. -/
def dropLineFeed : List Char → List Char
  | '\n' :: cs => cs
  | cs => cs

theorem dropLineFeed_suffix (cs : List Char) : dropLineFeed cs <:+ cs := by
  unfold dropLineFeed
  split
  · exact List.suffix_cons _ _
  · exact List.suffix_refl _

/-- A line feed can be dropped twice only if two of them are there. -/
theorem dropLineFeed_dropLineFeed_iff (cs : List Char) :
    dropLineFeed (dropLineFeed cs) = dropLineFeed cs ↔ ¬ ['\n', '\n'] <+: cs := by
  match cs with
  | [] => simp [dropLineFeed]
  | [c] =>
    refine iff_of_true ?_ (by simp)
    by_cases hc : c = '\n'
    · subst hc
      rfl
    · simp [dropLineFeed, hc]
  | a :: b :: cs =>
    by_cases ha : a = '\n'
    · subst ha
      by_cases hb : b = '\n'
      · subst hb
        simp [dropLineFeed]
      · simp [dropLineFeed, hb, Ne.symm hb]
    · simp [dropLineFeed, ha, Ne.symm ha]

/-- How the builder and the reading go on in such an element. -/
def lineMode (name : String) : Mode := if name = "textarea" then .text else .inBody

def lineReading (name : String) : ReadMode := if name = "textarea" then .escapableRaw name else .data

theorem feed_openLine : ∀ name ∈ lineElements,
    [Token.startTag { name := "html" }, .startTag { name := "head" }, .endTag "head",
      .startTag { name := "body" }, .startTag { name }].foldl Builder.feed {} =
        { within name (lineMode name) (lineReading name) [] with skipsLineFeed := true } := by
  decide +kernel

theorem lineMode_cases (name : String) : lineMode name = .text ∨ lineMode name = .inBody := by
  unfold lineMode
  split
  · exact Or.inl rfl
  · exact Or.inr rfl

theorem lineReading_cases (name : String) :
    lineReading name = .data ∨ ∃ element, lineReading name = .escapableRaw element := by
  unfold lineReading
  split
  · exact Or.inr ⟨name, rfl⟩
  · exact Or.inl rfl

/-- The end tag closes the element, whether the next line feed would have been dropped or not. -/
theorem feed_closeLine {name : String} (hname : name ∈ lineElements) (skips : Bool) (cs : List Char) :
    { within name (lineMode name) .data cs with skipsLineFeed := skips }.feed (.endTag name) =
      behind name cs .inBody := by
  simp only [lineElements, List.mem_cons, List.not_mem_nil, or_false] at hname
  rcases hname with rfl | rfl | rfl <;> cases cs <;> rfl

/-- The end tag of the element ends its text. -/
theorem Reads.lineEnd {b : Builder} {name : String} {rest : List Char} (hw : IsWord name)
    (hb : b.reading = lineReading name) :
    Reads b (closeTag name).toList rest ({ b with reading := .data }.feed (.endTag name)) := by
  have hlex : lex b.reading b.isForeign '<' ('/' :: name.toList ++ ['>'] ++ rest) =
      ⟨[.endTag name], .data, rest⟩ := by
    rw [List.append_assoc, List.singleton_append, hb, lineReading]
    split
    · rw [lex, if_pos rfl, hw.endTagOf?_eq]
    · rw [lex, if_pos rfl, hw.markup_endTag]
  rw [toList_closeTag]
  exact of_lex hlex

/-- The first character of the text is dropped if it is a line feed. -/
theorem feed_firstChar (name : String) (c : Char) :
    { within name (lineMode name) (lineReading name) [] with skipsLineFeed := true }.feed (.char c) =
      within name (lineMode name) (lineReading name) (dropLineFeed [c]) := by
  by_cases hc : c = '\n'
  · subst hc
    rfl
  · have hdrop : dropLineFeed [c] = [] ++ [c] := by simp [dropLineFeed, hc]
    rw [hdrop, ← feed_char (lineMode_cases name)]
    simp [Builder.feed, hc, within]

/-- The text is read but for a line feed at its start. -/
theorem Reads.lineText {cs : List Char} (h : IsPlain cs) (name : String) (rest : List Char) :
    ∃ skips, Reads { within name (lineMode name) (lineReading name) [] with skipsLineFeed := true } cs rest
      { within name (lineMode name) (lineReading name) (dropLineFeed cs) with skipsLineFeed := skips } := by
  have hlex : ∀ c ∈ cs, ∀ sections ds,
      lex (lineReading name) sections c ds = ⟨[.char c], lineReading name, ds⟩ := fun c hc sections ds =>
    h.lex_eq hc (lineReading_cases name) sections ds
  cases cs with
  | nil => exact ⟨true, Reads.refl _ _⟩
  | cons c cs =>
    refine ⟨false, ?_⟩
    have hsplit : dropLineFeed (c :: cs) = dropLineFeed [c] ++ cs := by
      by_cases hc : c = '\n'
      · subst hc
        rfl
      · simp [dropLineFeed, hc]
    have hfirst : Reads { within name (lineMode name) (lineReading name) [] with skipsLineFeed := true } [c]
        (cs ++ rest) (within name (lineMode name) (lineReading name) (dropLineFeed [c])) := by
      rw [← feed_firstChar]
      exact of_lex_char (hlex c List.mem_cons_self _ _)
    have hrest := @Reads.text name _ _ cs (dropLineFeed [c]) rest (lineMode_cases name) fun a ds hds sections =>
      hlex a (List.mem_cons_of_mem c (hds.subset List.mem_cons_self)) sections _
    rw [← hsplit] at hrest
    exact hfirst.append hrest

theorem draftOf_linePage {name text : String} (hname : name ∈ lineElements) (h : IsPlain text.toList) :
    draftOf (textPage name text) = textDraft name (dropLineFeed text.toList) := by
  have hw := (isWord_of_mem_lineElements hname).1
  obtain ⟨skips, htext⟩ := Reads.lineText h name
    ((closeTag name).toList ++ ((closeTag "body" ++ closeTag "html").toList ++ []))
  have hclose : ∀ rest, Reads { within name (lineMode name) (lineReading name) (dropLineFeed text.toList) with
      skipsLineFeed := skips } (closeTag name).toList rest (behind name (dropLineFeed text.toList) .inBody) := by
    rw [← feed_closeLine hname skips]
    exact fun _ => Reads.lineEnd hw rfl
  have hreads : Reads {} (textPage name text).toList []
      (behind name (dropLineFeed text.toList) .afterAfterBody) := by
    rw [toList_textPage]
    exact (((Reads.openTags hw (feed_openLine name hname) _).append htext).append (hclose _)).append
      (Reads.closeTags name _)
  rw [← pageCharacters_textPage hw h.no_return] at hreads
  rw [hreads.draftOf_eq, feed_end]

/-! ## Text without an end -/

/-- The end tags of a page with an element of text. -/
def closeTags (name : String) : String := closeTag name ++ closeTag "body" ++ closeTag "html"

theorem feed_openPlaintext :
    [Token.startTag { name := "html" }, .startTag { name := "head" }, .endTag "head",
      .startTag { name := "body" }, .startTag { name := "plaintext" }].foldl Builder.feed {} =
        within "plaintext" .inBody .plaintext [] := by
  decide +kernel

theorem feed_endPlaintext (cs : List Char) :
    ((within "plaintext" .inBody .plaintext cs).feed .endOfFile).draft = textDraft "plaintext" cs := by
  cases cs <;> rfl

/-- All that comes after the start tag is text. -/
theorem draftOf_plaintextPage {text : String} (hreturn : '\r' ∉ text.toList) (hnull : '\x00' ∉ text.toList) :
    draftOf (textPage "plaintext" text) =
      textDraft "plaintext" (text ++ closeTags "plaintext").toList := by
  have hw : IsWord "plaintext" := by decide
  have hclose : '\x00' ∉ (closeTags "plaintext").toList := by decide
  have hlex : ∀ c ∈ (text ++ closeTags "plaintext").toList, ∀ sections rest,
      lex .plaintext sections c rest = ⟨[.char c], .plaintext, rest⟩ := by
    intro c hc sections rest
    have hne : c ≠ '\x00' := by
      rintro rfl
      rw [String.toList_append, List.mem_append] at hc
      exact hc.elim hnull hclose
    rw [lex, rawToken, visibleChar, if_neg hne]
  have hreads : Reads {} (textPage "plaintext" text).toList []
      (within "plaintext" .inBody .plaintext (text ++ closeTags "plaintext").toList) := by
    have hparts : (textPage "plaintext" text).toList = (openTag "html" ++ openTag "head" ++ closeTag "head" ++
        openTag "body" ++ openTag "plaintext").toList ++ (text ++ closeTags "plaintext").toList := by
      simp only [textPage, closeTags, String.toList_append, List.append_assoc]
    rw [hparts]
    refine (Reads.openTags hw feed_openPlaintext _).append ?_
    have htext := @Reads.text "plaintext" .inBody .plaintext (text ++ closeTags "plaintext").toList [] []
      (Or.inr rfl) fun c ds hds sections => hlex c (hds.subset List.mem_cons_self) sections _
    exact htext
  rw [← pageCharacters_textPage hw hreturn] at hreads
  rw [hreads.draftOf_eq, feed_endPlaintext]

end Html

namespace Document

open Html

variable {name text : String}

/-! ## Line feeds -/

theorem toHtml_parse_linePage (hname : name ∈ lineElements) (h : IsPlain text.toList) :
    (parse (textPage name text)).toHtml = textPage name (String.ofList (dropLineFeed text.toList)) := by
  obtain ⟨hw, hv, hraw⟩ := isWord_of_mem_lineElements hname
  have hdraft : draftOf (textPage name text) =
      textDraft name (String.ofList (dropLineFeed text.toList)).toList := by
    rw [String.toList_ofList, draftOf_linePage hname h]
  have hplain := h.of_subset (dropLineFeed_suffix text.toList).subset
  have hescape : escapeText (String.ofList (dropLineFeed text.toList)) =
      String.ofList (dropLineFeed text.toList) := by
    refine (escapeText_eq_self_iff _).mpr fun c hc => ?_
    rw [String.toList_ofList] at hc
    obtain ⟨hamp, hlt, hgt, -⟩ := hplain.ne_of_mem hc
    exact ⟨hamp, hlt, hgt⟩
  rw [toHtml_of_draft hw hv hdraft, writtenText, if_neg (by simp [hraw]), hescape]

/-- The markup of a page with preformatted text or a text area is the same after it was loaded again exactly if the text
does not start with two line feeds: one of them is dropped by the first load, and one by the second. -/
theorem reload_linePage_iff (hname : name ∈ lineElements) (h : IsPlain text.toList) :
    (parse (parse (textPage name text)).toHtml).toHtml = (parse (textPage name text)).toHtml ↔
      ¬ ['\n', '\n'] <+: text.toList := by
  have hplain : IsPlain (String.ofList (dropLineFeed text.toList)).toList := by
    rw [String.toList_ofList]
    exact h.of_subset (dropLineFeed_suffix text.toList).subset
  rw [toHtml_parse_linePage hname h, toHtml_parse_linePage hname hplain, ← dropLineFeed_dropLineFeed_iff,
    String.toList_ofList]
  constructor
  · intro hpage
    exact String.ofList_injective (textPage_injective hpage)
  · intro hdrop
    rw [hdrop]

/-! ## Text without an end -/

theorem toHtml_parse_plaintextPage (hreturn : '\r' ∉ text.toList) (hnull : '\x00' ∉ text.toList) :
    (parse (textPage "plaintext" text)).toHtml =
      textPage "plaintext" (escapeText (text ++ closeTags "plaintext")) :=
  toHtml_of_draft (by decide) (by decide) (draftOf_plaintextPage hreturn hnull)

/-- A page with a plaintext element grows with each load. -/
theorem reload_plaintextPage_ne (hreturn : '\r' ∉ text.toList) (hnull : '\x00' ∉ text.toList) :
    (parse (parse (textPage "plaintext" text)).toHtml).toHtml ≠ (parse (textPage "plaintext" text)).toHtml := by
  have hnone : ∀ c, c ∉ (closeTags "plaintext").toList → c ∉ "&amp;&lt;&gt;".toList → c ∉ text.toList →
      c ∉ (escapeText (text ++ closeTags "plaintext")).toList := by
    intro c hclose hnew htext
    refine not_mem_escapeText ?_ hnew
    rw [String.toList_append, List.mem_append, not_or]
    exact ⟨htext, hclose⟩
  rw [toHtml_parse_plaintextPage hreturn hnull,
    toHtml_parse_plaintextPage (hnone _ (by decide) (by decide) hreturn) (hnone _ (by decide) (by decide) hnull)]
  intro hpage
  -- What is read the second time has the end tags once more.
  have hgrown := length_le_escapeText (escapeText (text ++ closeTags "plaintext") ++ closeTags "plaintext")
  have hclose : 0 < (closeTags "plaintext").toList.length := by decide
  rw [textPage_injective hpage, String.toList_append, List.length_append] at hgrown
  omega

/-! ## Carriage returns -/

/-- A carriage return is read as a line feed, unless a reference stands for it. -/
theorem reload_return_ne :
    (parse (parse "<p>&#13;</p>").toHtml).toHtml ≠ (parse "<p>&#13;</p>").toHtml := by
  have hfirst : (parse "<p>&#13;</p>").toHtml = textPage "p" "\r" := by
    rw [← String.toList_inj, (wellFormed_parse _).toList_toHtml]
    decide +kernel
  have hsecond : (parse (textPage "p" "\r")).toHtml = textPage "p" "\n" := by
    rw [← String.toList_inj, (wellFormed_parse _).toList_toHtml]
    decide +kernel
  rw [hfirst, hsecond]
  decide

end Document

end Hypertemplate
