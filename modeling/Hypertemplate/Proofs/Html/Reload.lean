import Hypertemplate.Proofs.Document.Markup
import Hypertemplate.Proofs.Html.Reading
import Hypertemplate.Proofs.Html.Settle

/-!
# Loading a written page again

The content of seven elements is read as it is, and the text of two of them is written as it is. For a page
with one of the seven in its body and a text that is read without change, the markup of the document is the
page with the text written (`toHtml_parse_textPage`). So the markup is the same after it was loaded again
exactly if the element is one of the two or there is nothing to escape (`reload_textPage_iff`). Not every page
comes back as it was (`iframe_escaped_twice`).
-/

namespace Hypertemplate

namespace Html

open Document

/-! ## Markup of a draft -/

theorem doctype_settle {t : Draft} (ht : ∀ i name, (t.node i).kind ≠ .doctype name) (n : Nat) :
    ∀ (p : NodeId) (d : Document) (i : Nat), (settle t n p d i).doctype = d.doctype := by
  induction n with
  | zero => exact fun _ _ _ => rfl
  | succ n ih =>
    intro p d i
    rw [settle]
    cases hk : (t.node i).kind with
    | page => exact doctype_foldl _ (fun d i => ih p d i) d
    | doctype name => exact absurd hk (ht i name)
    | text text => exact (doctype_appendChild _ _ _).trans (doctype_allocate _ _)
    | comment text => exact (doctype_appendChild _ _ _).trans (doctype_allocate _ _)
    | element vocabulary name attributes =>
      refine (doctype_appendChild _ _ _).trans ?_
      refine (doctype_foldl _ (fun d i => ih _ d i) _).trans ?_
      refine (doctype_foldl _ (fun e a => ?_) _).trans (doctype_createElement d name)
      rfl

/-- The markup of a page without document type is that of its draft. -/
theorem toList_toHtml_parse {html : String}
    (ht : ∀ i name, ((draftOf html).node i).kind ≠ .doctype name) :
    (parse html).toHtml.toList =
      Tree.writeList .html false ((draftOf html).trees ((draftOf html).size + 1) 0) := by
  have hdoctype : (parse html).doctype = none := doctype_settle ht _ _ _ _
  rw [(wellFormed_parse html).toList_toHtml, hdoctype, tree_parse]
  rfl

/-- An element is written with what is below it, wherever it keeps it. -/
theorem write_elementTree {e : ElementData} (hv : isVoid e.name = false) (raw : Bool)
    (below : List Tree) : (elementTree e below).write .html raw =
      (startTag { name := e.name, attributes := e.attributes }).toList ++
        Tree.writeList .html (isRawText e.name) below ++ ("</" ++ e.name ++ ">").toList := by
  by_cases hn : e.name = "template"
  · have hraw : isRawText e.name = false := by rw [hn]; rfl
    rw [elementTree, if_pos hn, hraw]
    simp [Tree.write, Tree.writeContent, Tree.writeList, hv, Writing.html]
  · rw [elementTree, if_neg hn]
    simp [Tree.write, Tree.writeContent, hv, Writing.html]

/-! ## A page with one element of raw text -/

/-- The elements whose content is read as it is up to their end tag. -/
def rawElements : List String :=
  ["iframe", "noembed", "noframes", "noscript", "script", "style", "xmp"]

theorem isWord_of_mem {name : String} (hname : name ∈ rawElements) :
    IsWord name ∧ isVoid name = false := by
  revert name
  decide

deriving instance DecidableEq for DraftNode
deriving instance DecidableEq for Builder

/-- The page with one element of text in its body. -/
def textPage (name text : String) : String :=
  openTag "html" ++ openTag "head" ++ closeTag "head" ++ openTag "body" ++
    openTag name ++ text ++ closeTag name ++ closeTag "body" ++ closeTag "html"

/-- A draft element without attributes. -/
def plainElement (name : String) (parent : Nat) (children : List Nat) : DraftNode :=
  { kind := .element .html name [], parent := some parent, children }

/-- The draft of the page after some of the text. -/
def textDraft (name : String) (cs : List Char) : Draft :=
  if cs = [] then
    #[{ children := [1] }, plainElement "html" 0 [2, 3], plainElement "head" 1 [],
      plainElement "body" 1 [4], plainElement name 3 []]
  else
    #[{ children := [1] }, plainElement "html" 0 [2, 3], plainElement "head" 1 [],
      plainElement "body" 1 [4], plainElement name 3 [5],
      { kind := .text (String.ofList cs), parent := some 4 }]

/-- The builder inside the element after some of its text, and how it goes on reading there. -/
def within (name : String) (mode : Mode) (reading : ReadMode) (cs : List Char) : Builder where
  draft := textDraft name cs
  stack := [4, 3, 1]
  mode
  head := some 2
  allowsFrames := false
  oldLayout := true
  reading

/-- The builder behind the element, in one of the modes that the end of the page leads through. -/
def behind (name : String) (cs : List Char) (mode : Mode) : Builder :=
  { within name mode .data cs with stack := [3, 1] }

theorem feed_open : ∀ name ∈ rawElements,
    [Token.startTag { name := "html" }, .startTag { name := "head" }, .endTag "head",
      .startTag { name := "body" }, .startTag { name }].foldl Builder.feed {} =
        within name .text (rawReading name) [] := by
  decide +kernel

theorem putChar_within (name : String) (mode : Mode) (reading : ReadMode) (cs : List Char) (c : Char) :
    (within name mode reading cs).putChar c = within name mode reading (cs ++ [c]) := by
  have hjoin : String.ofList (cs ++ [c]) = String.ofList cs ++ String.singleton c := by
    apply String.toList_injective
    simp
  have hne : cs ++ [c] ≠ [] := List.append_ne_nil_of_right_ne_nil cs (by simp)
  rw [within, within, textDraft, textDraft, if_neg hne, hjoin]
  -- The first character makes the text node, the others join it.
  cases cs with
  | nil => rfl
  | cons a rest => rfl

/-- A character of the text goes to the text node, in an element of text alone and in another one. -/
theorem feed_char {mode : Mode} (hmode : mode = .text ∨ mode = .inBody) (name : String) (reading : ReadMode)
    (cs : List Char) (c : Char) :
    (within name mode reading cs).feed (.char c) = within name mode reading (cs ++ [c]) := by
  rw [← putChar_within]
  rcases hmode with rfl | rfl
  · cases cs <;> rfl
  · have hnote : (within name .inBody reading cs).noteChar c = within name .inBody reading cs := by
      rw [Builder.noteChar]
      split <;> rfl
    calc (within name .inBody reading cs).feed (.char c)
        = ((within name .inBody reading cs).noteChar c).putChar c := by cases cs <;> rfl
      _ = (within name .inBody reading cs).putChar c := by rw [hnote]

theorem feed_close (name : String) (reading : ReadMode) (cs : List Char) :
    { within name .text reading cs with reading := .data }.feed (.endTag name) = behind name cs .inBody := by
  cases cs <;> rfl

theorem feed_closeBody (name : String) (cs : List Char) :
    (behind name cs .inBody).feed (.endTag "body") = behind name cs .afterBody := by
  cases cs <;> rfl

theorem feed_closeHtml (name : String) (cs : List Char) :
    (behind name cs .afterBody).feed (.endTag "html") = behind name cs .afterAfterBody := by
  cases cs <;> rfl

theorem feed_end (name : String) (cs : List Char) :
    ((behind name cs .afterAfterBody).feed .endOfFile).draft = textDraft name cs := by
  cases cs <;> rfl

/-! ## Reading the page -/

/-- Text goes to the element character by character, if every character is read as itself. -/
theorem Reads.text {name : String} {mode : Mode} {reading : ReadMode} {cs before rest : List Char}
    (hmode : mode = .text ∨ mode = .inBody)
    (hlex : ∀ c ds, c :: ds <:+ cs → ∀ sections,
      lex reading sections c (ds ++ rest) = ⟨[.char c], reading, ds ++ rest⟩) :
    Reads (within name mode reading before) cs rest (within name mode reading (before ++ cs)) := by
  induction cs generalizing before with
  | nil =>
    rw [List.append_nil]
    exact Reads.refl _ _
  | cons c cs ih =>
    have hchar : Reads (within name mode reading before) [c] (cs ++ rest)
        (within name mode reading (before ++ [c])) := by
      rw [← feed_char hmode]
      exact Reads.of_lex_char (hlex c cs (List.suffix_refl _) _)
    have hrest := @ih (before ++ [c]) fun a ds hds => hlex a ds (hds.trans (List.suffix_cons c cs))
    rw [List.append_assoc] at hrest
    exact hchar.append hrest

/-- The tags in front of the element, and its start tag. -/
theorem Reads.openTags {name : String} (hw : IsWord name) {b : Builder}
    (hopen : [Token.startTag { name := "html" }, .startTag { name := "head" }, .endTag "head",
      .startTag { name := "body" }, .startTag { name }].foldl Builder.feed {} = b) (rest : List Char) :
    Reads {} (openTag "html" ++ openTag "head" ++ closeTag "head" ++ openTag "body" ++ openTag name).toList
      rest b := by
  simp only [List.foldl_cons, List.foldl_nil] at hopen
  rw [← hopen]
  simp only [String.toList_append]
  exact ((((Reads.startTag (by decide) (by rfl)).append (Reads.startTag (by decide) (by rfl))).append
    (Reads.endTag (by decide) (by rfl))).append (Reads.startTag (by decide) (by rfl))).append
    (Reads.startTag hw (by rfl))

/-- The tags behind the element. -/
theorem Reads.closeTags (name : String) (cs : List Char) :
    Reads (behind name cs .inBody) (closeTag "body" ++ closeTag "html").toList []
      (behind name cs .afterAfterBody) := by
  have hbody : ∀ rest, Reads (behind name cs .inBody) (closeTag "body").toList rest
      (behind name cs .afterBody) := by
    rw [← feed_closeBody]
    exact fun _ => Reads.endTag (by decide) rfl
  have hhtml : ∀ rest, Reads (behind name cs .afterBody) (closeTag "html").toList rest
      (behind name cs .afterAfterBody) := by
    rw [← feed_closeHtml]
    exact fun _ => Reads.endTag (by decide) rfl
  rw [String.toList_append]
  exact (hbody _).append (hhtml _)

theorem pageCharacters_textPage {name text : String} (hw : IsWord name) (h : '\r' ∉ text.toList) :
    pageCharacters (textPage name text) = (textPage name text).toList := by
  refine pageCharacters_eq ?_ ?_
  · simp [textPage, toList_openTag]
  · have hopen : ∀ {name}, IsWord name → '\r' ∉ (openTag name).toList := fun hw =>
      hw.not_mem_openTag rfl (by decide)
    have hclose : ∀ {name}, IsWord name → '\r' ∉ (closeTag name).toList := fun hw =>
      hw.not_mem_closeTag rfl (by decide)
    simp only [textPage, String.toList_append, List.mem_append, not_or]
    exact ⟨⟨⟨⟨⟨⟨⟨⟨hopen (by decide), hopen (by decide)⟩, hclose (by decide)⟩, hopen (by decide)⟩,
      hopen hw⟩, h⟩, hclose hw⟩, hclose (by decide)⟩, hclose (by decide)⟩

/-- The page in its parts. -/
theorem toList_textPage (name text : String) : (textPage name text).toList =
    (openTag "html" ++ openTag "head" ++ closeTag "head" ++ openTag "body" ++ openTag name).toList ++
      text.toList ++ (closeTag name).toList ++ (closeTag "body" ++ closeTag "html").toList := by
  simp only [textPage, String.toList_append, List.append_assoc]

theorem draftOf_textPage {name text : String} (hname : name ∈ rawElements)
    (h : IsVerbatim name text.toList) : draftOf (textPage name text) = textDraft name text.toList := by
  have hw := (isWord_of_mem hname).1
  have hclose : ∀ rest, Reads (within name .text (rawReading name) text.toList) (closeTag name).toList rest
      (behind name text.toList .inBody) := by
    rw [← feed_close name (rawReading name)]
    exact fun _ => Reads.rawEnd hw rfl
  have hreads : Reads {} (textPage name text).toList [] (behind name text.toList .afterAfterBody) := by
    rw [toList_textPage]
    refine (((Reads.openTags hw (feed_open name hname) _).append ?_).append (hclose _)).append
      (Reads.closeTags name text.toList)
    rw [toList_closeTag]
    exact Reads.text (Or.inl rfl) fun c ds hds sections => (h.of_suffix hds).lex_eq sections
  rw [← pageCharacters_textPage hw h.no_return] at hreads
  rw [hreads.draftOf_eq, feed_end]

/-! ## The markup of the page -/

theorem trees_plainElement {t : Draft} {i p n : Nat} {cs : List Nat} {name : String}
    (hi : t.node i = plainElement name p cs) :
    t.trees (n + 1) i = [elementTree (settledElement name []) (cs.flatMap (t.trees n))] := by
  rw [Draft.trees, hi]
  rfl

theorem kind_textDraft_ne (name : String) (cs : List Char) (i : Nat) (type : String) :
    ((textDraft name cs).node i).kind ≠ .doctype type := by
  cases cs <;> rcases i with _ | _ | _ | _ | _ | _ | i <;> simp [Draft.node, textDraft, plainElement]

/-- The trees of the text of the element. -/
def textTrees (cs : List Char) : List Tree :=
  if cs = [] then [] else [.node (.text (String.ofList cs)) none []]

/-- The tree of the element, whatever the depth that is left for it. -/
theorem trees_textElement (name : String) (cs : List Char) (n : Nat) :
    (textDraft name cs).trees (n + 2) 4 = [elementTree (settledElement name []) (textTrees cs)] := by
  cases cs with
  | nil =>
    have helement : (textDraft name []).node 4 = plainElement name 3 [] := rfl
    rw [trees_plainElement helement]
    rfl
  | cons c cs =>
    have helement : (textDraft name (c :: cs)).node 4 = plainElement name 3 [5] := rfl
    rw [trees_plainElement helement]
    rfl

theorem trees_textDraft (name : String) (cs : List Char) :
    (textDraft name cs).trees ((textDraft name cs).size + 1) 0 =
      [elementTree (settledElement "html" []) [elementTree (settledElement "head" []) [],
        elementTree (settledElement "body" []) [elementTree (settledElement name []) (textTrees cs)]]] := by
  have hpage : (textDraft name cs).node 0 = { children := [1] } := by cases cs <;> rfl
  have hhtml : (textDraft name cs).node 1 = plainElement "html" 0 [2, 3] := by cases cs <;> rfl
  have hhead : (textDraft name cs).node 2 = plainElement "head" 1 [] := by cases cs <;> rfl
  have hbody : (textDraft name cs).node 3 = plainElement "body" 1 [4] := by cases cs <;> rfl
  obtain ⟨n, hsize⟩ : ∃ n, (textDraft name cs).size = n + 5 := by
    cases cs with
    | nil => exact ⟨0, rfl⟩
    | cons c cs => exact ⟨1, rfl⟩
  rw [hsize, Draft.trees, hpage]
  simp only [List.flatMap_cons, List.flatMap_nil, List.append_nil, trees_plainElement hhtml,
    trees_plainElement hhead, trees_plainElement hbody, trees_textElement, List.singleton_append]

theorem write_plainElement {name : String} (hw : IsWord name) (hv : isVoid name = false) (raw : Bool)
    (below : List Tree) : (elementTree (settledElement name []) below).write .html raw =
      (openTag name).toList ++ Tree.writeList .html (isRawText name) below ++ (closeTag name).toList := by
  have hname : (settledElement name []).name = name := by
    apply String.toList_injective
    rw [settledElement, String.toList_map, hw.map_toLower]
  have hstart : startTag { name } = openTag name := by
    simp [startTag, openTag, String.join]
  have hattributes : (settledElement name []).attributes = [] := rfl
  rw [write_elementTree (by rw [hname]; exact hv), hname, hattributes, hstart, closeTag]

/-- What the text of an element of raw text is written as. -/
def writtenText (name text : String) : String := if isRawText name then text else escapeText text

theorem write_textTrees (name text : String) :
    Tree.writeList .html (isRawText name) (textTrees text.toList) = (writtenText name text).toList := by
  by_cases ht : text.toList = []
  · rw [textTrees, if_pos ht, String.toList_eq_nil_iff.mp ht, Tree.writeList, writtenText]
    split <;> rfl
  · rw [textTrees, if_neg ht, String.ofList_toList, Tree.writeList, Tree.writeList, Tree.write,
      List.append_nil, writtenText]
    rfl

/-- A page that leaves the draft of some text is written as the page of this text. -/
theorem toHtml_of_draft {html name text : String} (hw : IsWord name) (hv : isVoid name = false)
    (hdraft : draftOf html = textDraft name text.toList) :
    (parse html).toHtml = textPage name (writtenText name text) := by
  have hhtml := fun raw => @write_plainElement "html" (by decide) (by decide) raw
  have hhead := fun raw => @write_plainElement "head" (by decide) (by decide) raw
  have hbody := fun raw => @write_plainElement "body" (by decide) (by decide) raw
  have hdoctype : ∀ i type, ((draftOf html).node i).kind ≠ .doctype type := by
    rw [hdraft]
    exact fun i => kind_textDraft_ne name text.toList i
  apply String.toList_injective
  rw [toList_toHtml_parse hdoctype, hdraft, trees_textDraft]
  simp only [Tree.writeList, List.append_nil, hhtml, hhead, hbody, write_plainElement hw hv,
    write_textTrees, textPage, String.toList_append, List.append_assoc]

/-- The document of the page is written as the page, but for the text. -/
theorem toHtml_parse_textPage {name text : String} (hname : name ∈ rawElements)
    (h : IsVerbatim name text.toList) :
    (parse (textPage name text)).toHtml = textPage name (writtenText name text) :=
  toHtml_of_draft (isWord_of_mem hname).1 (isWord_of_mem hname).2 (draftOf_textPage hname h)

end Html

namespace Document

open Html

variable {name text : String}

/-! ## Reloading -/

theorem length_le_flatMap_escape (cs : List Char) : cs.length ≤ (cs.flatMap escapeTextChar).length := by
  induction cs with
  | nil => exact Nat.le_refl 0
  | cons c rest ih =>
    have hone : 1 ≤ (escapeTextChar c).length := by
      unfold escapeTextChar
      grind
    rw [List.flatMap_cons, List.length_append, List.length_cons]
    omega

theorem length_le_escapeText (t : String) : t.toList.length ≤ (escapeText t).toList.length := by
  rw [escapeText, String.toList_ofList]
  exact length_le_flatMap_escape t.toList

/-- Escaping brings in nothing but the characters of three references. -/
theorem not_mem_escapeText {t : String} {c : Char} (hc : c ∉ t.toList) (hnew : c ∉ "&amp;&lt;&gt;".toList) :
    c ∉ (escapeText t).toList := by
  rw [escapeText, String.toList_ofList, List.mem_flatMap]
  rintro ⟨a, ha, hca⟩
  unfold escapeTextChar at hca
  have hne : c ≠ a := fun he => hc (he ▸ ha)
  simp at hnew
  split_ifs at hca <;> simp at hca <;> tauto

/-- Escaping changes a text in which there is anything to escape. -/
theorem escapeText_eq_self_iff (t : String) :
    escapeText t = t ↔ ∀ c ∈ t.toList, c ≠ '&' ∧ c ≠ '<' ∧ c ≠ '>' := by
  have key : ∀ cs : List Char,
      cs.flatMap escapeTextChar = cs ↔ ∀ c ∈ cs, c ≠ '&' ∧ c ≠ '<' ∧ c ≠ '>' := by
    intro cs
    induction cs with
    | nil => simp
    | cons c rest ih =>
      rw [List.forall_mem_cons, ← ih, List.flatMap_cons]
      by_cases hc : c ≠ '&' ∧ c ≠ '<' ∧ c ≠ '>'
      · have hplain : escapeTextChar c = [c] := by simp [escapeTextChar, hc]
        simp [hplain, hc]
      · have hlong : 1 < (escapeTextChar c).length := by
          unfold escapeTextChar
          grind
        refine iff_of_false (fun heq => ?_) (fun h => hc h.1)
        have hlength := congrArg List.length heq
        have hrest := length_le_flatMap_escape rest
        rw [List.length_append, List.length_cons] at hlength
        omega
  rw [← key, escapeText, ← String.toList_inj, String.toList_ofList]

/-- Escaping twice is escaping once only if there is nothing to escape: an ampersand comes in otherwise. -/
theorem escapeText_escapeText_eq_iff (t : String) :
    escapeText (escapeText t) = escapeText t ↔ ∀ c ∈ t.toList, c ≠ '&' ∧ c ≠ '<' ∧ c ≠ '>' := by
  constructor
  · intro h c hc
    rw [escapeText_eq_self_iff] at h
    have hmem : ∀ x ∈ escapeTextChar c, x ≠ '&' := fun x hx =>
      (h x (by rw [escapeText, String.toList_ofList]; exact List.mem_flatMap.mpr ⟨c, hc, hx⟩)).1
    unfold escapeTextChar at hmem
    grind
  · intro h
    rw [(escapeText_eq_self_iff t).mpr h, (escapeText_eq_self_iff t).mpr h]

/-- What a text is written as is verbatim again. -/
theorem isVerbatim_writtenText (h : IsVerbatim name text.toList) :
    IsVerbatim name (writtenText name text).toList := by
  rw [writtenText]
  split
  · exact h
  · have hopen : '<' ∉ (escapeText text).toList := by
      rw [escapeText, String.toList_ofList, List.mem_flatMap]
      rintro ⟨a, -, ha⟩
      exact (ne_of_mem_escapeTextChar ha).1 rfl
    exact
      { no_return := not_mem_escapeText h.no_return (by decide)
        no_null := not_mem_escapeText h.no_null (by decide)
        no_end := fun hi => hopen (hi.subset (by simp))
        no_comment := fun _ hi => hopen (hi.subset (by simp)) }

theorem textPage_injective {t u : String} (h : textPage name t = textPage name u) : t = u := by
  have hlist := congrArg String.toList h
  simp only [textPage, String.toList_append, List.append_assoc, List.append_cancel_left_eq] at hlist
  apply String.toList_injective
  exact List.append_cancel_right hlist

/-- The markup of a page with one element of raw text is the same after it was loaded again exactly if the text
of the element is written as it is, or there is nothing to escape in it. -/
theorem reload_textPage_iff (hname : name ∈ rawElements) (h : IsVerbatim name text.toList) :
    (parse (parse (textPage name text)).toHtml).toHtml = (parse (textPage name text)).toHtml ↔
      isRawText name = true ∨ ∀ c ∈ text.toList, c ≠ '&' ∧ c ≠ '<' ∧ c ≠ '>' := by
  rw [toHtml_parse_textPage hname h, toHtml_parse_textPage hname (isVerbatim_writtenText h)]
  have hpage : textPage name (writtenText name (writtenText name text)) =
      textPage name (writtenText name text) ↔
        writtenText name (writtenText name text) = writtenText name text :=
    ⟨fun he => textPage_injective he, congrArg (textPage name)⟩
  rw [hpage]
  by_cases hraw : isRawText name = true
  · simp only [writtenText, hraw, if_true, true_or]
  · simp only [writtenText, hraw, if_false, Bool.false_eq_true, false_or]
    exact escapeText_escapeText_eq_iff text

/-- The ampersand in an inline frame is escaped once more each time the page is loaded again. -/
theorem iframe_escaped_twice : ¬ ∀ s : String, (parse (parse s).toHtml).toHtml = (parse s).toHtml := by
  intro hall
  have htext : IsVerbatim "iframe" "&amp;".toList :=
    { no_return := by decide
      no_null := by decide
      no_end := by decide
      no_comment := by decide }
  rcases (reload_textPage_iff (by decide) htext).mp (hall (textPage "iframe" "&amp;")) with hraw | hnone
  · exact absurd hraw (by decide)
  · exact (hnone '&' (by decide)).1 rfl

end Document

end Hypertemplate
