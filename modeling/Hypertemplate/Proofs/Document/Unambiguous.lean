import Hypertemplate.Proofs.Document.Edits
import Hypertemplate.Proofs.Document.Printing

/-!
# Markup is unambiguous

Markup is read from the front: text ends where a tag or a comment starts, a name ends at a blank or at the end
of its tag, an attribute value at its closing quote, a comment at the first arrow, and the children of an
element at its end tag. So the markup of a plain tree determines the tree and what comes after it
(`Tree.Plain.write_append_inj`), and nodes with equal markup have equal trees (`shown_tree_eq`), but for the
values that users entered, which are not written.
-/

namespace Hypertemplate

/-! ## Reading up to an end -/

section Reading

variable {α β : Type} {f : α → List β} {p : β → Prop}

/-- What comes before the first character that is none of a kind is determined, and so is the rest. -/
theorem append_inj_of_stop {r s : List β} (hr : ∀ c ∈ r.head?, ¬ p c) (hs : ∀ c ∈ s.head?, ¬ p c) :
    ∀ {x y : List β}, (∀ c ∈ x, p c) → (∀ c ∈ y, p c) → x ++ r = y ++ s → x = y ∧ r = s
  | [], [], _, _, h => ⟨rfl, h⟩
  | [], c :: y, _, hy, h => by
    rw [List.nil_append, List.cons_append] at h
    exact absurd (hy c (by simp)) (hr c (by simp [h]))
  | c :: x, [], hx, _, h => by
    rw [List.nil_append, List.cons_append] at h
    exact absurd (hx c (by simp)) (hs c (by simp [← h]))
  | c :: x, e :: y, hx, hy, h => by
    obtain ⟨rfl, hrest⟩ := List.cons.inj h
    obtain ⟨rfl, hrs⟩ := append_inj_of_stop hr hs (fun c hc => hx c (by simp [hc]))
      (fun c hc => hy c (by simp [hc])) hrest
    exact ⟨rfl, hrs⟩

/-- A list is determined by its code if the code of an entry is never empty and never starts another one's. -/
theorem flatMap_injective (hne : ∀ a, f a ≠ [])
    (hf : ∀ a b x y, f a ++ x = f b ++ y → a = b ∧ x = y) :
    ∀ {as bs : List α}, as.flatMap f = bs.flatMap f → as = bs
  | [], [], _ => rfl
  | [], b :: bs, h => absurd (List.append_eq_nil_iff.mp h.symm).1 (hne b)
  | a :: as, [], h => absurd (List.append_eq_nil_iff.mp h).1 (hne a)
  | a :: as, b :: bs, h => by
    obtain ⟨rfl, hrest⟩ := hf a b _ _ h
    rw [flatMap_injective hne hf hrest]

end Reading

/-! ## What is written of a tree -/

/-- What is written of a node: of an element the name and the attributes. -/
def Kind.shown : Kind → Kind
  | .element e => .element { name := e.name, attributes := e.attributes }
  | k => k

namespace Tree

mutual
/-- A tree without the values that users entered, which are not written. -/
def shown : Tree → Tree
  | .node k content children => .node k.shown (shownContent content) (shownList children)

def shownContent : Option Tree → Option Tree
  | none => none
  | some t => some t.shown

def shownList : List Tree → List Tree
  | [] => []
  | t :: ts => t.shown :: shownList ts
end

def isText : Tree → Bool
  | .node (.text _) _ _ => true
  | _ => false

/-- Trees that may stand next to each other: not both are texts. -/
def Apart (t u : Tree) : Prop := ¬ (t.isText = true ∧ u.isText = true)

end Tree

/-! ## Plain trees -/

/-- A character that may stand in a name. -/
def isNameChar (c : Char) : Bool := !(c.isWhitespace || ['"', '\'', '=', '<', '>', '/'].contains c)

/-- A name that is told from what stands around it in a tag. -/
structure IsName (name : String) : Prop where
  ne_empty : name ≠ ""
  isNameChar : ∀ c ∈ name.toList, isNameChar c = true

/-- An element whose tag can be read: it is not taken for a comment either. -/
structure ElementData.IsReadable (e : ElementData) : Prop where
  isName : IsName e.name
  head?_ne : e.name.toList.head? ≠ some '!'
  isName_attribute : ∀ a ∈ e.attributes, IsName a.1

/-- A tree of elements, texts that are not empty, and comments that do not end early. No two texts are next to
each other, void elements have nothing below them, templates only have content and other elements only
children, and no element is written as it is. -/
inductive Tree.Plain : Tree → Prop
  | text {t : String} (hne : t ≠ "") : Plain (.node (.text t) none [])
  | comment {t : String} (harrow : ¬ "-->".toList <:+: t.toList) : Plain (.node (.comment t) none [])
  | void {e : ElementData} (he : e.IsReadable) (hvoid : Document.isVoid e.name = true) :
    Plain (.node (.element e) none [])
  | template {e : ElementData} {ts : List Tree} (he : e.IsReadable) (hname : e.name = "template")
    (hts : ∀ t ∈ ts, Plain t) (hapart : ts.IsChain Apart) :
    Plain (.node (.element e) (some (.node .fragment none ts)) [])
  | element {e : ElementData} {ts : List Tree} (he : e.IsReadable)
    (hvoid : Document.isVoid e.name = false) (hname : e.name ≠ "template")
    (hraw : Document.isRawText e.name = false) (hts : ∀ t ∈ ts, Plain t)
    (hapart : ts.IsChain Apart) :
    Plain (.node (.element e) none ts)

namespace Document

/-! ## Texts -/

theorem escapeTextChar_append_inj (a b : Char) (x y : List Char)
    (h : escapeTextChar a ++ x = escapeTextChar b ++ y) : a = b ∧ x = y := by
  unfold escapeTextChar at h
  split_ifs at h <;> simp only [List.cons_append, List.nil_append, List.cons.injEq] at h <;> grind

theorem escapeAttributeChar_append_inj (a b : Char) (x y : List Char)
    (h : escapeAttributeChar a ++ x = escapeAttributeChar b ++ y) : a = b ∧ x = y := by
  unfold escapeAttributeChar at h
  split_ifs at h <;> simp only [List.cons_append, List.nil_append, List.cons.injEq] at h <;> grind

theorem escapeTextChar_ne_nil (c : Char) : escapeTextChar c ≠ [] := by
  unfold escapeTextChar
  grind

theorem escapeAttributeChar_ne_nil (c : Char) : escapeAttributeChar c ≠ [] := by
  unfold escapeAttributeChar
  grind

theorem ne_of_mem_escapeAttributeChar {a c : Char} (h : c ∈ escapeAttributeChar a) : c ≠ '"' := by
  unfold escapeAttributeChar at h
  grind

/-- Written text determines the text, and what comes after it if that does not start as text. -/
theorem text_append_inj {t u : String} {r s : List Char} (hr : ∀ c ∈ r.head?, c = '<')
    (hs : ∀ c ∈ s.head?, c = '<')
    (h : t.toList.flatMap escapeTextChar ++ r = u.toList.flatMap escapeTextChar ++ s) :
    t = u ∧ r = s := by
  have hne : ∀ (v : String), ∀ c ∈ v.toList.flatMap escapeTextChar, c ≠ '<' := by
    intro v c hc
    obtain ⟨a, -, ha⟩ := List.mem_flatMap.mp hc
    exact (ne_of_mem_escapeTextChar ha).1
  obtain ⟨htext, hrest⟩ := append_inj_of_stop (p := (· ≠ '<')) (fun c hc => not_not_intro (hr c hc))
    (fun c hc => not_not_intro (hs c hc)) (hne t) (hne u) h
  have hlist := flatMap_injective escapeTextChar_ne_nil escapeTextChar_append_inj htext
  exact ⟨String.toList_inj.mp hlist, hrest⟩

/-- A written attribute value determines the value, and what comes after its closing quote. -/
theorem value_append_inj {v w : String} {r s : List Char}
    (h : v.toList.flatMap escapeAttributeChar ++ '"' :: r =
      w.toList.flatMap escapeAttributeChar ++ '"' :: s) : v = w ∧ r = s := by
  have hne : ∀ (v : String), ∀ c ∈ v.toList.flatMap escapeAttributeChar, c ≠ '"' := by
    intro v c hc
    obtain ⟨a, -, ha⟩ := List.mem_flatMap.mp hc
    exact ne_of_mem_escapeAttributeChar ha
  obtain ⟨hvalue, hrest⟩ := append_inj_of_stop (p := (· ≠ '"')) (by simp) (by simp) (hne v) (hne w) h
  have hlist := flatMap_injective escapeAttributeChar_ne_nil escapeAttributeChar_append_inj hvalue
  exact ⟨String.toList_inj.mp hlist, (List.cons.inj hrest).2⟩

/-- A comment without an arrow in it ends at the first arrow. -/
theorem comment_append_inj {t u r s : List Char} (ht : ¬ "-->".toList <:+: t) (hu : ¬ "-->".toList <:+: u)
    (h : t ++ ("-->".toList ++ r) = u ++ ("-->".toList ++ s)) : t = u ∧ r = s := by
  -- If one of the two is longer, then what it has more starts with an arrow or is a part of one.
  have key : ∀ {x y z w : List Char}, ¬ "-->".toList <:+: x ++ w →
      "-->".toList ++ y = w ++ ("-->".toList ++ z) → w = [] ∧ y = z := by
    intro x y z w hw heq
    match w with
    | [] => exact ⟨rfl, List.append_cancel_left heq⟩
    | [a] => simp at heq
    | [a, b] => simp at heq
    | a :: b :: c :: w =>
      refine absurd ⟨x, w, ?_⟩ hw
      simp at heq
      obtain ⟨rfl, rfl, rfl, -⟩ := heq
      simp
  rcases List.append_eq_append_iff.mp h with ⟨w, rfl, hrest⟩ | ⟨w, rfl, hrest⟩
  · obtain ⟨rfl, hrs⟩ := key hu hrest
    exact ⟨(List.append_nil _).symm, hrs⟩
  · obtain ⟨rfl, hrs⟩ := key ht hrest
    exact ⟨List.append_nil _, hrs.symm⟩

/-! ## Tags -/

/-- A name determines where it ends. -/
theorem name_append_inj {n m : String} {r s : List Char} (hn : IsName n) (hm : IsName m)
    (hr : ∀ c ∈ r.head?, isNameChar c = false) (hs : ∀ c ∈ s.head?, isNameChar c = false)
    (h : n.toList ++ r = m.toList ++ s) : n = m ∧ r = s := by
  obtain ⟨hname, hrest⟩ := append_inj_of_stop (p := fun c => isNameChar c = true)
    (fun c hc => by simp [hr c hc]) (fun c hc => by simp [hs c hc]) hn.isNameChar hm.isNameChar h
  exact ⟨String.toList_inj.mp hname, hrest⟩

/-- The written form of an attribute. -/
def attributeChars (a : String × String) : List Char :=
  ' ' :: (a.1.toList ++ '=' :: '"' :: (a.2.toList.flatMap escapeAttributeChar ++ ['"']))

theorem toList_startTag (e : ElementData) : (startTag e).toList =
    '<' :: (e.name.toList ++ (e.attributes.flatMap attributeChars ++ ['>'])) := by
  have hattribute : ∀ a : String × String,
      (" " ++ a.1 ++ "=\"" ++ escapeAttribute a.2 ++ "\"").toList = attributeChars a := by
    intro a
    simp [attributeChars, escapeAttribute]
  simp only [startTag, String.toList_append, String.toList_join, List.flatMap_map, hattribute]
  simp

theorem attributes_append_inj {r s : List Char} : ∀ {as bs : List (String × String)},
    (∀ a ∈ as, IsName a.1) → (∀ b ∈ bs, IsName b.1) →
      as.flatMap attributeChars ++ '>' :: r = bs.flatMap attributeChars ++ '>' :: s → as = bs ∧ r = s
  | [], [], _, _, h => ⟨rfl, (List.cons.inj h).2⟩
  | [], b :: bs, _, _, h => by simp [attributeChars] at h
  | a :: as, [], _, _, h => by simp [attributeChars] at h
  | (k, v) :: as, (l, w) :: bs, ha, hb, h => by
    simp only [List.flatMap_cons, attributeChars, List.append_assoc, List.cons_append, List.nil_append,
      List.cons.injEq, true_and] at h
    have hstop : ∀ x : List Char, ∀ c ∈ ('=' :: x).head?, isNameChar c = false := by
      intro x c hc
      obtain rfl : '=' = c := by simpa using hc
      rfl
    obtain ⟨rfl, hvalue⟩ := name_append_inj (ha (k, v) (by simp)) (hb (l, w) (by simp))
      (hstop _) (hstop _) h
    obtain ⟨rfl, hrest⟩ := value_append_inj (List.cons.inj (List.cons.inj hvalue).2).2
    obtain ⟨rfl, hrs⟩ := attributes_append_inj (fun a h => ha a (by simp [h]))
      (fun b h => hb b (by simp [h])) hrest
    exact ⟨rfl, hrs⟩

/-- A start tag determines the element, and what comes after the tag. -/
theorem startTag_append_inj {e f : ElementData} {r s : List Char} (he : e.IsReadable)
    (hf : f.IsReadable) (h : (startTag e).toList ++ r = (startTag f).toList ++ s) :
    e.name = f.name ∧ e.attributes = f.attributes ∧ r = s := by
  simp only [toList_startTag, List.cons_append, List.append_assoc, List.nil_append, List.cons.injEq,
    true_and] at h
  -- After the name there is a blank or the end of the tag.
  have hstop : ∀ (as : List (String × String)) (x : List Char),
      ∀ c ∈ (as.flatMap attributeChars ++ '>' :: x).head?, isNameChar c = false := by
    intro as x c hc
    cases as with
    | nil =>
      obtain rfl : '>' = c := by simpa using hc
      rfl
    | cons a as =>
      obtain rfl : ' ' = c := by simpa [attributeChars] using hc
      rfl
  obtain ⟨hname, hrest⟩ := name_append_inj he.isName hf.isName (hstop _ _) (hstop _ _) h
  exact ⟨hname, attributes_append_inj he.isName_attribute hf.isName_attribute hrest⟩

end Document

/-- A start tag looks neither like an end tag nor like a comment. -/
theorem ElementData.IsReadable.exists_startTag_append {e : ElementData} (he : e.IsReadable)
    (r : List Char) :
    ∃ c x, (Document.startTag e).toList ++ r = '<' :: c :: x ∧ c ≠ '/' ∧ c ≠ '!' := by
  rw [Document.toList_startTag]
  cases hname : e.name.toList with
  | nil => exact absurd (String.toList_eq_nil_iff.mp hname) he.isName.ne_empty
  | cons c rest =>
    refine ⟨c, _, rfl, ?_, ?_⟩
    · rintro rfl
      exact absurd (he.isName.isNameChar '/' (by simp [hname])) (by decide)
    · rintro rfl
      exact he.head?_ne (by simp [hname])

/-! ## Trees -/

namespace Tree

open Document

variable {t u : Tree} {r s : List Char} {ts us : List Tree}

theorem write_text (t : String) (content : Option Tree) (ts : List Tree) :
    write .html false (.node (.text t) content ts) = t.toList.flatMap escapeTextChar := by
  simp [write, Writing.html, escapeText]

theorem write_comment (raw : Bool) (t : String) (content : Option Tree) (ts : List Tree) :
    write .html raw (.node (.comment t) content ts) =
      '<' :: '!' :: '-' :: '-' :: (t.toList ++ "-->".toList) := by
  simp [write, Writing.html]

/-- What is written of an element after its start tag. -/
def writeRest (e : ElementData) (content : Option Tree) (ts : List Tree) : List Char :=
  if isVoid e.name then []
  else writeContent .html content ++ writeList .html (isRawText e.name) ts ++
    '<' :: '/' :: (e.name.toList ++ ['>'])

theorem write_element (raw : Bool) (e : ElementData) (content : Option Tree) (ts : List Tree) :
    write .html raw (.node (.element e) content ts) = (startTag e).toList ++ writeRest e content ts := by
  have htag : Writing.html.startTag e.name e.attributes = startTag e := rfl
  rw [write, writeRest, htag]
  split
  · rw [List.append_nil]
  · simp [Writing.html]

/-- A plain tree that is no text starts a tag or a comment, and does not end an element. -/
theorem Plain.exists_write_eq (ht : t.Plain) (htext : t.isText = false) :
    ∃ c x, t.write .html false = '<' :: c :: x ∧ c ≠ '/' := by
  have htag : ∀ {e : ElementData} {content : Option Tree} {ts : List Tree}, e.IsReadable →
      ∃ c x, write .html false (.node (.element e) content ts) = '<' :: c :: x ∧ c ≠ '/' := by
    intro e content ts he
    obtain ⟨c, x, hstart, hc, -⟩ := he.exists_startTag_append (writeRest e content ts)
    exact ⟨c, x, by rw [write_element, hstart], hc⟩
  cases ht with
  | text hne => cases htext
  | comment harrow => exact ⟨'!', _, write_comment _ _ _ _, by decide⟩
  | void he => exact htag he
  | template he => exact htag he
  | element he => exact htag he

/-- Written text is not empty and starts no tag. -/
theorem exists_write_text {t : String} (hne : t ≠ "") (content : Option Tree) (ts : List Tree) :
    ∃ c x, write .html false (.node (.text t) content ts) = c :: x ∧ c ≠ '<' := by
  rw [write_text]
  cases ht : t.toList with
  | nil => exact absurd (String.toList_eq_nil_iff.mp ht) hne
  | cons a rest =>
    cases hchar : escapeTextChar a with
    | nil => exact absurd hchar (escapeTextChar_ne_nil a)
    | cons c x =>
      refine ⟨c, _, by rw [List.flatMap_cons, hchar, List.cons_append], ?_⟩
      exact (ne_of_mem_escapeTextChar (a := a) (by simp [hchar])).1

theorem Plain.exists_text (ht : t.Plain) (htext : t.isText = true) :
    ∃ s, s ≠ "" ∧ t = .node (.text s) none [] := by
  cases ht with
  | text hne => exact ⟨_, hne, rfl⟩
  | _ => cases htext

/-- Text ends here: nothing more comes, or a tag. -/
def EndsText (r : List Char) : Prop := ∀ c ∈ r.head?, c = '<'

/-- The markup of a tree tells it from all others, and what comes after it. -/
def Determined (t : Tree) : Prop := ∀ {u : Tree} {r s : List Char}, u.Plain →
  (t.isText = true → EndsText r) → (u.isText = true → EndsText s) →
    t.write .html false ++ r = u.write .html false ++ s → t.shown = u.shown ∧ r = s

/-- No plain tree starts like an end tag. -/
theorem Plain.write_append_ne (ht : t.Plain) : t.write .html false ++ s ≠ '<' :: '/' :: r := by
  intro h
  cases htext : t.isText with
  | true =>
    obtain ⟨text, hne, rfl⟩ := ht.exists_text htext
    obtain ⟨c, x, hwrite, hc⟩ := exists_write_text hne none []
    rw [hwrite] at h
    exact hc (List.cons.inj h).1
  | false =>
    obtain ⟨c, x, hwrite, hc⟩ := ht.exists_write_eq htext
    rw [hwrite] at h
    exact hc (List.cons.inj (List.cons.inj h).2).1

/-- After a text among children a tag comes. -/
theorem endsText_writeList (hts : ∀ t ∈ ts, t.Plain) (hapart : (t :: ts).IsChain Apart)
    (htext : t.isText = true) : EndsText (writeList .html false ts ++ '<' :: '/' :: r) := by
  intro c hc
  cases ts with
  | nil => simpa [writeList, eq_comm] using hc
  | cons u rest =>
    have hu : u.isText = false := by
      have := (List.isChain_cons_cons.mp hapart).1
      simpa [Apart, htext] using this
    obtain ⟨e, x, hwrite, -⟩ := (hts u (by simp)).exists_write_eq hu
    simpa [writeList, hwrite, eq_comm] using hc

/-- Children are determined up to the end tag, if each of them is determined. -/
theorem writeList_append_inj (hts : ∀ t ∈ ts, t.Plain) (hdet : ∀ t ∈ ts, t.Determined)
    (hapart : ts.IsChain Apart) : ∀ {us}, (∀ u ∈ us, u.Plain) → us.IsChain Apart →
      writeList .html false ts ++ '<' :: '/' :: r = writeList .html false us ++ '<' :: '/' :: s →
        shownList ts = shownList us ∧ r = s := by
  induction ts with
  | nil =>
    intro us hus _ h
    cases us with
    | nil => exact ⟨rfl, by simpa [writeList] using h⟩
    | cons u us =>
      rw [writeList, writeList, List.nil_append, List.append_assoc] at h
      exact absurd h.symm (hus u (by simp)).write_append_ne
  | cons t ts ih =>
    intro us hus hus' h
    cases us with
    | nil =>
      rw [writeList, writeList, List.nil_append, List.append_assoc] at h
      exact absurd h (hts t (by simp)).write_append_ne
    | cons u us =>
      rw [writeList, writeList, List.append_assoc, List.append_assoc] at h
      have hrest : ∀ t ∈ ts, t.Plain := fun t ht => hts t (by simp [ht])
      have hrest' : ∀ u ∈ us, u.Plain := fun u hu => hus u (by simp [hu])
      obtain ⟨htop, h⟩ := hdet t (by simp) (hus u (by simp)) (endsText_writeList hrest hapart)
        (endsText_writeList hrest' hus') h
      obtain ⟨hshown, hrs⟩ := ih hrest (fun t ht => hdet t (by simp [ht])) hapart.of_cons hrest'
        hus'.of_cons h
      exact ⟨by rw [shownList, shownList, htop, hshown], hrs⟩

/-- What does not start with a tag is text. -/
theorem Plain.isText_of_append {c : Char} (hu : u.Plain) (hc : c ≠ '<')
    (h : c :: r = u.write .html false ++ s) : u.isText = true := by
  by_contra htext
  obtain ⟨e, x, hwrite, -⟩ := hu.exists_write_eq (by simpa using htext)
  rw [hwrite] at h
  exact hc (List.cons.inj h).1

/-- What starts like a comment is one. -/
theorem Plain.exists_comment (hu : u.Plain) (h : '<' :: '!' :: r = u.write .html false ++ s) :
    ∃ t, u = .node (.comment t) none [] ∧ ¬ "-->".toList <:+: t.toList := by
  have htag : ∀ {e : ElementData} {content : Option Tree} {ts : List Tree}, e.IsReadable →
      '<' :: '!' :: r ≠ write .html false (.node (.element e) content ts) ++ s := by
    intro e content ts he heq
    obtain ⟨c, x, hstart, -, hc⟩ := he.exists_startTag_append (writeRest e content ts ++ s)
    rw [write_element, List.append_assoc, hstart] at heq
    exact hc (List.cons.inj (List.cons.inj heq).2).1.symm
  cases hu with
  | text hne =>
    obtain ⟨c, x, hwrite, hc⟩ := exists_write_text hne none []
    rw [hwrite] at h
    exact absurd (List.cons.inj h).1.symm hc
  | comment harrow => exact ⟨_, rfl, harrow⟩
  | void he => exact absurd h (htag he)
  | template he => exact absurd h (htag he)
  | element he => exact absurd h (htag he)

/-- What starts with the tag of an element is an element with this tag. -/
theorem Plain.exists_element {e : ElementData} (hu : u.Plain) (he : e.IsReadable)
    (h : (startTag e).toList ++ r = u.write .html false ++ s) :
    ∃ f content us, u = .node (.element f) content us ∧ e.name = f.name ∧
      e.attributes = f.attributes ∧ r = writeRest f content us ++ s := by
  obtain ⟨c, x, hstart, -, hc⟩ := he.exists_startTag_append r
  have htag : ∀ {f : ElementData} {content : Option Tree} {us : List Tree}, f.IsReadable →
      (startTag e).toList ++ r = write .html false (.node (.element f) content us) ++ s →
      e.name = f.name ∧ e.attributes = f.attributes ∧ r = writeRest f content us ++ s := by
    intro f content us hf heq
    rw [write_element, List.append_assoc] at heq
    exact startTag_append_inj he hf heq
  cases hu with
  | text hne =>
    obtain ⟨c', x', hwrite, hc'⟩ := exists_write_text hne none []
    rw [hwrite, hstart] at h
    exact absurd (List.cons.inj h).1.symm hc'
  | comment harrow =>
    rw [hstart, write_comment] at h
    exact absurd (List.cons.inj (List.cons.inj h).2).1 hc
  | void hf => exact ⟨_, _, _, rfl, htag hf h⟩
  | template hf => exact ⟨_, _, _, rfl, htag hf h⟩
  | element hf => exact ⟨_, _, _, rfl, htag hf h⟩

theorem writeRest_void {e : ElementData} (hvoid : isVoid e.name = true) (content : Option Tree)
    (ts : List Tree) : writeRest e content ts = [] := if_pos hvoid

theorem writeRest_template {e : ElementData} (hname : e.name = "template") (ts : List Tree) :
    writeRest e (some (.node .fragment none ts)) [] =
      writeList .html false ts ++ '<' :: '/' :: (e.name.toList ++ ['>']) := by
  rw [writeRest, if_neg (by rw [hname]; decide), writeContent, write, writeList, List.append_nil]

theorem writeRest_element {e : ElementData} (hvoid : isVoid e.name = false)
    (hraw : isRawText e.name = false) (ts : List Tree) :
    writeRest e none ts = writeList .html false ts ++ '<' :: '/' :: (e.name.toList ++ ['>']) := by
  rw [writeRest, if_neg (by simp [hvoid]), writeContent, hraw, List.nil_append]

theorem shown_element {e f : ElementData} (hname : e.name = f.name)
    (hattributes : e.attributes = f.attributes) : Kind.shown (.element e) = Kind.shown (.element f) := by
  rw [Kind.shown, Kind.shown, hname, hattributes]

theorem not_isVoid_template {e : ElementData} (hname : e.name = "template") : isVoid e.name ≠ true := by
  rw [hname]
  decide

/-- The markup of a plain tree determines the tree and what comes after it. -/
theorem Plain.determined (ht : t.Plain) : t.Determined := by
  induction ht with
  | @text t hne =>
    intro u r s hu hr hs h
    obtain ⟨c, x, hwrite, hc⟩ := exists_write_text hne none []
    have htext := hu.isText_of_append hc (by rw [← h, hwrite]; rfl)
    obtain ⟨v, -, rfl⟩ := hu.exists_text htext
    obtain ⟨rfl, hrs⟩ := text_append_inj (hr rfl) (hs rfl) (by rwa [write_text, write_text] at h)
    exact ⟨rfl, hrs⟩
  | @comment t harrow =>
    intro u r s hu _ _ h
    rw [write_comment] at h
    obtain ⟨v, rfl, harrow'⟩ := hu.exists_comment h
    rw [write_comment] at h
    simp only [List.cons_append, List.append_assoc, List.cons.injEq, true_and] at h
    obtain ⟨htext, hrs⟩ := comment_append_inj harrow harrow' h
    rw [String.toList_inj.mp htext]
    exact ⟨rfl, hrs⟩
  | void he hvoid =>
    intro u r s hu _ _ h
    rw [write_element, List.append_assoc] at h
    obtain ⟨f, content, us, rfl, hname, hattributes, hrest⟩ := hu.exists_element he h
    cases hu with
    | void _ hvoid' =>
      rw [writeRest_void hvoid, writeRest_void hvoid'] at hrest
      exact ⟨by rw [shown, shown, shown_element hname hattributes], hrest⟩
    | template _ hname' => exact absurd (hname ▸ hvoid) (not_isVoid_template hname')
    | element _ hvoid' =>
      rw [hname, hvoid'] at hvoid
      cases hvoid
  | template he hname' hts hapart ih =>
    intro u r s hu _ _ h
    rw [write_element, List.append_assoc] at h
    obtain ⟨f, content, us, rfl, hname, hattributes, hrest⟩ := hu.exists_element he h
    cases hu with
    | void _ hvoid => exact absurd (hname ▸ hvoid) (not_isVoid_template hname')
    | template _ hname'' hus hapart' =>
      rw [writeRest_template hname', writeRest_template hname'', hname] at hrest
      simp only [List.append_assoc, List.cons_append] at hrest
      obtain ⟨hshown, hrs⟩ := writeList_append_inj hts ih hapart hus hapart' hrest
      refine ⟨?_, by simpa using hrs⟩
      simp only [shown, shownContent, shownList, shown_element hname hattributes, hshown]
    | element _ _ hname'' => exact absurd (hname ▸ hname') hname''
  | element he hvoid hname' hraw hts hapart ih =>
    intro u r s hu _ _ h
    rw [write_element, List.append_assoc] at h
    obtain ⟨f, content, us, rfl, hname, hattributes, hrest⟩ := hu.exists_element he h
    cases hu with
    | void _ hvoid' =>
      rw [← hname, hvoid] at hvoid'
      cases hvoid'
    | template _ hname'' => exact absurd (hname.trans hname'') hname'
    | element _ hvoid' _ hraw' hus hapart' =>
      rw [writeRest_element hvoid hraw, writeRest_element hvoid' hraw', hname] at hrest
      simp only [List.append_assoc, List.cons_append] at hrest
      obtain ⟨hshown, hrs⟩ := writeList_append_inj hts ih hapart hus hapart' hrest
      refine ⟨?_, by simpa using hrs⟩
      simp only [shown, shownContent, shown_element hname hattributes, hshown]

end Tree

namespace Document

variable {d d' : Document} {i j : NodeId}

/-- Nodes with equal markup have equal trees, but for the values that users entered. -/
theorem shown_tree_eq (h : d.WellFormed) (h' : d'.WellFormed) (hi : (d.tree i).Plain)
    (hj : (d'.tree j).Plain) (hhtml : d.outerHtml i = d'.outerHtml j) :
    (d.tree i).shown = (d'.tree j).shown := by
  have hwrite : (d.tree i).write .html false ++ [] = (d'.tree j).write .html false ++ [] := by
    rw [← h.toList_outerHtml, ← h'.toList_outerHtml, hhtml]
  exact (hi.determined hj (fun _ => by simp [Tree.EndsText]) (fun _ => by simp [Tree.EndsText]) hwrite).1

/-- A paragraph of one page and of another one, where it stands elsewhere. -/
theorem shown_tree_eq_paragraphs :
    let d := Document.parse "<p title=a>1 > 0</p>"
    let d' := Document.parse "<br><p title='a'>1 > 0"
    d.WellFormed ∧ d'.WellFormed ∧ (d.tree 4).Plain ∧ (d'.tree 5).Plain ∧
      d.outerHtml 4 = d'.outerHtml 5 ∧ (d.tree 4).shown = (d'.tree 5).shown := by
  intro d d'
  have hplain : ∀ {d : Document} {i c : NodeId}, d.WellFormed →
      d.kind i = .element { name := "p", attributes := [("title", "a")] } ∧ d.children i = [c] ∧
        d.kind c = .text "1 > 0" ∧ d.children c = [] → (d.tree i).Plain := by
    rintro d i c h ⟨hi, his, hc, hcs⟩
    have hname : ∀ n ∈ ["p", "title"], IsName n := by
      intro n hn
      have : n ≠ "" ∧ n.toList.all isNameChar = true := by
        revert n
        decide
      exact ⟨this.1, List.all_eq_true.mp this.2⟩
    rw [h.tree_eq, his, content?_eq, ← kind_eq, hi, List.map_singleton, h.tree_eq, hcs, content?_eq,
      ← kind_eq, hc]
    refine .element ⟨hname _ (by simp), by decide, ?_⟩ (by decide) (by decide) (by decide) ?_ (by simp)
    · simpa using hname _ (by simp)
    · simpa [Kind.plain, contentOf?] using Tree.Plain.text (t := "1 > 0") (by decide)
  have h : d.WellFormed := wellFormed_parse _
  have h' : d'.WellFormed := wellFormed_parse _
  have hi : (d.tree 4).Plain := hplain (c := 5) h (by decide +kernel)
  have hj : (d'.tree 5).Plain := hplain (c := 6) h' (by decide +kernel)
  have hhtml : d.outerHtml 4 = d'.outerHtml 5 := by decide +kernel
  exact ⟨h, h', hi, hj, hhtml, shown_tree_eq h h' hi hj hhtml⟩

/-- Nothing keeps a text from having children, and what is below a text is not written: two texts with the
same markup, one of them with a comment below it. -/
theorem outerHtml_skips_below_text :
    let d := ((((empty.perform (.createText "a")).2.perform (.createText "a")).2.perform
      (.createComment "c")).2.perform (.append 2 3)).2
    Reachable d ∧ d.tree 1 = .node (.text "a") none [] ∧
      d.tree 2 = .node (.text "a") none [.node (.comment "c") none []] ∧
      d.outerHtml 1 = d.outerHtml 2 ∧ (d.tree 1).shown ≠ (d.tree 2).shown := by
  intro d
  have h₂ : Reachable ((empty.perform (.createText "a")).2.perform (.createText "a")).2 :=
    .edit _ (.edit _ .empty trivial) trivial
  have hreach : Reachable d := .edit _ (.edit _ h₂ trivial) ⟨rfl, rfl,
    (made_createComment h₂.wellFormed.sound "c").not_under h₂.wellFormed.sound rfl⟩
  have htree₁ : d.tree 1 = .node (.text "a") none [] := rfl
  have htree₂ : d.tree 2 = .node (.text "a") none [.node (.comment "c") none []] := rfl
  refine ⟨hreach, htree₁, htree₂, by decide +kernel, ?_⟩
  rw [htree₁, htree₂]
  simp [Tree.shown, Tree.shownList]

end Document

end Hypertemplate
