import Hypertemplate.Proofs.Html.Rules
import Hypertemplate.Proofs.Html.Settle
import Mathlib.Data.List.Sort
import Mathlib.Data.Prod.Lex
import Mathlib.Data.String.Basic
import Mathlib.Order.WithBot

/-!
# What becomes of attributes

The attributes of a document have no families, so of the attributes of an element that have one name the document
keeps one: the one whose family comes last. An element keeps as many attributes as it has just if no two of different
families have one name (`parse_keeps_attributes_iff`), which never happens outside drawings and formulas.
-/

namespace Hypertemplate

namespace Html

open Document

variable {attributes : List DraftAttribute} {a b : DraftAttribute} {name value : String}

/-! ## The order of attributes -/

/-- The place of a family in the order of families. -/
def familyRank (family : Option String) : WithBot String := family

/-- The place of an attribute in the order in which attributes are given to an element. -/
def DraftAttribute.rank (a : DraftAttribute) : WithBot String ×ₗ String := toLex (familyRank a.family, a.name)

theorem familyBefore_iff (f g : Option String) : familyBefore f g = true ↔ familyRank f < familyRank g := by
  cases f with
  | none =>
    cases g with
    | none => exact iff_of_false Bool.false_ne_true (lt_irrefl (⊥ : WithBot String))
    | some g => exact iff_of_true rfl (WithBot.bot_lt_coe g)
  | some f =>
    cases g with
    | none => exact iff_of_false Bool.false_ne_true (not_lt_bot (a := (f : WithBot String)))
    | some g => exact decide_eq_true_iff.trans WithBot.coe_lt_coe.symm

theorem attributeBefore_iff : attributeBefore a b = true ↔ a.rank < b.rank := by
  simp only [attributeBefore, Bool.or_eq_true, Bool.and_eq_true, familyBefore_iff, beq_iff_eq, decide_eq_true_iff,
    DraftAttribute.rank, Prod.Lex.toLex_lt_toLex]
  rfl

theorem rank_lt_of_familyBefore (h : familyBefore a.family b.family = true) : a.rank < b.rank := by
  rw [← attributeBefore_iff, attributeBefore, h, Bool.true_or]

theorem insertSorted_eq (a : DraftAttribute) (attributes : List DraftAttribute) :
    insertSorted a attributes = attributes.orderedInsert (fun a b => attributeBefore a b = true) a := by
  induction attributes with
  | nil => rfl
  | cons b rest ih => rw [insertSorted, List.orderedInsert_cons, ih]

theorem perm_sortAttributes (attributes : List DraftAttribute) : (sortAttributes attributes).Perm attributes := by
  have hsort : insertSorted = List.orderedInsert fun a b => attributeBefore a b = true := by
    funext a attributes
    exact insertSorted_eq a attributes
  rw [sortAttributes, hsort]
  exact List.perm_insertionSort _ attributes

theorem sorted_insertSorted (a : DraftAttribute) (h : attributes.Pairwise fun a b => a.rank ≤ b.rank) :
    (insertSorted a attributes).Pairwise fun a b => a.rank ≤ b.rank := by
  induction attributes with
  | nil => exact List.pairwise_singleton _ a
  | cons b rest ih =>
    obtain ⟨hb, hrest⟩ := List.pairwise_cons.mp h
    rw [insertSorted]
    split
    · next hab =>
      have hle := (attributeBefore_iff.mp hab).le
      exact List.pairwise_cons.mpr ⟨List.forall_mem_cons.mpr ⟨hle, fun c hc => hle.trans (hb c hc)⟩, h⟩
    · next hab =>
      have hle : b.rank ≤ a.rank := le_of_not_gt fun hlt => hab (attributeBefore_iff.mpr hlt)
      refine List.pairwise_cons.mpr ⟨fun c hc => ?_, ih hrest⟩
      rw [insertSorted_eq, List.mem_orderedInsert] at hc
      rcases hc with rfl | hc
      · exact hle
      · exact hb c hc

theorem sorted_sortAttributes (attributes : List DraftAttribute) :
    (sortAttributes attributes).Pairwise fun a b => a.rank ≤ b.rank := by
  induction attributes with
  | nil => exact List.Pairwise.nil
  | cons a rest ih => exact sorted_insertSorted a ih

section Split

variable {before after : List DraftAttribute}

/-- Only what is behind an attribute in the order can have a higher rank. -/
theorem mem_after_or_rank_le (h : sortAttributes attributes = before ++ a :: after) (hb : b ∈ attributes) :
    b ∈ after ∨ b.rank ≤ a.rank := by
  have hsorted := sorted_sortAttributes attributes
  have hmem := (perm_sortAttributes attributes).mem_iff.mpr hb
  rw [h, List.pairwise_append] at hsorted
  rw [h, List.mem_append, List.mem_cons] at hmem
  rcases hmem with hb | rfl | hb
  · exact Or.inr (hsorted.2.2 b hb a List.mem_cons_self)
  · exact Or.inr le_rfl
  · exact Or.inl hb

theorem rank_le_of_mem_after (h : sortAttributes attributes = before ++ a :: after) (hb : b ∈ after) :
    a.rank ≤ b.rank := by
  have hsorted := sorted_sortAttributes attributes
  rw [h, List.pairwise_append, List.pairwise_cons] at hsorted
  exact hsorted.2.1.1 b hb

end Split

/-! ## Giving attributes to an element -/

section

variable {old : List (String × String)}

theorem map_fst_putAttribute (name value : String) (old : List (String × String)) :
    (putAttribute name value old).map Prod.fst =
      if name ∈ old.map Prod.fst then old.map Prod.fst else old.map Prod.fst ++ [name] := by
  induction old with
  | nil => rfl
  | cons a rest ih =>
    rw [putAttribute]
    split
    · next he => simp [he]
    · next hne =>
      rw [List.map_cons, ih]
      by_cases hmem : name ∈ rest.map Prod.fst
      · rw [if_pos hmem, if_pos (by simp [hmem]), List.map_cons]
      · rw [if_neg hmem, if_neg (by simpa [Ne.symm hne] using hmem), List.map_cons, List.cons_append]

theorem nodup_putAttribute (h : (old.map Prod.fst).Nodup) (name value : String) :
    ((putAttribute name value old).map Prod.fst).Nodup := by
  rw [map_fst_putAttribute]
  split
  · exact h
  · next hnew =>
    rw [← List.concat_eq_append]
    exact h.concat hnew

theorem mem_putAttribute_iff (h : (old.map Prod.fst).Nodup) {p : String × String} :
    p ∈ putAttribute name value old ↔ p = (name, value) ∨ p ∈ old ∧ p.1 ≠ name := by
  induction old with
  | nil => simp [putAttribute]
  | cons a rest ih =>
    obtain ⟨hnew, hrest⟩ := List.nodup_cons.mp h
    rw [putAttribute]
    split
    · next he =>
      subst he
      grind
    · rw [List.mem_cons, ih hrest]
      grind

end

theorem nodup_giveAttributes (attributes : List DraftAttribute) :
    ((giveAttributes attributes []).map Prod.fst).Nodup :=
  List.foldlRecOn (motive := fun (given : List (String × String)) => (given.map Prod.fst).Nodup) _ _ List.nodup_nil
    fun _ h (a : DraftAttribute) _ => nodup_putAttribute h a.name a.value

theorem mem_map_fst_giveAttributes (attributes : List DraftAttribute) (old : List (String × String)) :
    name ∈ (giveAttributes attributes old).map Prod.fst ↔
      name ∈ old.map Prod.fst ∨ name ∈ attributes.map DraftAttribute.name := by
  induction attributes generalizing old with
  | nil => simp [giveAttributes]
  | cons a rest ih =>
    refine (ih (putAttribute a.name a.value old)).trans ?_
    rw [map_fst_putAttribute, List.map_cons, List.mem_cons]
    split <;> grind

/-- Of the attributes that have one name the last is kept. -/
theorem mem_giveAttributes_iff : (name, value) ∈ giveAttributes attributes [] ↔
    ∃ before a after, attributes = before ++ a :: after ∧ a.name = name ∧ a.value = value ∧
      ∀ b ∈ after, b.name ≠ name := by
  induction attributes using List.reverseRecOn with
  | nil => simp [giveAttributes]
  | append_singleton attributes a ih =>
    have hgive : giveAttributes (attributes ++ [a]) [] =
        putAttribute a.name a.value (giveAttributes attributes []) := by
      rw [giveAttributes, List.foldl_append]
      rfl
    rw [hgive, mem_putAttribute_iff (nodup_giveAttributes attributes), ih]
    constructor
    · rintro (he | ⟨⟨before, c, after, rfl, hname, hvalue, hafter⟩, hne⟩)
      · obtain ⟨rfl, rfl⟩ := Prod.mk.inj he
        exact ⟨attributes, a, [], rfl, rfl, rfl, nofun⟩
      · refine ⟨before, c, after ++ [a], by simp, hname, hvalue, fun b hb => ?_⟩
        rcases List.mem_append.mp hb with hb | hb
        · exact hafter b hb
        · rw [List.mem_singleton.mp hb]
          exact hne.symm
    · rintro ⟨before, c, after, heq, hname, hvalue, hafter⟩
      rcases List.eq_nil_or_concat after with rfl | ⟨after, z, rfl⟩
      · obtain ⟨rfl, hlast⟩ := List.append_inj' heq rfl
        obtain rfl := List.singleton_inj.mp hlast
        exact Or.inl (by rw [hname, hvalue])
      · rw [List.concat_eq_append, ← List.cons_append, ← List.append_assoc] at heq
        obtain ⟨rfl, hlast⟩ := List.append_inj' heq rfl
        obtain rfl := List.singleton_inj.mp hlast
        rw [List.concat_eq_append] at hafter
        exact Or.inr ⟨⟨before, c, after, rfl, hname, hvalue, fun b hb => hafter b (List.mem_append_left _ hb)⟩,
          (hafter a (by simp)).symm⟩

/-! ## Elements that were read -/

/-- An element as it was read from a page. -/
structure DraftElement where
  vocabulary : Vocabulary
  name : String
  attributes : List DraftAttribute
  deriving DecidableEq, Repr

namespace DraftElement

variable {p : DraftElement} {e : ElementData}

def Keyed (p : DraftElement) : Prop := (DraftKind.element p.vocabulary p.name p.attributes).Keyed

/-- The element that it becomes in the document. -/
def settled (p : DraftElement) : ElementData := settledElement p.name p.attributes

/-- No two attributes of different families have one name. -/
def NamesApart (p : DraftElement) : Prop :=
  ∀ a ∈ p.attributes, ∀ b ∈ p.attributes, a.name = b.name → a.family = b.family

/-- Of the attributes with a name the one whose family comes last has a given value. -/
def LastValue (p : DraftElement) (name value : String) : Prop :=
  ∃ a ∈ p.attributes, a.name = name ∧ a.value = value ∧
    ∀ b ∈ p.attributes, b.name = name → ¬ familyBefore a.family b.family

theorem namesApart_of_html (h : p.Keyed) (hv : p.vocabulary = .html) : p.NamesApart := fun a ha b hb _ =>
  (h.2 hv a ha).trans (h.2 hv b hb).symm

/-- Attributes of one family and name are one. -/
theorem Keyed.eq_of_name (h : p.Keyed) (ha : a ∈ p.attributes) (hb : b ∈ p.attributes)
    (hfamily : a.family = b.family) (hname : a.name = b.name) : a = b :=
  List.inj_on_of_nodup_map h.1 ha hb (Prod.ext hfamily hname)

theorem Keyed.nodup_attributes (h : p.Keyed) : p.attributes.Nodup := h.1.of_map _

theorem Keyed.nodup_names_iff (h : p.Keyed) : (p.attributes.map DraftAttribute.name).Nodup ↔ p.NamesApart := by
  constructor
  · intro hnames a ha b hb hname
    rw [List.inj_on_of_nodup_map hnames ha hb hname]
  · exact fun hapart => h.nodup_attributes.map_on fun a ha b hb hname =>
      h.eq_of_name ha hb (hapart a ha b hb hname) hname

theorem nodup_settled (p : DraftElement) : (p.settled.attributes.map Prod.fst).Nodup := nodup_giveAttributes _

/-- Each name has the value of its attribute whose family comes last. -/
theorem Keyed.mem_settled_iff (h : p.Keyed) : (name, value) ∈ p.settled.attributes ↔ p.LastValue name value := by
  have hperm := perm_sortAttributes p.attributes
  refine mem_giveAttributes_iff.trans ⟨?_, ?_⟩
  · rintro ⟨before, a, after, heq, hname, hvalue, hafter⟩
    have ha : a ∈ p.attributes := hperm.mem_iff.mp (heq ▸ List.mem_append_right _ List.mem_cons_self)
    refine ⟨a, ha, hname, hvalue, fun b hb hbname hlt => ?_⟩
    rcases mem_after_or_rank_le heq hb with hb | hle
    · exact hafter b hb hbname
    · exact (rank_lt_of_familyBefore hlt).not_ge hle
  · rintro ⟨a, ha, hname, hvalue, hlast⟩
    obtain ⟨before, after, heq⟩ := List.append_of_mem (hperm.mem_iff.mpr ha)
    refine ⟨before, a, after, heq, hname, hvalue, fun b hb hbname => ?_⟩
    -- An attribute of this name behind `a` would have a later family, or be `a` once more.
    have hbmem : b ∈ p.attributes := hperm.mem_iff.mp (heq ▸ List.mem_append_right _ (List.mem_cons_of_mem a hb))
    have hnodup : (before ++ a :: after).Nodup := heq ▸ hperm.nodup_iff.mpr h.nodup_attributes
    have hnew : a ∉ after := (List.nodup_cons.mp (List.nodup_append.mp hnodup).2.1).1
    rcases Prod.Lex.toLex_le_toLex.mp (rank_le_of_mem_after heq hb) with hlt | ⟨hfamily, -⟩
    · exact hlast b hbmem hbname ((familyBefore_iff _ _).mpr hlt)
    · exact hnew (h.eq_of_name ha hbmem hfamily (hname.trans hbname.symm) ▸ hb)

/-- The element has one attribute for each name. -/
theorem mem_map_fst_settled (p : DraftElement) : name ∈ p.settled.attributes.map Prod.fst ↔
    name ∈ p.attributes.map DraftAttribute.name := by
  have hgiven : name ∈ p.settled.attributes.map Prod.fst ↔
      name ∈ (sortAttributes p.attributes).map DraftAttribute.name :=
    (mem_map_fst_giveAttributes (sortAttributes p.attributes) []).trans (by simp)
  rw [hgiven, ((perm_sortAttributes p.attributes).map _).mem_iff]

theorem Keyed.length_settled_iff (h : p.Keyed) :
    p.settled.attributes.length = p.attributes.length ↔ p.NamesApart := by
  rw [← h.nodup_names_iff]
  have hsub : p.settled.attributes.map Prod.fst ⊆ p.attributes.map DraftAttribute.name := fun _ =>
    (mem_map_fst_settled p).mp
  constructor
  · intro hlength
    have hsubperm := (nodup_settled p).subperm hsub
    have hperm := hsubperm.perm_of_length_le (by simp [hlength])
    exact hperm.nodup_iff.mp (nodup_settled p)
  · intro hnames
    have hperm := (List.perm_ext_iff_of_nodup (nodup_settled p) hnames).mpr fun _ => mem_map_fst_settled p
    simpa using hperm.length_eq

theorem Keyed.perm_settled (h : p.Keyed) (hapart : p.NamesApart) :
    p.settled.attributes.Perm (p.attributes.map fun a => (a.name, a.value)) := by
  have hnames := h.nodup_names_iff.mpr hapart
  have hpairs : (p.attributes.map fun a => (a.name, a.value)).Nodup := by
    refine List.Nodup.of_map Prod.fst ?_
    simpa [Function.comp_def] using hnames
  refine (List.perm_ext_iff_of_nodup ((nodup_settled p).of_map _) hpairs).mpr fun ⟨name, value⟩ => ?_
  rw [h.mem_settled_iff, List.mem_map]
  constructor
  · rintro ⟨a, ha, rfl, rfl, -⟩
    exact ⟨a, ha, rfl⟩
  · rintro ⟨a, ha, heq⟩
    obtain ⟨rfl, rfl⟩ := Prod.mk.inj heq
    refine ⟨a, ha, rfl, rfl, fun b hb hname hlt => ?_⟩
    rw [hapart b hb a ha hname, familyBefore_iff] at hlt
    exact lt_irrefl _ hlt

end DraftElement

end Html

/-! ## The elements of a page -/

namespace Tree

mutual
/-- The elements of a tree, each before those below it, and those of a template's content before its children. -/
def elements : Tree → List ElementData
  | .node k content children =>
    let below := elementsContent content ++ elementsList children
    match k with
    | .element e => e :: below
    | _ => below

/-- The elements of a template's content. -/
def elementsContent : Option Tree → List ElementData
  | none => []
  | some t => t.elements

/-- The elements of trees one after the other. -/
def elementsList : List Tree → List ElementData
  | [] => []
  | t :: ts => t.elements ++ elementsList ts
end

theorem elementsList_eq_flatMap (ts : List Tree) : elementsList ts = ts.flatMap elements := by
  induction ts with
  | nil => rfl
  | cons t rest ih => rw [elementsList, ih, List.flatMap_cons]

end Tree

namespace Html

open Document

variable {t : Draft} {p : DraftElement} {e : ElementData}

/-- The elements at and below a node of a draft, each before those below it; `depth` bounds the levels. -/
def Draft.elements (t : Draft) : (depth : Nat) → Nat → List DraftElement
  | 0, _ => []
  | depth + 1, i =>
    let below := (t.node i).children.flatMap (elements t depth)
    match (t.node i).kind with
    | .page => below
    | .element vocabulary name attributes => { vocabulary, name, attributes } :: below
    | _ => []

theorem elements_elementTree (e : ElementData) (below : List Tree) :
    (elementTree e below).elements = e :: Tree.elementsList below := by
  rw [elementTree]
  split
  · simp [Tree.elements, Tree.elementsContent, Tree.elementsList]
  · simp [Tree.elements, Tree.elementsContent]

/-- The elements of the trees of a draft are what the elements of the draft become. -/
theorem elements_trees (t : Draft) (depth : Nat) :
    ∀ i, Tree.elementsList (t.trees depth i) = (t.elements depth i).map DraftElement.settled := by
  induction depth with
  | zero => exact fun _ => rfl
  | succ depth ih =>
    intro i
    have hbelow : Tree.elementsList ((t.node i).children.flatMap (t.trees depth)) =
        ((t.node i).children.flatMap (t.elements depth)).map DraftElement.settled := by
      rw [Tree.elementsList_eq_flatMap, List.flatMap_assoc, List.map_flatMap]
      refine List.flatMap_congr fun c _ => ?_
      rw [← ih c, Tree.elementsList_eq_flatMap]
    rw [Draft.trees, Draft.elements]
    cases (t.node i).kind with
    | page => exact hbelow
    | doctype name => rfl
    | text text => rfl
    | comment text => rfl
    | element vocabulary name attributes =>
      rw [Tree.elementsList_eq_flatMap, List.flatMap_singleton, elements_elementTree, hbelow]
      rfl

theorem keyed_of_mem_elements (h : t.Keyed) {depth : Nat} : ∀ {i}, p ∈ t.elements depth i → p.Keyed := by
  induction depth with
  | zero => nofun
  | succ depth ih =>
    intro i hp
    have hbelow : p ∈ (t.node i).children.flatMap (t.elements depth) → p.Keyed := fun hp => by
      obtain ⟨c, -, hc⟩ := List.mem_flatMap.mp hp
      exact ih hc
    have hi := h.node i
    rw [Draft.elements] at hp
    cases hk : (t.node i).kind with
    | page => exact hbelow (by simpa [hk] using hp)
    | doctype name => simp [hk] at hp
    | text text => simp [hk] at hp
    | comment text => simp [hk] at hp
    | element vocabulary name attributes =>
      simp only [hk, List.mem_cons] at hp
      rcases hp with rfl | hp
      · rw [hk] at hi
        exact hi
      · exact hbelow hp

/-- The elements that are read from a page. -/
def elementsRead (html : String) : List DraftElement := (draftOf html).elements ((draftOf html).size + 1) 0

end Html

namespace Document

open Html

/-- The document of a page has one element for each that was read. It has one attribute for each name, with the value
of the attribute of this name whose family comes last. So it has as many attributes as were read just if no two of
different families have one name; then they have the same names and values. Elements that are no part of a drawing or
a formula keep all their attributes. -/
theorem parse_keeps_attributes_iff (html : String) :
    List.Forall₂ (fun (p : DraftElement) (e : ElementData) =>
        e.name = p.name.map Char.toLower ∧ (e.attributes.map Prod.fst).Nodup ∧
        (∀ name value, (name, value) ∈ e.attributes ↔ p.LastValue name value) ∧
        (e.attributes.length = p.attributes.length ↔ p.NamesApart) ∧
        (p.NamesApart → e.attributes.Perm (p.attributes.map fun a => (a.name, a.value))) ∧
        (p.vocabulary = .html → p.NamesApart))
      (elementsRead html) ((parse html).tree root).elements := by
  have hall : ((parse html).tree root).elements = (elementsRead html).map DraftElement.settled := by
    rw [tree_parse]
    exact elements_trees _ _ _
  rw [hall, List.forall₂_map_right_iff, List.forall₂_same]
  intro p hp
  have h := keyed_of_mem_elements (keyed_draftOf html) hp
  exact ⟨rfl, p.nodup_settled, fun _ _ => h.mem_settled_iff, h.length_settled_iff, h.perm_settled,
    DraftElement.namesApart_of_html h⟩

/-- In a drawing a link without family is overwritten by one of a family. -/
theorem overwrites_link_in_drawing :
    let html := "<svg href=b xlink:href=a></svg>"
    (elementsRead html).map DraftElement.attributes =
      [[], [], [], [{ name := "href", value := "b" }, { family := "xlink", name := "href", value := "a" }]] ∧
    ((parse html).tree root).elements.map ElementData.attributes = [[], [], [], [("href", "a")]] := by
  decide +kernel

end Document

end Hypertemplate
