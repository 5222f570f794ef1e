import Mathlib.Data.List.Find
import Hypertemplate.Document.Walk

/-!
# The values of form controls

A form control has the value that was entered into it. If nothing was, the markup gives its value (`FormValue`): most
controls have it in an attribute, a text area has its text, and a select has the value of the option that it shows.
Form controls have one value each, and no other node has any (`formValue_iff`, `value?_eq_none_iff`).
-/

namespace Hypertemplate.Document

open Hypertemplate.Text

variable {d : Document} {i o : NodeId} {e : ElementData} {name s : String}

/-! ## What a control is -/

/-- The names of form controls. -/
def controlNames : List String := ["input", "textarea", "select", "option", "button", "output", "data"]

/-- A form control is an element with one of these names. -/
def Control (d : Document) (i : NodeId) : Prop := ∃ name ∈ controlNames, d.tagName? i = some name

/-- What was entered into an element. -/
def entered? (d : Document) (i : NodeId) : Option String := (d.element? i).bind (·.enteredValue)

/-- The options below a node, in document order. -/
def options (d : Document) (i : NodeId) : List NodeId :=
  (d.descendants i).filter fun n => d.tagName? n == some "option"

/-- The option that a select shows: the first one that is marked as selected, or the first one if none is. -/
inductive Shown (d : Document) (i o : NodeId) : Prop
  | marked {before after : List NodeId} (h : d.options i = before ++ o :: after)
      (hmarked : d.hasAttribute o "selected" = true)
      (hbefore : ∀ n ∈ before, d.hasAttribute n "selected" = false) : Shown d i o
  | first {after : List NodeId} (h : d.options i = o :: after)
      (hnone : ∀ n ∈ d.options i, d.hasAttribute n "selected" = false) : Shown d i o

/-- The value of a form control. -/
inductive FormValue (d : Document) : NodeId → String → Prop
  | entered {i : NodeId} {s : String} (hcontrol : d.Control i) (h : d.entered? i = some s) : FormValue d i s
  | field {i : NodeId} {name : String} (hname : d.tagName? i = some name)
      (hkind : name ∈ ["input", "button", "output", "data"]) (hfresh : d.entered? i = none) :
      FormValue d i ((d.attribute? i "value").getD "")
  | text {i : NodeId} (hname : d.tagName? i = some "textarea") (hfresh : d.entered? i = none) :
      FormValue d i (d.textContent i)
  | option {i : NodeId} (hname : d.tagName? i = some "option") (hfresh : d.entered? i = none) :
      FormValue d i ((d.attribute? i "value").getD (trim (d.textContent i)))
  | chosen {i o : NodeId} {s : String} (hname : d.tagName? i = some "select") (hfresh : d.entered? i = none)
      (hshown : d.Shown i o) (h : FormValue d o s) : FormValue d i s
  | bare {i : NodeId} (hname : d.tagName? i = some "select") (hfresh : d.entered? i = none)
      (hnone : d.options i = []) : FormValue d i ""

/-! ## The option that a select shows -/

theorem exists_element_of_tagName? (h : d.tagName? i = some name) : ∃ e, d.element? i = some e ∧ e.name = name :=
  Option.map_eq_some_iff.mp h

theorem shown_iff : d.Shown i o ↔
    (((d.options i).find? fun n => d.hasAttribute n "selected") <|> (d.options i).head?) = some o := by
  constructor
  · rintro (⟨h, hmarked, hbefore⟩ | ⟨h, hnone⟩)
    · have hfind : ((d.options i).find? fun n => d.hasAttribute n "selected") = some o :=
        List.find?_eq_some_iff_append.mpr ⟨hmarked, _, _, h, fun n hn => by simp [hbefore n hn]⟩
      rw [hfind]
      rfl
    · have hfind : ((d.options i).find? fun n => d.hasAttribute n "selected") = none :=
        List.find?_eq_none.mpr fun n hn => by simp [hnone n hn]
      rw [hfind, h]
      rfl
  · intro h
    cases hfind : (d.options i).find? fun n => d.hasAttribute n "selected" with
    | some n =>
      rw [hfind] at h
      cases h
      obtain ⟨hmarked, before, after, hsplit, hbefore⟩ := List.find?_eq_some_iff_append.mp hfind
      exact .marked hsplit hmarked fun n hn => by simpa using hbefore n hn
    | none =>
      rw [hfind] at h
      obtain ⟨after, hsplit⟩ := List.head?_eq_some_iff.mp h
      exact .first hsplit fun n hn => by simpa using List.find?_eq_none.mp hfind n hn

/-- The options below a node, with what the document tells of them. -/
def optionElements (d : Document) (i : NodeId) : List (NodeId × ElementData) :=
  (d.descendants i).filterMap fun n =>
    (d.element? n).bind fun e => if e.name = "option" then some (n, e) else none

theorem of_mem_optionElements {x : NodeId × ElementData} (h : x ∈ d.optionElements i) :
    d.element? x.1 = some x.2 ∧ x.2.name = "option" := by
  obtain ⟨n, -, hn⟩ := List.mem_filterMap.mp h
  obtain ⟨e, he, hx⟩ := Option.bind_eq_some_iff.mp hn
  split at hx
  · next hname =>
    cases hx
    exact ⟨he, hname⟩
  · cases hx

theorem map_fst_optionElements (d : Document) (i : NodeId) : (d.optionElements i).map Prod.fst = d.options i := by
  rw [optionElements, options, List.map_filterMap, ← List.filterMap_eq_filter]
  congr 1
  funext n
  by_cases htag : d.tagName? n = some "option"
  · obtain ⟨e, he, hname⟩ := exists_element_of_tagName? htag
    simp [Option.guard, htag, he, hname]
  · have hnone : ((d.element? n).bind fun e => if e.name = "option" then some (n, e) else none) = none := by
      rw [Option.bind_eq_none_iff]
      intro e he
      exact if_neg fun hname => htag (by rw [tagName?, he, Option.map_some, hname])
    simp [Option.guard, htag, hnone]

theorem chosenOption?_eq_some_iff :
    d.chosenOption? i = some (o, e) ↔ d.Shown i o ∧ d.element? o = some e := by
  have hmarked : ((d.options i).find? fun n => d.hasAttribute n "selected") =
      ((d.optionElements i).find? fun x => (valueOf? "selected" x.2.attributes).isSome).map Prod.fst := by
    rw [← map_fst_optionElements, List.find?_map]
    congr 1
    refine List.find?_congr fun x hx => ?_
    rw [Function.comp_apply, hasAttribute, attribute?, (of_mem_optionElements hx).1]
    rfl
  have hfirst : (d.options i).head? = (d.optionElements i).head?.map Prod.fst := by
    rw [← map_fst_optionElements, List.head?_map]
  have hchosen : d.chosenOption? i =
      (((d.optionElements i).find? fun x => (valueOf? "selected" x.2.attributes).isSome) <|>
        (d.optionElements i).head?) := rfl
  have hfst : (d.chosenOption? i).map Prod.fst =
      (((d.options i).find? fun n => d.hasAttribute n "selected") <|> (d.options i).head?) := by
    rw [hmarked, hfirst, hchosen]
    cases (d.optionElements i).find? fun x => (valueOf? "selected" x.2.attributes).isSome <;> rfl
  have hmem : ∀ x, d.chosenOption? i = some x → d.element? x.1 = some x.2 := by
    intro x hx
    rw [hchosen] at hx
    cases hfind : (d.optionElements i).find? fun x => (valueOf? "selected" x.2.attributes).isSome with
    | some y =>
      rw [hfind] at hx
      cases hx
      exact (of_mem_optionElements (List.mem_of_find?_eq_some hfind)).1
    | none =>
      rw [hfind] at hx
      exact (of_mem_optionElements (List.mem_of_head? hx)).1
  rw [shown_iff, ← hfst]
  constructor
  · intro h
    exact ⟨by rw [h]; rfl, hmem _ h⟩
  · rintro ⟨h, he⟩
    obtain ⟨x, hx, rfl⟩ := Option.map_eq_some_iff.mp h
    have hsame := (hmem x hx).symm.trans he
    rw [hx, ← Option.some.inj hsame]

theorem chosenOption?_of_bare (h : d.options i = []) : d.chosenOption? i = none := by
  rw [Option.eq_none_iff_forall_ne_some]
  rintro ⟨o, e⟩ hsome
  have hshown := shown_iff.mp (chosenOption?_eq_some_iff.mp hsome).1
  rw [h] at hshown
  cases hshown

/-! ## The value -/

theorem entered?_of_element (he : d.element? i = some e) : d.entered? i = e.enteredValue := by
  rw [entered?, he, Option.bind_some]

theorem exists_element_of_control (h : d.Control i) : ∃ e, d.element? i = some e ∧ hasFormValue e.name = true := by
  obtain ⟨name, hmem, hname⟩ := h
  obtain ⟨e, he, rfl⟩ := exists_element_of_tagName? hname
  exact ⟨e, he, List.contains_iff_mem.mpr hmem⟩

theorem value?_of_entered (hcontrol : d.Control i) (h : d.entered? i = some s) : d.value? i = some s := by
  obtain ⟨e, he, hform⟩ := exists_element_of_control hcontrol
  rw [entered?_of_element he] at h
  simp [value?, he, hform, h]

theorem value?_option (he : d.element? i = some e) (hname : e.name = "option") :
    d.value? i = some (d.optionValue i e) := by
  cases hentered : e.enteredValue with
  | some s => simp [value?, he, hasFormValue, hname, optionValue, hentered]
  | none => simp [value?, he, hasFormValue, hname, hentered]

theorem value?_select (he : d.element? i = some e) (hname : e.name = "select") (hfresh : e.enteredValue = none) :
    d.value? i = some (((d.chosenOption? i).map fun (n, e) => d.optionValue n e).getD "") := by
  simp [value?, he, hasFormValue, hname, hfresh]

theorem tagName?_of_shown (h : d.Shown i o) : d.tagName? o = some "option" := by
  have hmem : o ∈ d.options i := by
    rcases h with ⟨h, -, -⟩ | ⟨h, -⟩ <;> simp [h]
  simpa using (List.mem_filter.mp hmem).2

theorem FormValue.value?_eq (h : d.FormValue i s) : d.value? i = some s := by
  induction h with
  | entered hcontrol h => exact value?_of_entered hcontrol h
  | field hname hkind hfresh =>
    obtain ⟨e, he, rfl⟩ := exists_element_of_tagName? hname
    rw [entered?_of_element he] at hfresh
    simp only [List.mem_cons, List.not_mem_nil, or_false] at hkind
    rcases hkind with hk | hk | hk | hk <;> simp [value?, attribute?, he, hasFormValue, hk, hfresh]
  | text hname hfresh =>
    obtain ⟨e, he, hk⟩ := exists_element_of_tagName? hname
    rw [entered?_of_element he] at hfresh
    simp [value?, he, hasFormValue, hk, hfresh]
  | option hname hfresh =>
    obtain ⟨e, he, hk⟩ := exists_element_of_tagName? hname
    rw [entered?_of_element he] at hfresh
    rw [value?_option he hk, optionValue, hfresh, attribute?, he]
    rfl
  | chosen hname hfresh hshown h ih =>
    obtain ⟨e, he, hk⟩ := exists_element_of_tagName? hname
    rw [entered?_of_element he] at hfresh
    obtain ⟨e', he', hoption⟩ := exists_element_of_tagName? (tagName?_of_shown hshown)
    rw [value?_select he hk hfresh, chosenOption?_eq_some_iff.mpr ⟨hshown, he'⟩, ← ih, value?_option he' hoption]
    rfl
  | bare hname hfresh hnone =>
    obtain ⟨e, he, hk⟩ := exists_element_of_tagName? hname
    rw [entered?_of_element he] at hfresh
    rw [value?_select he hk hfresh, chosenOption?_of_bare hnone]
    rfl

theorem exists_formValue_option (h : d.tagName? i = some "option") : ∃ s, d.FormValue i s := by
  cases hentered : d.entered? i with
  | some s => exact ⟨s, .entered ⟨_, by decide, h⟩ hentered⟩
  | none => exact ⟨_, .option h hentered⟩

theorem exists_formValue (h : d.Control i) : ∃ s, d.FormValue i s := by
  cases hentered : d.entered? i with
  | some s => exact ⟨s, .entered h hentered⟩
  | none =>
    obtain ⟨name, hmem, hname⟩ := h
    simp only [controlNames, List.mem_cons, List.not_mem_nil, or_false] at hmem
    rcases hmem with rfl | rfl | rfl | rfl | rfl | rfl | rfl
    · exact ⟨_, .field hname (by decide) hentered⟩
    · exact ⟨_, .text hname hentered⟩
    · cases hshown : (((d.options i).find? fun n => d.hasAttribute n "selected") <|> (d.options i).head?) with
      | some o =>
        obtain ⟨s, hs⟩ := exists_formValue_option (tagName?_of_shown (shown_iff.mpr hshown))
        exact ⟨s, .chosen hname hentered (shown_iff.mpr hshown) hs⟩
      | none =>
        refine ⟨"", .bare hname hentered (List.head?_eq_none_iff.mp ?_)⟩
        revert hshown
        cases (d.options i).find? fun n => d.hasAttribute n "selected" with
        | some o => exact nofun
        | none => exact id
    · exact ⟨_, .option hname hentered⟩
    · exact ⟨_, .field hname (by decide) hentered⟩
    · exact ⟨_, .field hname (by decide) hentered⟩
    · exact ⟨_, .field hname (by decide) hentered⟩

/-- Only form controls have a value. -/
theorem value?_eq_none_iff : d.value? i = none ↔ ¬ d.Control i := by
  constructor
  · intro h hcontrol
    obtain ⟨s, hs⟩ := exists_formValue hcontrol
    rw [hs.value?_eq] at h
    cases h
  · intro hcontrol
    rw [value?]
    cases he : d.element? i with
    | none => rfl
    | some e =>
      have hform : hasFormValue e.name = false := by
        rw [Bool.eq_false_iff]
        exact fun hform => hcontrol ⟨e.name, List.contains_iff_mem.mp hform, by rw [tagName?, he]; rfl⟩
      simp [hform]

/-- The document gives a control this value and no other. -/
theorem formValue_iff : d.FormValue i s ↔ d.value? i = some s := by
  refine ⟨FormValue.value?_eq, fun h => ?_⟩
  have hcontrol : d.Control i := by
    by_contra hnone
    rw [value?_eq_none_iff.mpr hnone] at h
    cases h
  obtain ⟨s', hs'⟩ := exists_formValue hcontrol
  rw [hs'.value?_eq] at h
  exact Option.some.inj h ▸ hs'

end Hypertemplate.Document
