import Hypertemplate.Binding.Resolve
import Hypertemplate.Fetch.Request

/-!
# What is read off the table

Walks, texts, form values and selectors read the table of a document and nothing else: two documents with the
same table give the same answers, whatever places they keep or have given back (`find?_congr`). So does the
payload of data sources (`payload?_congr`).
-/

namespace Hypertemplate

namespace Document

variable {d d' : Document}

/-! ## Nodes -/

theorem node_congr (h : d'.nodes = d.nodes) : d'.node = d.node := by
  funext i
  rw [node, node, h]

theorem kind_congr (h : d'.nodes = d.nodes) : d'.kind = d.kind := by
  funext i
  rw [kind, kind, node_congr h]

theorem parent_congr (h : d'.nodes = d.nodes) : d'.parent = d.parent := by
  funext i
  rw [parent, parent, node_congr h]

theorem children_congr (h : d'.nodes = d.nodes) : d'.children = d.children := by
  funext i
  rw [children, children, node_congr h]

theorem isLive_congr (h : d'.nodes = d.nodes) : d'.isLive = d.isLive := by
  funext i
  rw [isLive, isLive, node_congr h]

theorem element?_congr (h : d'.nodes = d.nodes) : d'.element? = d.element? := by
  funext i
  rw [element?, element?, kind_congr h]

theorem isElement_congr (h : d'.nodes = d.nodes) : d'.isElement = d.isElement := by
  funext i
  rw [isElement, isElement, element?_congr h]

theorem tagName?_congr (h : d'.nodes = d.nodes) : d'.tagName? = d.tagName? := by
  funext i
  rw [tagName?, tagName?, element?_congr h]

theorem attribute?_congr (h : d'.nodes = d.nodes) : d'.attribute? = d.attribute? := by
  funext i name
  rw [attribute?, attribute?, element?_congr h]

/-! ## Walks -/

theorem visit_congr (h : d'.nodes = d.nodes) (bound : Nat) (is : List NodeId) :
    d'.visit bound is = d.visit bound is := by
  induction bound generalizing is with
  | zero => rfl
  | succ bound ih =>
    cases is with
    | nil => rfl
    | cons i rest => rw [visit, visit, children_congr h, ih]

theorem visits_congr (h : d'.nodes = d.nodes) (depth : Nat) : d'.visits depth = d.visits depth := by
  induction depth with
  | zero => rfl
  | succ depth ih =>
    funext i
    rw [visits, visits, children_congr h, ih]

theorem descendants_congr (h : d'.nodes = d.nodes) : d'.descendants = d.descendants := by
  funext i
  rw [descendants, descendants, visit_congr h, visits_congr h, children_congr h, h]

theorem climb_congr (h : d'.nodes = d.nodes) (bound : Nat) : d'.climb bound = d.climb bound := by
  induction bound with
  | zero => rfl
  | succ bound ih =>
    funext i
    rw [climb, climb, parent_congr h, ih]

theorem ancestors_congr (h : d'.nodes = d.nodes) : d'.ancestors = d.ancestors := by
  funext i
  rw [ancestors, ancestors, climb_congr h, h]

/-! ## Texts and form values -/

theorem textContent_congr (h : d'.nodes = d.nodes) : d'.textContent = d.textContent := by
  have hbelow : ∀ depth, d'.textBelow depth = d.textBelow depth := by
    intro depth
    induction depth with
    | zero => rfl
    | succ depth ih =>
      funext i
      rw [textBelow, textBelow, kind_congr h, children_congr h, ih]
  funext i
  rw [textContent, textContent, hbelow, h]

theorem optionValue_congr (h : d'.nodes = d.nodes) : d'.optionValue = d.optionValue := by
  funext i e
  rw [optionValue, optionValue, textContent_congr h]

theorem value?_congr (h : d'.nodes = d.nodes) : d'.value? = d.value? := by
  funext i
  simp only [value?, chosenOption?, element?_congr h, textContent_congr h, optionValue_congr h,
    descendants_congr h]

theorem sentText_congr (h : d'.nodes = d.nodes) : d'.sentText = d.sentText := by
  funext i
  rw [sentText, sentText, value?_congr h, textContent_congr h]

end Document

/-! ## Selectors -/

namespace Selector

open Document

variable {d d' : Document}

theorem siblings_congr (h : d'.nodes = d.nodes) : d'.siblings = d.siblings := by
  funext i
  rw [siblings, siblings, parent_congr h, children_congr h]

theorem siblingsBefore_congr (h : d'.nodes = d.nodes) : d'.siblingsBefore = d.siblingsBefore := by
  funext i
  rw [siblingsBefore, siblingsBefore, siblings_congr h]

theorem siblingsAfter_congr (h : d'.nodes = d.nodes) : d'.siblingsAfter = d.siblingsAfter := by
  funext i
  rw [siblingsAfter, siblingsAfter, siblings_congr h]

theorem indexOf_congr (h : d'.nodes = d.nodes) : indexOf d' = indexOf d := by
  funext i fromEnd sameName
  simp only [indexOf, siblingsAfter_congr h, siblingsBefore_congr h, isElement_congr h, tagName?_congr h]

theorem related_congr (h : d'.nodes = d.nodes) : related d' = related d := by
  funext k i
  simp only [related, ancestorElements, parentElement?, previousElement?, ancestors_congr h, parent_congr h,
    siblingsBefore_congr h, isElement_congr h]

theorem reach_congr (h : d'.nodes = d.nodes) : reach d' = reach d := by
  funext i
  simp only [reach, descendants_congr h, siblingsAfter_congr h, isElement_congr h]

mutual
theorem accepts_congr (h : d'.nodes = d.nodes) : ∀ (s : Simple) (i : NodeId), s.accepts d' i = s.accepts d i
  | .any, _ | .never, _ => rfl
  | .tag name, i => by simp only [Simple.accepts, tagName?_congr h]
  | .id id, i => by simp only [Simple.accepts, attribute?_congr h]
  | .class name, i => by simp only [Simple.accepts, hasClass, attribute?_congr h]
  | .attribute name test, i => by simp only [Simple.accepts, attributeMatches, element?_congr h]
  | .root, i => by simp only [Simple.accepts, isTop, parent_congr h, kind_congr h]
  | .empty, i => by simp only [Simple.accepts, isBare, children_congr h, kind_congr h]
  | .position p, i => by simp only [Simple.accepts, indexOf_congr h]
  | .only sameName, i => by simp only [Simple.accepts, indexOf_congr h]
  | .oneOf cs, i => by simp only [Simple.accepts, anyAccepts_congr h 0 cs]
  | .noneOf cs, i => by simp only [Simple.accepts, anyAccepts_congr h 0 cs]
  | .has cs, i => by simp only [Simple.accepts, reach_congr h, anyAccepts_congr h i cs]

theorem allAccept_congr (h : d'.nodes = d.nodes) : ∀ (cs : List Simple) (i : NodeId),
    allAccept d' cs i = allAccept d cs i
  | [], _ => rfl
  | s :: rest, i => by rw [allAccept, allAccept, accepts_congr h s i, allAccept_congr h rest i]

theorem complexAccepts_congr (h : d'.nodes = d.nodes) (start : NodeId) : ∀ (c : ComplexSelector) (i : NodeId),
    c.accepts d' start i = c.accepts d start i
  | .compound cs, i => by rw [ComplexSelector.accepts, ComplexSelector.accepts, allAccept_congr h cs i]
  | .link left k cs, i => by
    simp only [ComplexSelector.accepts, related_congr h, allAccept_congr h cs i,
      complexAccepts_congr h start left]
  | .anchor, _ | .forgiven, _ => rfl

theorem anyAccepts_congr (h : d'.nodes = d.nodes) (start : NodeId) : ∀ (cs : List ComplexSelector) (i : NodeId),
    anyAccepts d' start cs i = anyAccepts d start cs i
  | [], _ => rfl
  | c :: rest, i => by
    rw [anyAccepts, anyAccepts, complexAccepts_congr h start c i, anyAccepts_congr h start rest i]
end

end Selector

namespace Document

variable {d d' : Document}

theorem find?_congr (h : d'.nodes = d.nodes) : d'.find? = d.find? := by
  funext selector
  simp only [find?, select, Query.firstBelow?, descendants_congr h]
  have hfinds : ∀ q : Query, q.finds d' = q.finds d := by
    intro q
    funext i
    rw [Query.finds, Query.finds, isElement_congr h, Selector.anyAccepts_congr h]
  simp only [hfinds]

theorem payload?_congr (h : d'.nodes = d.nodes) : d'.payload? = d.payload? := by
  funext sources
  simp only [payload?, payloadFields, find?_congr h, sentText_congr h]

end Document

end Hypertemplate
