import Hypertemplate.Proofs.Html.Settle
import Hypertemplate.Selector.Match
import Mathlib.Logic.Function.Iterate

/-!
# Elements among siblings

Steps from an element to the one behind it and to the one in front of it look up the place among the siblings anew
each time. Where links fit together a node has one place, so both directions are read off one relation
(`Neighbours`): two elements are children of one node, and what stands between them is no element. Going on from the
first element child meets all element children in order (`iterate_nextElement?`).
-/

namespace Hypertemplate.Document

variable {d : Document} {a b i p : NodeId} {before after : List NodeId}

/-- `b` stands behind `a` among the children of a node, with nothing but other kinds of nodes than elements between
them. -/
def Neighbours (d : Document) (a b : NodeId) : Prop :=
  ∃ p before between after, d.children p = before ++ a :: (between ++ b :: after) ∧
    ∀ c ∈ between, d.isElement c = false

/-! ## The place of a node among its siblings -/

theorem siblings_of_parent_eq_none (h : d.parent i = none) : d.siblings i = ([], 0) := by
  rw [siblings, h]

/-- The place of a node is never behind the last of its siblings. -/
theorem siblings_le (d : Document) (i : NodeId) : (d.siblings i).2 ≤ (d.siblings i).1.length := by
  rw [siblings]
  cases d.parent i with
  | none => exact Nat.le_refl _
  | some p =>
    cases hplace : (d.children p).idxOf? i with
    | none => simp [hplace]
    | some n =>
      have hlt := (List.idxOf?_eq_some_iff.mp hplace).1
      simp [hplace]
      omega

theorem Sound.siblings_eq (h : d.Sound) (hc : d.children p = before ++ i :: after) :
    d.siblings i = (before ++ i :: after, before.length) := by
  have hmem : i ∈ d.children p := by simp [hc]
  have hfront : i ∉ before := by
    have hnd := h.children_nodup p
    rw [hc, List.nodup_append] at hnd
    exact fun hb => hnd.2.2 i hb i List.mem_cons_self rfl
  have hplace : (before ++ i :: after).idxOf? i = some before.length := by
    rw [List.idxOf?_eq_some_iff]
    refine ⟨by simp, by simp, fun n hn he => hfront ?_⟩
    rw [List.getElem_append_left hn] at he
    exact he ▸ List.getElem_mem hn
  rw [siblings, h.child_iff.mp hmem]
  simp only [hc, hplace, Option.getD_some]

theorem Sound.siblingsBefore_eq (h : d.Sound) (hc : d.children p = before ++ i :: after) :
    d.siblingsBefore i = before.reverse := by
  rw [siblingsBefore, h.siblings_eq hc]
  exact congrArg List.reverse (List.take_left' rfl)

theorem Sound.siblingsAfter_eq (h : d.Sound) (hc : d.children p = before ++ i :: after) :
    d.siblingsAfter i = after := by
  rw [siblingsAfter, h.siblings_eq hc]
  simp

/-- A node without parent has no siblings; another one splits the children of its parent. -/
theorem Sound.siblings_cases (h : d.Sound) (i : NodeId) :
    (d.siblingsBefore i = [] ∧ d.siblingsAfter i = [] ∧ ∀ p, i ∉ d.children p) ∨
      ∃ p before after, d.children p = before ++ i :: after := by
  cases hp : d.parent i with
  | none =>
    left
    refine ⟨?_, ?_, fun p hmem => ?_⟩
    · rw [siblingsBefore, siblings_of_parent_eq_none hp]
      rfl
    · rw [siblingsAfter, siblings_of_parent_eq_none hp]
      rfl
    · rw [h.child_iff, hp] at hmem
      cases hmem
  | some p =>
    obtain ⟨before, after, hc⟩ := List.append_of_mem (h.child_iff.mpr hp)
    exact Or.inr ⟨p, before, after, hc⟩

/-! ## One step -/

theorem Sound.nextElement?_eq_some_iff (h : d.Sound) :
    d.nextElement? a = some b ↔ d.isElement b = true ∧ d.Neighbours a b := by
  rw [nextElement?, List.find?_eq_some_iff_append]
  refine and_congr_right fun _ => ?_
  constructor
  · rintro ⟨between, after, hsplit, hbetween⟩
    rcases h.siblings_cases a with ⟨-, hnone, -⟩ | ⟨p, front, behind, hc⟩
    · simp [hnone] at hsplit
    · rw [h.siblingsAfter_eq hc] at hsplit
      exact ⟨p, front, between, after, by rw [hc, hsplit], by simpa using hbetween⟩
  · rintro ⟨p, front, between, after, hc, hbetween⟩
    exact ⟨between, after, h.siblingsAfter_eq hc, by simpa using hbetween⟩

theorem Sound.previousElement?_eq_some_iff (h : d.Sound) :
    d.previousElement? b = some a ↔ d.isElement a = true ∧ d.Neighbours a b := by
  rw [previousElement?, List.find?_eq_some_iff_append]
  refine and_congr_right fun _ => ?_
  constructor
  · rintro ⟨between, front, hsplit, hbetween⟩
    rcases h.siblings_cases b with ⟨hnone, -⟩ | ⟨p, before, after, hc⟩
    · simp [hnone] at hsplit
    · -- The siblings in front are met in reverse order.
      rw [h.siblingsBefore_eq hc, List.reverse_eq_iff] at hsplit
      refine ⟨p, front.reverse, between.reverse, after, ?_, by simpa using hbetween⟩
      simp [hc, hsplit]
  · rintro ⟨p, front, between, after, hc, hbetween⟩
    refine ⟨between.reverse, front.reverse, ?_, by simpa using hbetween⟩
    have hb : d.children p = (front ++ a :: between) ++ b :: after := by simpa using hc
    rw [h.siblingsBefore_eq hb]
    simp

/-! ## All steps -/

/-- From the first element of the children that are left, the steps meet all elements that are left. -/
theorem Sound.iterate_nextElement? (h : d.Sound) (hc : d.children p = before ++ after) (k : Nat) :
    (fun e? => e?.bind d.nextElement?)^[k] (after.find? d.isElement) = (after.filter d.isElement)[k]? := by
  induction after generalizing before k with
  | nil =>
    induction k with
    | zero => rfl
    | succ k ih => rw [Function.iterate_succ_apply]; exact ih
  | cons c rest ih =>
    have hrest : d.children p = (before ++ [c]) ++ rest := by simpa using hc
    cases hel : d.isElement c with
    | false =>
      rw [List.find?_cons_of_neg (by simp [hel]), List.filter_cons_of_neg (by simp [hel])]
      exact ih hrest k
    | true =>
      rw [List.find?_cons_of_pos hel, List.filter_cons_of_pos hel]
      cases k with
      | zero => rfl
      | succ k =>
        have hnext : d.nextElement? c = rest.find? d.isElement := by
          rw [nextElement?, h.siblingsAfter_eq hc]
        rw [Function.iterate_succ_apply, Option.bind_some, hnext, ih hrest k]
        rfl

/-- In a sound document the `k`-th step from the first element child of a node leads to its `k`-th element child, and
behind the last one to none. One element is next to another one exactly if this one is previous to it, and both hold
exactly if nothing but other kinds of nodes stands between the two. Without a parent there is none in either direction.
No place among siblings is behind the last of them. -/
theorem sibling_steps_agree (h : d.Sound) :
    (∀ p k, (fun e? => e?.bind d.nextElement?)^[k] (d.firstElementChild? p) =
      ((d.children p).filter d.isElement)[k]?) ∧
    (∀ a b, d.isElement a = true → d.isElement b = true →
      (d.nextElement? a = some b ↔ d.previousElement? b = some a)) ∧
    (∀ a b, d.nextElement? a = some b ↔ d.isElement b = true ∧ d.Neighbours a b) ∧
    (∀ a b, d.previousElement? b = some a ↔ d.isElement a = true ∧ d.Neighbours a b) ∧
    (∀ i, d.parent i = none → d.nextElement? i = none ∧ d.previousElement? i = none) ∧
    ∀ i, (d.siblings i).2 ≤ (d.siblings i).1.length := by
  refine ⟨fun p k => ?_, fun a b ha hb => ?_, fun a b => h.nextElement?_eq_some_iff,
    fun a b => h.previousElement?_eq_some_iff, fun i hp => ?_, d.siblings_le⟩
  · have hall : d.children p = [] ++ d.children p := rfl
    exact h.iterate_nextElement? hall k
  · rw [h.nextElement?_eq_some_iff, h.previousElement?_eq_some_iff]
    simp [ha, hb]
  · rw [nextElement?, previousElement?, siblingsAfter, siblingsBefore, siblings_of_parent_eq_none hp]
    exact ⟨rfl, rfl⟩

/-- Two elements with a text and a comment between them. -/
theorem sibling_steps_agree_text :
    let d := parse "<i></i>x<!--c--><b></b>"
    d.Sound ∧ d.isElement 4 = true ∧ d.isElement 7 = true ∧ d.children 3 = [4, 5, 6, 7] ∧
      d.nextElement? 4 = some 7 ∧ d.previousElement? 7 = some 4 := by
  intro d
  have h : d.Sound := (wellFormed_parse _).sound
  have hel : d.isElement 4 = true ∧ d.isElement 7 = true := by decide +kernel
  have hcs : d.children 3 = [4, 5, 6, 7] ∧ d.isElement 5 = false ∧ d.isElement 6 = false := by decide +kernel
  obtain ⟨-, hagree, hnext, -⟩ := sibling_steps_agree h
  have h4 : d.nextElement? 4 = some 7 :=
    (hnext 4 7).mpr ⟨hel.2, 3, [], [5, 6], [], hcs.1, by simpa using hcs.2⟩
  exact ⟨h, hel.1, hel.2, hcs.1, h4, (hagree 4 7 hel.1 hel.2).mp h4⟩

end Hypertemplate.Document
