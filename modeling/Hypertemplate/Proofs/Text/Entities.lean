import Hypertemplate.Text.Blank
import Mathlib

/-!
# Entities

Characters with a meaning in markup are written as entities, each after an ampersand, which is written as an entity
itself. They can be replaced one after the other: what is written for a character has none of those that come after
it, so that no replacement takes a part of an entity for a part of the text (`Entities.replaceInTurn_eq_write`). An
ampersand of the result starts an entity, and no entity starts another one, so that the text can be read back
(`Entities.ampersand_starts`, `Entities.restore_write`).
-/

namespace Hypertemplate.Text

/-! ## Replacing a character -/

section Replace

open String.Slice String.Slice.Pattern String.Slice.Pattern.Model

/-- The characters of a part of a text are those at the places of the part. -/
theorem exists_get_of_mem_slice {s : String.Slice} {start stop : s.Pos} {h : start ≤ stop} {c : Char}
    (hc : c ∈ (s.slice start stop h).copy.toList) : ∃ p, start ≤ p ∧ p < stop ∧ ∃ hp, p.get hp = c := by
  obtain ⟨p, hp, hget⟩ := mem_toList_copy_iff_exists_get.mp hc
  have hlt := Pos.ofSlice_lt_ofSlice_iff.mpr ((Pos.lt_endPos_iff p).mpr hp)
  rw [Pos.ofSlice_endPos] at hlt
  exact ⟨Pos.ofSlice p, Pos.le_ofSlice, hlt, Pos.ofSlice_ne_endPos hp, Pos.get_eq_get_ofSlice.symm.trans hget⟩

/-- A character with another text in its place. -/
def exchanged (c : Char) (r : String) (x : Char) : List Char := if x = c then r.toList else [x]

theorem flatMap_exchanged_of_not_mem {c : Char} {r : String} {cs : List Char} (h : c ∉ cs) :
    cs.flatMap (exchanged c r) = cs :=
  (List.flatMap_congr fun _ hx => if_neg (ne_of_mem_of_not_mem hx h)).trans (List.flatMap_singleton' cs)

/-- Putting the parts of a text together again, those where a character was found exchanged. The induction is on the
parts that are left; `u` is the text that they make up. -/
theorem toList_foldl_of_isValidSearchFrom {s : String.Slice} {c : Char} {pos : s.Pos} {steps : List (SearchStep s)}
    (r : String) (h : IsValidSearchFrom c pos steps) : ∀ {t u : String} (sofar : String), pos.Splits t u →
      (steps.foldl (fun
        | sofar, .matched .. => sofar ++ String.ToSlice.toSlice r
        | sofar, .rejected start stop => sofar ++ s.slice! start stop) sofar).toList =
      sofar.toList ++ u.toList.flatMap (exchanged c r) := by
  induction h with
  | endPos =>
    intro t u sofar hs
    simp [hs.eq_endPos_iff.mp rfl]
  | matched hmatch _ ih =>
    intro t u sofar hs
    obtain ⟨hne, rfl, rfl⟩ := Char.isLongestMatchAt_iff.mp hmatch
    obtain ⟨v, rfl⟩ := hs.exists_eq_singleton_append hne
    rw [List.foldl_cons, ih _ hs.next]
    simp [exchanged, String.appendSlice_eq, String.ToSlice.toSlice]
  | @mismatched _ start stop hlt hrejected _ ih =>
    intro t u sofar hs
    have hle := Std.le_of_lt hlt
    obtain ⟨t', v, hstart, hstop⟩ := copy_slice_eq_iff_splits.mp ⟨hle, rfl⟩
    obtain rfl := hs.eq_right hstart
    have hplain : c ∉ (s.slice start stop hle).copy.toList := by
      intro hc
      obtain ⟨p, hp, hps, hpe, hget⟩ := exists_get_of_mem_slice hc
      exact hrejected p hp hps (Char.matchesAt_iff.mpr ⟨hpe, hget⟩)
    rw [List.foldl_cons, ih _ hstop]
    simp [String.appendSlice_eq, ← @slice_eq_slice! _ _ _ hle, flatMap_exchanged_of_not_mem hplain]

theorem toList_replace_char (s : String) (c : Char) (r : String) :
    (s.replace c r).toList = s.toList.flatMap (exchanged c r) := by
  have hvalid : IsValidSearchFrom c s.toSlice.startPos (ToForwardSearcher.toSearcher c s.toSlice).toList :=
    LawfulToForwardSearcherModel.isValidSearchFrom_toList s.toSlice
  have hs : s.toSlice.startPos.Splits "" s := by simp
  rw [String.replace, String.Slice.replace, ← Std.Iter.foldl_toList]
  exact toList_foldl_of_isValidSearchFrom r hvalid "" hs

end Replace

/-! ## Writing entities -/

section Written

variable {c : Char} {cs : List Char} {es : List (Char × String)}

/-- The written form of a character: its entity, if it has one. -/
def written (es : List (Char × String)) (c : Char) : List Char := ((es.lookup c).map String.toList).getD [c]

theorem written_cases (es : List (Char × String)) (c : Char) :
    (∃ e ∈ es, e.1 = c ∧ written es c = e.2.toList) ∨ (∀ e ∈ es, e.1 ≠ c) ∧ written es c = [c] := by
  unfold written
  cases hc : es.lookup c with
  | none =>
    refine Or.inr ⟨fun e he heq => ?_, rfl⟩
    simpa [heq] using List.lookup_eq_none_iff.mp hc e he
  | some r =>
    obtain ⟨before, after, rfl, -⟩ := List.lookup_eq_some_iff.mp hc
    exact Or.inl ⟨(c, r), by simp, rfl, rfl⟩

theorem written_cons (e : Char × String) (es : List (Char × String)) (c : Char) :
    written (e :: es) c = if c = e.1 then e.2.toList else written es c := by
  by_cases hc : c = e.1 <;> simp [written, List.lookup, hc, beq_eq_false_iff_ne.mpr]

theorem written_of_forall_ne (h : ∀ e ∈ es, e.1 ≠ c) : written es c = [c] := by
  rcases written_cases es c with ⟨e, he, hc, -⟩ | ⟨-, hw⟩
  · exact absurd hc (h e he)
  · exact hw

theorem flatMap_written_of_forall_not_mem (h : ∀ e ∈ es, e.1 ∉ cs) : cs.flatMap (written es) = cs := by
  have hsame : ∀ c ∈ cs, written es c = [c] := fun c hc =>
    written_of_forall_ne fun e he heq => h e he (heq ▸ hc)
  rw [List.flatMap_congr hsame, List.flatMap_singleton']

/-- Replacing character after character is replacing all of them at once, if no entity has a character that is
replaced later. -/
theorem toList_foldl_replace (h : es.Pairwise fun e f => f.1 ∉ e.2.toList) (t : String) :
    (es.foldl (fun t e => t.replace e.1 e.2) t).toList = t.toList.flatMap (written es) := by
  induction es generalizing t with
  | nil => exact (flatMap_written_of_forall_not_mem (by simp)).symm
  | cons e rest ih =>
    obtain ⟨hlater, hrest⟩ := List.pairwise_cons.mp h
    rw [List.foldl_cons, ih hrest, toList_replace_char, List.flatMap_assoc]
    refine List.flatMap_congr fun x _ => ?_
    rw [written_cons, exchanged]
    split
    · exact flatMap_written_of_forall_not_mem hlater
    · exact List.flatMap_singleton _ _

end Written

/-! ## Reading entities -/

/-- Reading entities back: at an entity its character is read and the reading goes on after it, all entities being
looked for at once. -/
def readBack (es : List (Char × String)) : List Char → List Char
  | [] => []
  | c :: rest =>
    match es.find? fun e => e.2.toList <+: c :: rest with
    | some e => e.1 :: readBack es (rest.drop (e.2.length - 1))
    | none => c :: readBack es rest
termination_by cs => cs.length

/-- Characters that are written as entities, in the order in which they are replaced. -/
structure Entities where
  list : List (Char × String)
  /-- The ampersand is one of the characters. -/
  escapes_ampersand : ∃ e ∈ list, e.1 = '&'
  /-- An entity starts with an ampersand and has no other one. -/
  starts : ∀ e ∈ list, e.2.toList.head? = some '&' ∧ '&' ∉ e.2.toList.tail
  /-- No entity has a character that is replaced later. -/
  in_order : list.Pairwise fun e f => f.1 ∉ e.2.toList
  /-- No entity starts another one. -/
  apart : ∀ e ∈ list, ∀ f ∈ list, e.2.toList <+: f.2.toList → e = f

namespace Entities

variable {E : Entities} {c : Char} {e : Char × String}

/-- A text with all its characters written at once. -/
def write (E : Entities) (t : String) : String := String.ofList (t.toList.flatMap (written E.list))

/-- A text with character after character replaced. -/
def replaceInTurn (E : Entities) (t : String) : String := E.list.foldl (fun t e => t.replace e.1 e.2) t

def restore (E : Entities) (t : String) : String := String.ofList (readBack E.list t.toList)

theorem replaceInTurn_eq_write (E : Entities) (t : String) : E.replaceInTurn t = E.write t := by
  rw [← String.toList_inj, replaceInTurn, toList_foldl_replace E.in_order, write, String.toList_ofList]

/-- An entity without its ampersand. -/
theorem exists_name (he : e ∈ E.list) : ∃ name, e.2.toList = '&' :: name ∧ '&' ∉ name := by
  obtain ⟨hhead, htail⟩ := E.starts e he
  exact ⟨_, (List.cons_head?_tail hhead).symm, htail⟩

/-- A character that is in no entity and has one is nowhere in a written text. -/
theorem not_mem_write (hc : ∃ e ∈ E.list, e.1 = c) (hnone : ∀ e ∈ E.list, c ∉ e.2.toList) (t : String) :
    c ∉ (E.write t).toList := by
  rw [write, String.toList_ofList, List.mem_flatMap]
  rintro ⟨x, -, hx⟩
  rcases written_cases E.list x with ⟨e, he, -, hw⟩ | ⟨hne, hw⟩
  · exact hnone e he (hw ▸ hx)
  · obtain ⟨e, he, rfl⟩ := hc
    rw [hw, List.mem_singleton] at hx
    exact hne e he hx

theorem suffix_of_not_mem {c : Char} {name rest after : List Char} (h : c ∉ name)
    (hs : c :: after <:+ name ++ rest) : c :: after <:+ rest := by
  induction name with
  | nil => exact hs
  | cons x name ih =>
    rw [List.cons_append, List.suffix_cons_iff] at hs
    rcases hs with hs | hs
    · exact absurd (List.cons.inj hs).1 (List.ne_of_not_mem_cons h)
    · exact ih (List.not_mem_of_not_mem_cons h) hs

/-- Each ampersand of a written text starts an entity. -/
theorem ampersand_starts (E : Entities) (t : String) {after : List Char}
    (h : '&' :: after <:+ (E.write t).toList) : ∃ e ∈ E.list, e.2.toList <+: '&' :: after := by
  rw [write, String.toList_ofList] at h
  generalize t.toList = cs at h
  induction cs with
  | nil => simp at h
  | cons x cs ih =>
    rw [List.flatMap_cons] at h
    rcases written_cases E.list x with ⟨e, he, -, hw⟩ | ⟨hne, hw⟩
    · obtain ⟨name, hname, hnot⟩ := exists_name he
      rw [hw, hname, List.cons_append, List.suffix_cons_iff] at h
      rcases h with h | h
      · exact ⟨e, he, by rw [h, hname, ← List.cons_append]; exact List.prefix_append _ _⟩
      · exact ih (suffix_of_not_mem hnot h)
    · rw [hw, List.singleton_append, List.suffix_cons_iff] at h
      rcases h with h | h
      · obtain ⟨e, he, hamp⟩ := E.escapes_ampersand
        exact absurd (hamp.trans (List.cons.inj h).1) (hne e he)
      · exact ih h

/-- At a written character this character is read. -/
theorem readBack_written_append (E : Entities) (c : Char) (rest : List Char) :
    readBack E.list (written E.list c ++ rest) = c :: readBack E.list rest := by
  rcases written_cases E.list c with ⟨e, he, rfl, hw⟩ | ⟨hne, hw⟩
  · obtain ⟨name, hname, -⟩ := exists_name he
    have hstarts : e.2.toList <+: '&' :: (name ++ rest) := by
      rw [hname, ← List.cons_append]
      exact List.prefix_append _ _
    -- Another entity cannot stand here: one of the two would start the other one.
    have hfind : E.list.find? (fun f => f.2.toList <+: '&' :: (name ++ rest)) = some e := by
      cases hf : E.list.find? fun f => f.2.toList <+: '&' :: (name ++ rest) with
      | none => exact absurd (decide_eq_true hstarts) (List.find?_eq_none.mp hf e he)
      | some f =>
        have hmem := List.mem_of_find?_eq_some hf
        have hpre := List.find?_some hf
        rw [decide_eq_true_iff] at hpre
        rw [Option.some_inj]
        rcases List.prefix_or_prefix_of_prefix hpre hstarts with h | h
        · exact E.apart f hmem e he h
        · exact (E.apart e he f hmem h).symm
    have hlength : e.2.length - 1 = name.length := by
      rw [← String.length_toList, hname, List.length_cons, Nat.add_sub_cancel]
    rw [hw, hname, List.cons_append, readBack, hfind]
    simp only [hlength, List.drop_left]
  · have hfind : E.list.find? (fun f => f.2.toList <+: c :: rest) = none := by
      rw [List.find?_eq_none]
      intro f hf hpre
      obtain ⟨name, hname, -⟩ := exists_name hf
      obtain ⟨e, he, hamp⟩ := E.escapes_ampersand
      rw [decide_eq_true_iff, hname] at hpre
      exact hne e he (hamp.trans (List.cons_prefix_cons.mp hpre).1)
    rw [hw, List.singleton_append, readBack, hfind]

theorem restore_write (E : Entities) (t : String) : E.restore (E.write t) = t := by
  have hread : ∀ cs, readBack E.list (cs.flatMap (written E.list)) = cs := by
    intro cs
    induction cs with
    | nil => rw [List.flatMap_nil, readBack]
    | cons c cs ih => rw [List.flatMap_cons, readBack_written_append, ih]
  rw [restore, write, String.toList_ofList, hread, String.ofList_toList]

end Entities

end Hypertemplate.Text
