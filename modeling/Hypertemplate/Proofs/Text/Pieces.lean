import Hypertemplate.Text.Blank
import Mathlib

/-!
# Pieces and ends of texts

Pieces that are joined with a character that is in none of them are what the text is cut into at this character
(`splitOnChar_intercalate`). A text that was trimmed has nothing more to trim, and neither trimming nor capitals
make a text blank or take its blanks away (`trim_trim`, `allBlank_trim`, `trim_upperAscii`).
-/

namespace Hypertemplate.Text

variable {c : Char} {sep s : String} {pieces : List String}

/-! ## Cutting what was joined -/

theorem splitOnChar_append (hsep : sep.toList = [c]) (a b : String) :
    splitOnChar c (a ++ sep ++ b) = splitOnChar c a ++ splitOnChar c b := by
  have htext : (a ++ sep ++ b).toList = a.toList ++ c :: b.toList := by simp [hsep]
  rw [splitOnChar, htext, splitBy_append_cons _ (by simp), List.map_append]
  rfl

theorem splitOnChar_of_not_mem (h : c ∉ s.toList) : splitOnChar c s = [s] := by
  have hsplit : splitBy (· == c) s.toList = [s.toList] :=
    splitBy_eq_singleton fun x hx => beq_eq_false_iff_ne.mpr fun he => h (he ▸ hx)
  rw [splitOnChar, hsplit, List.map_singleton, String.ofList_toList]

theorem splitOnChar_intercalate (hsep : sep.toList = [c]) (hne : pieces ≠ [])
    (h : ∀ s ∈ pieces, c ∉ s.toList) : splitOnChar c (sep.intercalate pieces) = pieces := by
  induction pieces with
  | nil => exact absurd rfl hne
  | cons s rest ih =>
    have hs := splitOnChar_of_not_mem (h s List.mem_cons_self)
    cases rest with
    | nil => rw [String.intercalate_singleton, hs]
    | cons t rest =>
      rw [String.intercalate_cons_cons, splitOnChar_append hsep, hs,
        ih (List.cons_ne_nil _ _) fun u hu => h u (List.mem_cons_of_mem _ hu)]
      rfl

/-! ## Trimming -/

theorem trimChars_eq (cs : List Char) : trimChars cs = (cs.dropWhile isBlank).rdropWhile isBlank := rfl

theorem trimChars_eq_nil_iff {cs : List Char} : trimChars cs = [] ↔ ∀ x ∈ cs, isBlank x = true := by
  rw [trimChars_eq, List.rdropWhile_eq_nil_iff]
  constructor
  · intro h x hx
    rw [← List.takeWhile_append_dropWhile (p := isBlank) (l := cs), List.mem_append] at hx
    rcases hx with hx | hx
    · exact List.mem_takeWhile_imp hx
    · exact h x hx
  · intro h x hx
    exact h x ((List.dropWhile_sublist _).subset hx)

theorem trimChars_trimChars (cs : List Char) : trimChars (trimChars cs) = trimChars cs := by
  -- The first character that is left by trimming in front stays in front.
  have hfront : (trimChars cs).dropWhile isBlank = trimChars cs := by
    rw [List.dropWhile_eq_self_iff]
    intro hpos
    have hpre : trimChars cs <+: cs.dropWhile isBlank := List.rdropWhile_prefix isBlank _
    rw [hpre.getElem hpos]
    exact List.dropWhile_get_zero_not isBlank cs (Nat.lt_of_lt_of_le hpos hpre.length_le)
  rw [trimChars_eq (trimChars cs), hfront, trimChars_eq, List.rdropWhile_idempotent]

theorem trim_trim (s : String) : trim (trim s) = trim s := by
  rw [trim, trim, String.toList_ofList, trimChars_trimChars]

theorem allBlank_iff_trim : allBlank s = true ↔ trim s = "" := by
  rw [allBlank, List.all_eq_true, ← trimChars_eq_nil_iff, trim, ← String.toList_inj, String.toList_ofList]
  rfl

/-- Trimming makes no text blank that was not. -/
theorem allBlank_trim (s : String) : allBlank (trim s) = allBlank s := by
  rw [Bool.eq_iff_iff, allBlank_iff_trim, allBlank_iff_trim, trim_trim]

/-! ## Capitals -/

theorem isBlank_toUpper (x : Char) : isBlank x.toUpper = isBlank x := by
  by_cases hx : x.isLower = true
  · have hrange : 97 ≤ x.toNat ∧ x.toNat ≤ 122 := by
      simp only [Char.isLower, ge_iff_le, Bool.and_eq_true, decide_eq_true_eq, UInt32.le_iff_toNat_le] at hx
      exact hx
    have hvalid : (x.toNat - 32).isValidChar := Or.inl (by omega)
    have hupper : x.toUpper.toNat = x.toNat - 32 := by
      rw [Char.toUpper_eq_of_isLower hx, Char.toNat_ofNat, if_pos hvalid]
    have hno : ∀ y : Char, 65 ≤ y.toNat → y.toNat ≤ 122 → isBlank y = false := by
      intro y hlow hhigh
      simp [isBlank]
      omega
    rw [hno x (by omega) (by omega), hno x.toUpper (by omega) (by omega)]
  · rw [Char.toUpper_eq_of_not_isLower hx]

theorem isBlank_comp_toUpper : isBlank ∘ Char.toUpper = isBlank := funext isBlank_toUpper

theorem trim_upperAscii (s : String) : trim (upperAscii s) = upperAscii (trim s) := by
  have hmap : ∀ cs : List Char, trimChars (cs.map Char.toUpper) = (trimChars cs).map Char.toUpper := by
    intro cs
    rw [trimChars, trimChars, List.dropWhile_map, isBlank_comp_toUpper, ← List.map_reverse, List.dropWhile_map,
      isBlank_comp_toUpper, ← List.map_reverse]
  rw [trim, trim, upperAscii, upperAscii, String.toList_ofList, String.toList_ofList, hmap]

theorem allBlank_upperAscii (s : String) : allBlank (upperAscii s) = allBlank s := by
  rw [allBlank, upperAscii, String.toList_ofList, List.all_map, isBlank_comp_toUpper, allBlank]

theorem upperAscii_upperAscii (s : String) : upperAscii (upperAscii s) = upperAscii s := by
  have hup : Char.toUpper ∘ Char.toUpper = Char.toUpper := funext Char.toUpper_toUpper_eq_toUpper
  rw [upperAscii, upperAscii, String.toList_ofList, List.map_map, hup]

end Hypertemplate.Text
