import Hypertemplate.Proofs.Template.Scanner

/-!
# Replacing placeholders in one pass

`replaced` walks once over a text: it puts the shown text of a value in the place of each placeholder that the
scanner finds and goes on behind it, so that no value is looked at for placeholders. `resolve?` gives this text
for every text and item, and gives the text back itself just if it has no placeholder at all
(`resolve?_one_pass`).
-/

namespace Hypertemplate.Template

open Json

/-- A text with its placeholders replaced. -/
def replaced (item : Value) : List Char → List Char
  | [] => []
  | c :: rest =>
    match _h : placeholderAt? (c :: rest) with
    | some (path, after) =>
      (((item.lookup (String.ofList path)).map displayText).getD "").toList ++ replaced item after
    | none => c :: replaced item rest
termination_by cs => cs.length
decreasing_by
  · exact placeholderAt?_length _h
  · simp

/-- The filled tokens of a text, one after the other. -/
theorem join_fill_scan (item : Value) (cs : List Char) :
    String.join ((scan cs).map (Token.fill item)) = String.ofList (replaced item cs) := by
  have hcons : ∀ (c : Char) (ts : List Token), String.join ((consLiteral c ts).map (Token.fill item)) =
      String.ofList [c] ++ String.join (ts.map (Token.fill item)) := by
    intro c ts
    cases ts with
    | nil => simp [consLiteral, Token.fill]
    | cons t rest =>
      cases t with
      | literal cs =>
        simp only [consLiteral, List.map_cons, Token.fill, String.join_cons]
        rw [← String.append_assoc, ← String.ofList_append]
        rfl
      | placeholder path => simp [consLiteral, Token.fill]
  fun_induction replaced item cs with
  | case1 => rw [scan]; rfl
  | case2 c rest path after h ih =>
    rw [scan_placeholder h, List.map_cons, String.join_cons, ih, String.ofList_append, String.ofList_toList]
    rfl
  | case3 c rest h ih =>
    rw [scan_literal h, hcons, ih, ← String.ofList_append]
    rfl

/-- The scanner finds a placeholder if there is one anywhere: either it comes to the place, or it has found one that
reaches over it. -/
theorem any_isPlaceholder_scan_iff (cs : List Char) : (scan cs).any Token.isPlaceholder = true ↔
    ∃ before path after, cs = before ++ '$' :: '\x7b' :: (path ++ '\x7d' :: after) ∧ path ≠ [] ∧
      '\x7d' ∉ path := by
  have hcons : ∀ (c : Char) (ts : List Token),
      (consLiteral c ts).any Token.isPlaceholder = ts.any Token.isPlaceholder := by
    intro c ts
    cases ts with
    | nil => rfl
    | cons t rest => cases t <;> rfl
  fun_induction scan cs with
  | case1 => simp
  | case2 c rest path after h ih =>
    obtain ⟨hcs, hne, hmem⟩ := placeholderAt?_eq_some_iff.mp h
    exact iff_of_true rfl ⟨[], path, after, hcs, hne, hmem⟩
  | case3 c rest h ih =>
    rw [hcons]
    refine Iff.trans ih ⟨?_, ?_⟩
    · rintro ⟨before, path, after, rfl, hpath⟩
      exact ⟨c :: before, path, after, rfl, hpath⟩
    · rintro ⟨before, path, after, hcs, hne, hmem⟩
      cases before with
      | nil =>
        rw [placeholderAt?_eq_some_iff.mpr ⟨hcs, hne, hmem⟩] at h
        cases h
      | cons c' before => exact ⟨before, path, after, (List.cons.inj hcs).2, hne, hmem⟩

/-- Replacing the placeholders of a text never fails and takes one pass over the text, also where it is cut short
because there is no opening or no placeholder. The text itself is given back just if no placeholder is in it. -/
theorem resolve?_one_pass (text : String) (item : Value) :
    let result := String.ofList (replaced item text.toList)
    (resolve? text item).map (Resolved.text text) = some result ∧
    ((tokenize text).mapM (Piece.fill? text.toList item)).map String.join = some result ∧
    (resolve? text item = some .borrowed ↔ ¬ ∃ before path after,
      text.toList = before ++ '$' :: '\x7b' :: (path ++ '\x7d' :: after) ∧ path ≠ [] ∧ '\x7d' ∉ path) := by
  intro result
  have hresult : substitute text item = result := by rw [substitute, tokens_eq_scan, join_fill_scan]
  refine ⟨?_, ?_, ?_⟩
  · rw [resolve?_eq, Option.map_some, ← hresult]
    cases h : hasPlaceholder text with
    | true => rfl
    | false => rw [substitute_of_not_hasPlaceholder h]; rfl
  · rw [mapM_fill?_tokenize, Option.map_some, ← hresult]
    rfl
  · rw [← any_isPlaceholder_scan_iff, ← tokens_eq_scan, resolve?_eq]
    change _ ↔ ¬ hasPlaceholder text = true
    cases hasPlaceholder text <;> simp

/-- A value that looks like a placeholder stays as it is. -/
example : resolve? "[$\x7ba\x7d]" (.object [("a", .string "$\x7bb\x7d"), ("b", .string "c")]) =
    some (.owned "[$\x7bb\x7d]") := by decide +kernel

end Hypertemplate.Template
