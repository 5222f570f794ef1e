import Hypertemplate.Html.Lexer

/-!
# The attributes of a tag

Whatever stands in a page, the attributes of each start tag that is cut from it have different names in small
letters (`wellNamed_lex`): capitals are made small as a name is read, and an attribute whose name is there already is
dropped.
-/

namespace Hypertemplate.Html

variable {attributes acc : List (String × String)} {cs rest : List Char} {t : Tag} {x : Token}

/-- Attributes with different names in small letters. -/
structure WellNamed (attributes : List (String × String)) : Prop where
  nodup : (attributes.map Prod.fst).Nodup
  small : ∀ a ∈ attributes, a.1.map Char.toLower = a.1

theorem wellNamed_nil : WellNamed [] := ⟨List.nodup_nil, nofun⟩

/-- A token whose attributes, if it is a start tag, are well named. -/
def Token.IsWellNamed : Token → Prop
  | .startTag t => WellNamed t.attributes
  | _ => True

/-! ## Names -/

theorem toLower_toLower (c : Char) : c.toLower.toLower = c.toLower := by
  unfold Char.toLower
  split
  · next h =>
    rw [dif_neg]
    simp only [ge_iff_le, UInt32.le_iff_toNat_le, UInt32.toNat_add] at h ⊢
    simp at h ⊢
    omega
  · rfl

theorem toLower_nameChar (c : Char) : (nameChar c).toLower = nameChar c := by
  rw [nameChar, visibleChar]
  split
  · decide
  · exact toLower_toLower c

theorem map_toLower_name (cs : List Char) :
    (String.ofList (cs.map nameChar)).map Char.toLower = String.ofList (cs.map nameChar) := by
  apply String.toList_injective
  rw [String.toList_map, String.toList_ofList, List.map_map]
  exact List.map_congr_left fun c _ => toLower_nameChar c

theorem WellNamed.addAttribute (h : WellNamed attributes) {name : String} (hname : name.map Char.toLower = name)
    (value : String) : WellNamed (addAttribute name value attributes) := by
  rw [Html.addAttribute]
  split
  · exact h
  · next hnew =>
    refine ⟨?_, fun a ha => ?_⟩
    · rw [List.map_append, List.nodup_append]
      refine ⟨h.nodup, by simp, fun k hk k' hk' heq => hnew ?_⟩
      obtain ⟨a, ha, rfl⟩ := List.mem_map.mp hk
      rw [List.map_singleton, List.mem_singleton] at hk'
      exact List.any_eq_true.mpr ⟨a, ha, beq_iff_eq.mpr (heq.trans hk')⟩
    · rcases List.mem_append.mp ha with ha | ha
      · exact h.small a ha
      · rw [List.mem_singleton.mp ha]
        exact hname

theorem WellNamed.attributes? {out : List (String × String)} {closes : Bool} (h : WellNamed acc)
    (hread : attributes? acc cs = some (out, closes, rest)) : WellNamed out := by
  fun_induction Html.attributes? acc cs with
  | case1 => cases hread
  | case2 acc c tail _ ih => exact ih h hread
  | case3 acc tail => cases hread; exact h
  | case4 acc tail => cases hread; exact h
  | case5 acc tail _ _ _ ih => exact ih h hread
  | case6 => cases hread
  | case7 acc c tail _ _ _ name value rest' _ ih => exact ih (h.addAttribute (map_toLower_name name) value) hread

theorem wellNamed_tag? (h : tag? cs = some (t, rest)) : WellNamed t.attributes := by
  obtain ⟨⟨attributes, closes, after⟩, hread, htag⟩ := Option.map_eq_some_iff.mp h
  obtain ⟨rfl, -⟩ := Prod.mk.inj htag
  exact wellNamed_nil.attributes? hread

/-! ## Tokens -/

theorem wellNamed_textToken (c : Char) : (textToken c).IsWellNamed := by
  unfold textToken
  split <;> trivial

theorem wellNamed_declaration (sections : Bool) (cs : List Char) :
    ∀ x ∈ (declaration sections cs).1, x.IsWellNamed := by
  have hcomment : ∀ text, ∀ x ∈ [Token.comment text], x.IsWellNamed := by simp [Token.IsWellNamed]
  unfold declaration
  split
  · exact hcomment _
  · split
    · simp [Token.IsWellNamed]
    · split
      · intro x hx
        obtain ⟨c, -, rfl⟩ := List.mem_map.mp hx
        exact wellNamed_textToken c
      · exact hcomment _

/-- Only what is cut as a tag is a start tag. -/
theorem wellNamed_markup (sections : Bool) (cs : List Char) : ∀ x ∈ (markup sections cs).1, x.IsWellNamed := by
  unfold markup
  grind [Token.IsWellNamed, wellNamed_declaration, wellNamed_tag?]

theorem wellNamed_endTagOf? {element : String} {tokens : List Token} (h : endTagOf? element cs = some (tokens, rest)) :
    ∀ x ∈ tokens, x.IsWellNamed := by
  unfold endTagOf? at h
  grind [Token.IsWellNamed]

theorem wellNamed_scriptMarkup (part : ScriptPart) (cs : List Char) :
    ∀ x ∈ (scriptMarkup part cs).tokens, x.IsWellNamed := by
  unfold scriptMarkup
  grind [Token.IsWellNamed, wellNamed_endTagOf?]

theorem wellNamed_lex (mode : ReadMode) (sections : Bool) (c : Char) (rest : List Char) :
    ∀ x ∈ (lex mode sections c rest).tokens, x.IsWellNamed := by
  have hraw : ∀ c, (rawToken c).IsWellNamed := fun _ => trivial
  have hscript : ∀ part c, (scriptChar part c).tokens = [rawToken c] := fun _ _ => rfl
  unfold lex
  grind [Token.IsWellNamed, wellNamed_markup, wellNamed_endTagOf?, wellNamed_scriptMarkup, wellNamed_textToken]

end Hypertemplate.Html
