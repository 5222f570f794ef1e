import Hypertemplate.Html.Parse
import Hypertemplate.Proofs.Html.TagNames
import Mathlib.Data.List.Nodup

/-!
# Attributes that are kept apart

No two attributes of an element of a draft have both family and name alike, and the elements of the page's own
vocabulary have no families (`Draft.Keyed`). The attributes of a tag are such attributes in every vocabulary
(`keyed_draftAttributes`), and what is done to a draft keeps them apart.
-/

namespace Hypertemplate.Html

variable {attributes : List (String × String)}

/-! ## One element -/

/-- An element no two attributes of which have both family and name alike, and none of which has a family if the
element is one of the page's own vocabulary. -/
def DraftKind.Keyed : DraftKind → Prop
  | .element vocabulary _ attributes =>
    (attributes.map fun a => (a.family, a.name)).Nodup ∧ (vocabulary = .html → ∀ a ∈ attributes, a.family = none)
  | _ => True

/-- The name with which an attribute was written in a tag. -/
def writtenName : Option String × String → String
  | (none, name) => name
  | (some "", name) => name
  | (some family, name) => family ++ ":" ++ name

theorem writtenName_familyOf (name : String) : writtenName (familyOf name) = name := by
  unfold familyOf
  split
  · next h =>
    simp only [List.contains_eq_mem, List.mem_cons, List.not_mem_nil, or_false, decide_eq_true_eq] at h
    rcases h with rfl | rfl | rfl | rfl | rfl | rfl | rfl <;> decide
  · -- The other names are single ones, and what is none of them has no family.
    split
    · next h => subst h; decide
    split
    · next h => subst h; decide
    split
    · next h => subst h; decide
    split
    · next h => subst h; decide
    rfl

theorem map_toLower_attributeName (vocabulary : Vocabulary) {name : String} (h : name.map Char.toLower = name) :
    (attributeName vocabulary name).map Char.toLower = name := by
  cases vocabulary with
  | html => exact h
  | math =>
    rw [attributeName]
    split
    · next he => rw [he]; decide +kernel
    · exact h
  | svg =>
    rw [attributeName]
    cases hfind : drawingAttributes.find? fun n => n.map Char.toLower == name with
    | none => exact h
    | some n =>
      have hn := List.find?_some hfind
      exact eq_of_beq hn

/-- The attributes of a tag are kept apart whatever vocabulary the element belongs to. -/
theorem keyed_draftAttributes (h : WellNamed attributes) (vocabulary : Vocabulary) (name : String) :
    (DraftKind.element vocabulary name (draftAttributes vocabulary attributes)).Keyed := by
  -- Families and names of a foreign element tell the names in the tag.
  have hforeign : ∀ v : Vocabulary, (attributes.map fun a => familyOf (attributeName v a.1)).Nodup := by
    intro v
    refine List.Nodup.of_map (fun key => (writtenName key).map Char.toLower) ?_
    rw [List.map_map]
    have hnames : attributes.map ((fun key => (writtenName key).map Char.toLower) ∘
        fun a => familyOf (attributeName v a.1)) = attributes.map Prod.fst := by
      refine List.map_congr_left fun a ha => ?_
      rw [Function.comp_apply, writtenName_familyOf, map_toLower_attributeName v (h.small a ha)]
    rw [hnames]
    exact h.nodup
  refine ⟨?_, ?_⟩
  · cases vocabulary with
    | html =>
      refine List.Nodup.of_map Prod.snd ?_
      simpa [draftAttributes, Function.comp_def] using h.nodup
    | svg => simpa [draftAttributes, Function.comp_def] using hforeign .svg
    | math => simpa [draftAttributes, Function.comp_def] using hforeign .math
  · rintro rfl a ha
    obtain ⟨a, -, rfl⟩ := List.mem_map.mp ha
    rfl

/-! ## The draft -/

/-- A draft whose elements keep their attributes apart. -/
structure Draft.Keyed (t : Draft) : Prop where
  node : ∀ i, (t.node i).kind.Keyed

namespace Draft

variable {t : Draft} {f : DraftNode → DraftNode}

theorem node_modifyNode (t : Draft) (i : Nat) (f : DraftNode → DraftNode) (j : Nat) :
    (t.modifyNode i f).node j = if i = j ∧ j < t.size then f (t.node j) else t.node j := by
  simp only [node, modifyNode, Array.getD_eq_getD_getElem?, Array.getElem?_modify]
  by_cases hj : j < t.size
  · by_cases hij : i = j <;> simp [hj, hij]
  · rw [Array.getElem?_eq_none (Nat.not_lt.mp hj)]
    simp [hj]

theorem node_create (t : Draft) (kind : DraftKind) (j : Nat) :
    (t.create kind).2.node j = if j = t.size then { kind } else t.node j := by
  simp only [node, create, Array.getD_eq_getD_getElem?, Array.getElem?_push]
  split <;> rfl

theorem keyed_start : start.Keyed := by
  refine ⟨fun i => ?_⟩
  cases i with
  | zero => trivial
  | succ i => trivial

theorem Keyed.modifyNode (h : t.Keyed) (i : Nat) (hf : ∀ n : DraftNode, n.kind.Keyed → (f n).kind.Keyed) :
    (t.modifyNode i f).Keyed := by
  refine ⟨fun j => ?_⟩
  rw [node_modifyNode]
  split
  · exact hf _ (h.node j)
  · exact h.node j

/-- A change that leaves the nodes what they are. -/
theorem Keyed.relink (h : t.Keyed) (i : Nat) (hf : ∀ n : DraftNode, (f n).kind = n.kind) :
    (t.modifyNode i f).Keyed := by
  refine h.modifyNode i fun n hn => ?_
  rw [hf]
  exact hn

theorem Keyed.create (h : t.Keyed) (kind : DraftKind) (hk : kind.Keyed) : (t.create kind).2.Keyed := by
  refine ⟨fun j => ?_⟩
  rw [node_create]
  split
  · exact hk
  · exact h.node j

theorem Keyed.detach (h : t.Keyed) (i : Nat) : (t.detach i).Keyed := by
  unfold Draft.detach
  split
  · exact h
  · refine Keyed.relink (h.relink i ?_) _ ?_
    · exact fun _ => rfl
    · exact fun _ => rfl

theorem Keyed.setParent (h : t.Keyed) (i p : Nat) : (t.setParent i p).Keyed := by
  unfold Draft.setParent
  exact h.relink i fun _ => rfl

theorem Keyed.append (h : t.Keyed) (parent child : Nat) : (t.append parent child).Keyed := by
  unfold Draft.append
  refine Keyed.relink ((h.detach child).setParent child parent) parent ?_
  exact fun _ => rfl

theorem Keyed.insertBefore (h : t.Keyed) (sibling new : Nat) : (t.insertBefore sibling new).Keyed := by
  unfold Draft.insertBefore
  dsimp only
  split
  · exact h.detach new
  · next p _ =>
    refine Keyed.relink ((h.detach new).setParent new p) p ?_
    exact fun _ => rfl

theorem Keyed.joinText? {t' : Draft} {i : Nat} {text : String} (h : t.Keyed) (hjoin : t.joinText? i text = some t') :
    t'.Keyed := by
  unfold Draft.joinText? at hjoin
  split at hjoin
  · obtain rfl := Option.some.inj hjoin
    exact h.modifyNode i fun _ _ => trivial
  · cases hjoin

theorem Keyed.appendText (h : t.Keyed) (parent : Nat) (text : String) : (t.appendText parent text).Keyed := by
  unfold Draft.appendText
  split
  · next hjoin =>
    obtain ⟨i, -, hi⟩ := Option.bind_eq_some_iff.mp hjoin
    exact h.joinText? hi
  · exact (h.create (.text text) trivial).append _ _

theorem Keyed.insertTextBefore (h : t.Keyed) (sibling : Nat) (text : String) :
    (t.insertTextBefore sibling text).Keyed := by
  unfold Draft.insertTextBefore
  split
  · exact h
  · dsimp only
    split
    · next hjoin =>
      obtain ⟨i, -, hi⟩ := Option.bind_eq_some_iff.mp hjoin
      exact h.joinText? hi
    · exact (h.create (.text text) trivial).insertBefore _ _

theorem Keyed.moveChildren (h : t.Keyed) (source target : Nat) : (t.moveChildren source target).Keyed :=
  List.foldlRecOn _ _ h fun _ hu c _ => hu.append target c

/-- Attributes that are added have no family, and names that the element has without family are left out. -/
theorem Keyed.addMissingAttributes (h : t.Keyed) (i : Nat) (ha : WellNamed attributes) :
    (t.addMissingAttributes i attributes).Keyed := by
  refine h.modifyNode i fun n hn => ?_
  split
  · next vocabulary name old hk =>
    rw [hk] at hn
    refine ⟨?_, fun hv a hmem => ?_⟩
    · rw [List.map_append, List.map_map, List.nodup_append]
      refine ⟨hn.1, ?_, fun key hold key' hnew heq => ?_⟩
      · refine List.Nodup.of_map Prod.snd ?_
        rw [List.map_map]
        exact ha.nodup.sublist (List.filter_sublist.map _)
      · obtain ⟨a, hmem, rfl⟩ := List.mem_map.mp hold
        obtain ⟨⟨k, value⟩, hmissing, rfl⟩ := List.mem_map.mp hnew
        obtain ⟨hfamily, rfl⟩ := Prod.mk.inj heq
        have hno := (List.mem_filter.mp hmissing).2
        rw [Bool.not_eq_true', List.any_eq_false] at hno
        exact hno a hmem (by simp [hfamily])
    · rcases List.mem_append.mp hmem with hmem | hmem
      · exact hn.2 hv a hmem
      · obtain ⟨a, -, rfl⟩ := List.mem_map.mp hmem
        rfl
  · exact hn

end Draft

end Hypertemplate.Html
