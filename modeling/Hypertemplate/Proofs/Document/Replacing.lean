import Hypertemplate.Proofs.Document.Markup
import Hypertemplate.Proofs.Html.Settle

/-!
# Putting nodes in another one's place

What goes in is taken from where it is: from among the siblings of the node that it replaces, from below that
node, or from elsewhere. Taking it out can move the node within its parent, and it takes the node itself out if
the node is what goes in. Otherwise one equation says what every node is afterwards (`Sound.node_replaceWith`):
the lists of children lose what goes in, and the parent has it in the place of the node (`replaceWith_splices`).
-/

namespace Hypertemplate.Document

variable {d d' : Document} {b c i j p q r : NodeId} {is before after : List NodeId}

/-! ## What goes in -/

/-- The nodes that go in when `r` is inserted: a fragment's children, or the node itself. -/
def insertables (d : Document) (r : NodeId) : List NodeId :=
  match d.kind r with
  | .fragment => d.children r
  | _ => [r]

theorem insertables_fragment (hk : d.kind r = .fragment) : d.insertables r = d.children r := by
  simp [insertables, hk]

theorem insertables_single (hk : d.kind r ≠ .fragment) : d.insertables r = [r] := by
  unfold insertables
  split
  · next hf => exact absurd hf hk
  · rfl

theorem takeInsertables_fst (d : Document) (r : NodeId) : (d.takeInsertables r).1 = d.insertables r := by
  by_cases hk : d.kind r = .fragment
  · rw [takeInsertables_fragment hk, insertables_fragment hk]
    rfl
  · rw [takeInsertables_detached hk, insertables_single hk]

theorem sameFrame_takeInsertables (d : Document) (r : NodeId) : SameFrame d (d.takeInsertables r).2 := by
  by_cases hk : d.kind r = .fragment
  · rw [takeInsertables_fragment hk]
    exact (spliced_clearChildren d r).toSameFrame
  · rw [takeInsertables_detached hk]
    exact sameFrame_detach d r

theorem under_of_mem_insertables (hc : c ∈ d.insertables r) : d.Under r c := by
  by_cases hk : d.kind r = .fragment
  · rw [insertables_fragment hk] at hc
    exact Under.of_owns (owns_iff.mpr (Or.inl hc))
  · rw [insertables_single hk, List.mem_singleton] at hc
    exact hc ▸ Under.refl

namespace Sound

variable (h : d.Sound)

include h

/-- A child goes in with itself, and with its parent if that is a fragment. -/
theorem mem_insertables_iff (hp : d.parent i = some p) :
    i ∈ d.insertables r ↔ r = i ∨ (r = p ∧ d.kind r = .fragment) := by
  by_cases hk : d.kind r = .fragment
  · have hri : r ≠ i := by
      rintro rfl
      rw [h.parent_of_fragment hk] at hp
      cases hp
    rw [insertables_fragment hk, h.child_iff, hp]
    simp [hk, hri, eq_comm]
  · simp [insertables_single hk, hk, eq_comm]

theorem live_of_mem_insertables (hc : c ∈ d.insertables r) : d.isLive c = true := by
  by_cases hk : d.kind r = .fragment
  · rw [insertables_fragment hk] at hc
    exact (h.live_of_owns (owns_iff.mpr (Or.inl hc))).2
  · rw [insertables_single hk, List.mem_singleton] at hc
    by_contra hl
    rw [hc, Bool.not_eq_true] at hl
    rw [kind_eq, h.vacant hl] at hk
    exact hk rfl

theorem nodup_insertables (r : NodeId) : (d.insertables r).Nodup := by
  by_cases hk : d.kind r = .fragment
  · rw [insertables_fragment hk]
    exact h.children_nodup r
  · rw [insertables_single hk]
    exact List.nodup_singleton r

/-- What goes in together is not below each other. -/
theorem not_child_of_mem_insertables (hb : b ∈ d.insertables r) (hc : c ∈ d.insertables r) :
    c ∉ d.children b := by
  intro hcb
  have hown : d.Owns b c := owns_iff.mpr (Or.inl hcb)
  by_cases hk : d.kind r = .fragment
  · rw [insertables_fragment hk] at hb hc
    have hrb : b ≠ r := h.ne_of_owns (owns_iff.mpr (Or.inl hb))
    exact hrb (h.owns_unique hown (owns_iff.mpr (Or.inl hc)))
  · rw [insertables_single hk, List.mem_singleton] at hb hc
    exact h.ne_of_owns hown (hc.trans hb.symm)

/-! ## Taking it out -/

theorem node_takeInsertables (r j : NodeId) : (d.takeInsertables r).2.node j = { d.node j with
    parent := if j ∈ d.insertables r then none else d.parent j
    children := (d.children j).filter (· ∉ d.insertables r) } := by
  by_cases hk : d.kind r = .fragment
  · have hkeep : (if j = r then [] else d.children j) = (d.children j).filter (· ∉ d.children r) := by
      split
      · next hjr => simp [hjr]
      · next hjr =>
        refine (List.filter_eq_self.mpr fun c hc => ?_).symm
        rw [decide_eq_true_eq]
        intro hcr
        exact hjr <| h.owns_unique (owns_iff.mpr (Or.inl hc)) (owns_iff.mpr (Or.inl hcr))
    rw [takeInsertables_fragment hk, insertables_fragment hk, (spliced_clearChildren d r).node_eq]
    simp only [List.not_mem_nil, if_false, List.nil_append, hkeep]
  · have hkeep : (if d.parent r = some j then (d.children j).filter (· != r) else d.children j) =
        (d.children j).filter (· ∉ [r]) := by
      split
      · exact List.filter_congr fun c _ => by by_cases hcr : c = r <;> simp [hcr]
      · next hpr =>
        refine (List.filter_eq_self.mpr fun c hc => ?_).symm
        rw [decide_eq_true_eq]
        intro hcr
        exact hpr <| List.mem_singleton.mp hcr ▸ h.child_iff.mp hc
    rw [takeInsertables_detached hk, insertables_single hk, node_detach, hkeep]
    simp only [List.mem_singleton]

end Sound

/-! ## Putting it in -/

theorem takeWhile_bne_append (hb : c ∉ before) : (before ++ c :: after).takeWhile (· != c) = before := by
  rw [List.takeWhile_append_of_pos fun x hx => by simpa using ne_of_mem_of_not_mem hx hb]
  simp

theorem dropWhile_bne_append (hb : c ∉ before) : (before ++ c :: after).dropWhile (· != c) = c :: after := by
  rw [List.dropWhile_append_of_pos fun x hx => by simpa using ne_of_mem_of_not_mem hx hb]
  simp

theorem sameFrame_replaceWith (d : Document) (i r : NodeId) : SameFrame d (d.replaceWith i r) := by
  cases hp : d.parent i with
  | none => rw [replaceWith_of_parent_eq_none hp]; exact SameFrame.rfl
  | some p =>
    rw [replaceWith_eq hp]
    split
    · exact (sameFrame_takeInsertables d r).trans (sameFrame_putInPlace _ p i _)
    · exact sameFrame_takeInsertables d r

/-- `is` stand where the child `i` of `p` stood, in their order, and `p` is their parent; what else was among
the children of `p` keeps its order. -/
structure StandsFor (d : Document) (p i : NodeId) (is : List NodeId) (d' : Document) : Prop where
  children_eq : ∃ before after, d.children p = before ++ i :: after ∧
    d'.children p = before.filter (· ∉ is) ++ is ++ after.filter (· ∉ is)
  parent_eq : ∀ c ∈ is, d'.parent c = some p

namespace Sound

variable (h : d.Sound)

include h

/-- Replacing, node by node. -/
theorem node_replaceWith (hi : i ∉ d.insertables r) (hp : d.children p = before ++ i :: after) (j : NodeId) :
    (d.replaceWith i r).node j = { d.node j with
      parent := if j = i then none else if j ∈ d.insertables r then some p else d.parent j
      children := if j = p
        then before.filter (· ∉ d.insertables r) ++ d.insertables r ++ after.filter (· ∉ d.insertables r)
        else (d.children j).filter (· ∉ d.insertables r) } := by
  have hmem : i ∈ d.children p := by simp [hp]
  have hpi : d.parent i = some p := h.child_iff.mp hmem
  obtain ⟨hpl, hil⟩ := h.live_of_owns (h.owns_of_parent hpi)
  by_cases hj : j < d.nodes.size
  · have hnode := h.node_takeInsertables r
    have hnd := h.children_nodup p
    rw [hp, List.nodup_append] at hnd
    have hbefore : i ∉ before.filter (· ∉ d.insertables r) := fun hb =>
      hnd.2.2 i (List.mem_filter.mp hb).1 i (by simp) rfl
    -- Taking out leaves the node between what is left of its neighbours.
    have hchildren : (d.takeInsertables r).2.children p =
        before.filter (· ∉ d.insertables r) ++ i :: after.filter (· ∉ d.insertables r) := by
      rw [children_eq, hnode, hp]
      simp [hi]
    rw [replaceWith_eq hpi, if_pos (by simp [hchildren]),
      node_putInPlace_of_lt ((sameFrame_takeInsertables d r).size_eq ▸ hj), takeInsertables_fst, hchildren,
      takeWhile_bne_append hbefore, dropWhile_bne_append hbefore, parent_eq, children_eq, hnode]
    by_cases hji : j = i
    · simp [hji]
    · by_cases hjr : j ∈ d.insertables r <;> simp [hji, hjr]
  · have hout : d.node j = .vacant := node_of_size_le (Nat.le_of_not_lt hj)
    have hout' : (d.replaceWith i r).node j = .vacant := by
      apply node_of_size_le
      rw [(sameFrame_replaceWith d i r).size_eq]
      exact Nat.le_of_not_lt hj
    have hjp : j ≠ p := fun he => hj (he ▸ lt_size_of_isLive hpl)
    have hjr : j ∉ d.insertables r := fun hm => hj (lt_size_of_isLive (h.live_of_mem_insertables hm))
    rw [hout', parent_eq, children_eq, hout]
    simp [hjp, hjr, Node.vacant]

theorem standsFor_replaceWith (hp : d.parent i = some p) (hi : i ∉ d.insertables r) :
    d.StandsFor p i (d.insertables r) (d.replaceWith i r) := by
  obtain ⟨before, after, hcs⟩ := List.append_of_mem (h.child_iff.mpr hp)
  have hnode := h.node_replaceWith hi hcs
  refine ⟨⟨before, after, hcs, ?_⟩, fun c hc => ?_⟩
  · rw [children_eq, hnode, if_pos rfl]
  · have hci : c ≠ i := ne_of_mem_of_not_mem hc hi
    rw [parent_eq, hnode, if_neg hci, if_pos hc]

end Sound

/-! ## The exchange -/

/-- `is` took the place of the child `i` of `p`, which stood between `before` and `after`. They are children of
`p` once and of no other node, `i` is apart with what is left of its children, and nothing else changed. -/
structure Replaced (d : Document) (p i : NodeId) (before is after : List NodeId) (d' : Document) : Prop
    extends SameFrame d d' where
  doctype_eq : d'.doctype = d.doctype
  children_before : d.children p = before ++ i :: after
  node_parent : d'.node p =
    { d.node p with children := before.filter (· ∉ is) ++ is ++ after.filter (· ∉ is) }
  node_self : d'.node i = { d.node i with parent := none, children := (d.children i).filter (· ∉ is) }
  node_new : ∀ c ∈ is, d'.node c = { d.node c with parent := some p }
  node_former : ∀ {q c}, c ∈ is → d.parent c = some q → q ≠ p → q ≠ i →
    d'.node q = { d.node q with children := (d.children q).filter (· ∉ is) }
  node_other : ∀ {j}, j ≠ p → j ≠ i → j ∉ is → (∀ c ∈ is, d.parent c ≠ some j) → d'.node j = d.node j
  count_before : ∀ c ∈ is, ∀ q, (d.children q).count c = if d.parent c = some q then 1 else 0
  count_after : ∀ c ∈ is, ∀ q, (d'.children q).count c = if q = p then 1 else 0

theorem count_filter_not_mem (hc : c ∈ is) (cs : List NodeId) : (cs.filter (· ∉ is)).count c = 0 := by
  apply List.count_eq_zero_of_not_mem
  simp [hc]

namespace Sound

variable (h : d.Sound)

include h

/-- A node is listed once by its parent, and by no other node. -/
theorem count_children (c q : NodeId) : (d.children q).count c = if d.parent c = some q then 1 else 0 := by
  split
  · next hc => exact List.count_eq_one_of_mem (h.children_nodup q) (h.child_iff.mpr hc)
  · next hc => exact List.count_eq_zero_of_not_mem fun hm => hc (h.child_iff.mp hm)

theorem filter_children_of_not_former (hq : ∀ c ∈ is, d.parent c ≠ some q) :
    (d.children q).filter (· ∉ is) = d.children q := by
  apply List.filter_eq_self.mpr
  intro c hc
  rw [decide_eq_true_eq]
  exact fun hm => hq c hm (h.child_iff.mp hc)

end Sound

/-- Replacing a child of `p` by another node that is neither `p` nor above it. It may be a sibling of the child,
or be below the child. -/
theorem replaceWith_splices (h : d.Sound) (hp : d.parent i = some p) (hne : r ≠ i) (hnot : ¬ d.Under r p) :
    ∃ before after, Replaced d p i before (d.insertables r) after (d.replaceWith i r) := by
  obtain ⟨before, after, hcs⟩ := List.append_of_mem (h.child_iff.mpr hp)
  have hi : i ∉ d.insertables r := by
    rw [h.mem_insertables_iff hp]
    rintro (rfl | ⟨rfl, -⟩)
    · exact hne rfl
    · exact hnot Under.refl
  have hpi : p ≠ i := (h.ne_of_owns (h.owns_of_parent hp)).symm
  have hpm : p ∉ d.insertables r := fun hm => hnot (under_of_mem_insertables hm)
  have hparent : ∀ {c q}, c ∈ d.insertables r → d.parent c = some q → q ∉ d.insertables r :=
    fun hc hq hm => h.not_child_of_mem_insertables hm hc (h.child_iff.mpr hq)
  have hnode := h.node_replaceWith hi hcs
  refine ⟨before, after,
    { toSameFrame := sameFrame_replaceWith d i r
      doctype_eq := doctype_replaceWith d i r
      children_before := hcs
      node_parent := ?_
      node_self := ?_
      node_new := fun c hc => ?_
      node_former := fun {q c} hc hq hqp hqi => ?_
      node_other := fun {j} hjp hji hjm hj => ?_
      count_before := fun c _ q => h.count_children c q
      count_after := fun c hc q => ?_ }⟩
  · rw [hnode, if_neg hpi, if_neg hpm, if_pos rfl]
    rfl
  · rw [hnode, if_pos rfl, if_neg hpi.symm]
  · have hkeep : (d.children c).filter (· ∉ d.insertables r) = d.children c :=
      h.filter_children_of_not_former fun b hb hbc => hparent hb hbc hc
    rw [hnode, if_neg (ne_of_mem_of_not_mem hc hi), if_pos hc, if_neg (ne_of_mem_of_not_mem hc hpm), hkeep]
    rfl
  · rw [hnode, if_neg hqi, if_neg (hparent hc hq), if_neg hqp]
    rfl
  · rw [hnode, if_neg hji, if_neg hjm, if_neg hjp, h.filter_children_of_not_former hj]
    rfl
  · have hone : (d.insertables r).count c = 1 := List.count_eq_one_of_mem (h.nodup_insertables r) hc
    rw [children_eq, hnode]
    by_cases hqp : q = p
    · simp only [hqp, if_true, List.count_append, count_filter_not_mem hc, hone]
    · simp only [hqp, if_false, count_filter_not_mem hc]

/-- The text goes in the place of the division that it is in, two levels up. -/
theorem replaceWith_splices_descendant :
    let d := Document.parse "<b>x</b><div><i>y</i></div>"
    d.Sound ∧ d.parent 6 = some 3 ∧ 8 ≠ 6 ∧ ¬ d.Under 8 3 ∧
      (d.replaceWith 6 8).children 3 = [4, 8] ∧ (d.replaceWith 6 8).parent 8 = some 3 ∧
      (d.replaceWith 6 8).parent 6 = none ∧ (d.replaceWith 6 8).children 6 = [7] ∧
      (d.replaceWith 6 8).children 7 = [] := by
  intro d
  have h : d.Sound := (wellFormed_parse _).sound
  obtain ⟨hp, hbody, hdiv, hitalic, hparent, hkind, htext⟩ :
      d.parent 6 = some 3 ∧ d.children 3 = [4, 6] ∧ d.children 6 = [7] ∧ d.children 7 = [8] ∧
        d.parent 8 = some 7 ∧ d.kind 8 ≠ .fragment ∧ d.below 8 = [] := by
    decide +kernel
  have hne : (8 : NodeId) ≠ 6 := by decide
  have hnot : ¬ d.Under 8 3 := by
    intro hu
    rcases Relation.ReflTransGen.cases_head hu with he | ⟨c, hc, -⟩
    · exact absurd he (by decide)
    · rw [Owns, htext] at hc
      cases hc
  obtain ⟨before, after, x⟩ := replaceWith_splices h hp hne hnot
  rw [insertables_single hkind] at x
  have hsides : before = [4] ∧ after = [] := by
    have hcs := x.children_before
    rw [hbody] at hcs
    rcases before with _ | ⟨b, _ | ⟨c, rest⟩⟩ <;> simp_all
  obtain ⟨rfl, rfl⟩ := hsides
  refine ⟨h, hp, hne, hnot, ?_, ?_, ?_, ?_, ?_⟩
  · rw [children_eq, x.node_parent]
    rfl
  · rw [parent_eq, x.node_new 8 (by simp)]
  · rw [parent_eq, x.node_self]
  · rw [children_eq, x.node_self, hdiv]
    rfl
  · rw [children_eq, x.node_former (by simp) hparent (by decide) (by decide), hitalic]
    rfl

/-! ## All or nothing -/

namespace Sound

variable (h : d.Sound)

include h

/-- A child that goes in itself is taken out, and nothing goes in. -/
theorem replaceWith_of_mem_insertables (hp : d.parent i = some p) (hi : i ∈ d.insertables r) :
    d.replaceWith i r = (d.takeInsertables r).2 ∧ (d.replaceWith i r).parent i = none := by
  have hgone : i ∉ (d.takeInsertables r).2.children p := by
    rw [children_eq, h.node_takeInsertables]
    simp [hi]
  rw [replaceWith_eq hp, if_neg hgone, parent_eq, h.node_takeInsertables, if_pos hi]
  exact ⟨rfl, rfl⟩

/-- No other node is left without parent. -/
theorem parent_replaceWith_ne_none (hi : d.parent i = none ∨ i ∉ d.insertables r) (hji : j ≠ i)
    (hj : d.parent j ≠ none) : (d.replaceWith i r).parent j ≠ none := by
  cases hp : d.parent i with
  | none => rwa [replaceWith_of_parent_eq_none hp]
  | some p =>
    have hi : i ∉ d.insertables r := hi.resolve_left (by simp [hp])
    obtain ⟨before, after, hcs⟩ := List.append_of_mem (h.child_iff.mpr hp)
    rw [parent_eq, h.node_replaceWith hi hcs, if_neg hji]
    split
    · simp
    · exact hj

end Sound

/-- Replacing either puts everything in the place of a child or changes nothing, unless the child itself goes
in: it is its own replacement, or the replacement is its parent, a fragment. Then it is taken out and nothing goes
in. -/
theorem replaceWith_all_or_nothing_iff (h : d.Sound) (i r : NodeId) :
    ((∃ p, d.parent i = some p ∧ d.StandsFor p i (d.insertables r) (d.replaceWith i r)) ∨
      d.replaceWith i r = d ↔ d.parent i = none ∨ i ∉ d.insertables r) ∧
    (d.parent i = none ∨ i ∉ d.insertables r →
      ∀ j, j ≠ i → d.parent j ≠ none → (d.replaceWith i r).parent j ≠ none) ∧
    (∀ p, d.parent i = some p → i ∈ d.insertables r → (r = i ∨ (r = p ∧ d.kind r = .fragment)) ∧
      d.replaceWith i r = (d.takeInsertables r).2 ∧ (d.replaceWith i r).parent i = none) := by
  refine ⟨⟨fun hall => ?_, fun hi => ?_⟩, fun hi j hji hj => h.parent_replaceWith_ne_none hi hji hj,
    fun p hp hi => ⟨(h.mem_insertables_iff hp).mp hi, h.replaceWith_of_mem_insertables hp hi⟩⟩
  · by_contra hno
    obtain ⟨hp, hi⟩ := not_or.mp hno
    rw [not_not] at hi
    obtain ⟨p, hp⟩ := Option.ne_none_iff_exists'.mp hp
    have hnone := (h.replaceWith_of_mem_insertables hp hi).2
    rcases hall with ⟨q, -, s⟩ | hsame
    · rw [s.parent_eq i hi] at hnone
      cases hnone
    · rw [hsame, hp] at hnone
      cases hnone
  · cases hp : d.parent i with
    | none => exact Or.inr (replaceWith_of_parent_eq_none hp r)
    | some p =>
      have hi : i ∉ d.insertables r := hi.resolve_left (by simp [hp])
      exact Or.inl ⟨p, rfl, h.standsFor_replaceWith hp hi⟩

/-- An earlier sibling comes to stand in the place of the division. -/
theorem replaceWith_all_or_nothing_sibling :
    let d := Document.parse "<b>x</b><div>y</div>"
    d.Sound ∧ d.children 3 = [4, 6] ∧ (d.replaceWith 6 4).children 3 = [4] ∧
      d.StandsFor 3 6 [4] (d.replaceWith 6 4) := by
  intro d
  have h : d.Sound := (wellFormed_parse _).sound
  obtain ⟨hp, hbody, hafter, hkind⟩ : d.parent 6 = some 3 ∧ d.children 3 = [4, 6] ∧
      (d.replaceWith 6 4).children 3 = [4] ∧ d.kind 4 ≠ .fragment := by
    decide +kernel
  have hi : 6 ∉ d.insertables 4 := by simp [insertables_single hkind]
  refine ⟨h, hbody, hafter, ?_⟩
  rcases (replaceWith_all_or_nothing_iff h 6 4).1.mpr (Or.inr hi) with ⟨p, hp', s⟩ | hsame
  · rw [hp] at hp'
    cases hp'
    rwa [insertables_single hkind] at s
  · rw [hsame, hbody] at hafter
    cases hafter

/-- A paragraph that is to replace itself is taken out of the document and stands nowhere. -/
theorem replaceWith_self_detaches :
    let d := (empty.createElement "p").2.appendChild root 1
    d.Sound ∧ d.parent 1 = some root ∧ d.children root = [1] ∧
      ¬ ((∃ p, d.parent 1 = some p ∧ d.StandsFor p 1 (d.insertables 1) (d.replaceWith 1 1)) ∨
        d.replaceWith 1 1 = d) ∧
      (d.replaceWith 1 1).parent 1 = none ∧ (d.replaceWith 1 1).children root = [] := by
  intro d
  obtain ⟨hone, hlive⟩ : (empty.createElement "p").1 = 1 ∧ (empty.createElement "p").2.isLive root = true := by
    decide +kernel
  have m := made_createElement wellFormed_empty.sound "p"
  rw [hone] at m
  have hw : d.Sound :=
    m.sound.appendChild hlive m.orphan.live (m.not_under wellFormed_empty.sound rfl)
  obtain ⟨hp, hroot, hnone, hempty, hkind⟩ : d.parent 1 = some root ∧ d.children root = [1] ∧
      (d.replaceWith 1 1).parent 1 = none ∧ (d.replaceWith 1 1).children root = [] ∧
      d.kind 1 ≠ .fragment := by
    decide +kernel
  refine ⟨hw, hp, hroot, ?_, hnone, hempty⟩
  rintro (⟨p, -, s⟩ | hsame)
  · rw [s.parent_eq 1 (by simp [insertables_single hkind])] at hnone
    cases hnone
  · rw [hsame, hp] at hnone
    cases hnone

end Hypertemplate.Document
