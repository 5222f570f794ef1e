import Hypertemplate.Proofs.Document.Creation
import Hypertemplate.Proofs.Document.Relinking

/-!
# New nodes in any document

`Allocates d is d'` says that new nodes took the places `is`, one after the other, and that some of them were
put below others. Whatever the links of the document are, the places were not live, they are all different,
and live nodes are left alone, if only the list of free places is right (`Accounted`). Every operation that
makes nodes does this (`yields_createElement`, `yields_cloneWithin`). A copy does it at any number of levels
that it goes down, so that nothing has to be known about how deep the links of a document lead.
-/

namespace Hypertemplate.Document

variable {d d' d'' : Document} {i j p q c : NodeId} {is js : List NodeId}

/-- New nodes took the places `is`, one after the other, and some of them were put below others. The content
of a new template is new too, or the content of a template that was there. -/
inductive Allocates (d : Document) : List NodeId → Document → Prop
  | refl : Allocates d [] d
  | allocate {is : List NodeId} {d' : Document} (a : Allocates d is d') (k : Kind)
      (hk : ∀ f, contentOf? k = some f → f ∈ is ∨ ∃ t, d'.content? t = some f) :
      Allocates d (is ++ [(d'.allocate k).1]) (d'.allocate k).2
  | adopt {is : List NodeId} {d' : Document} {p c : NodeId} (a : Allocates d is d') (hp : p ∈ is)
      (hc : c ∈ is) (hne : c ≠ p) (htop : d'.parent p = none) : Allocates d is (d'.adopt p c)

namespace Allocates

theorem trans (a : Allocates d is d') (b : Allocates d' js d'') : Allocates d (is ++ js) d'' := by
  induction b with
  | refl => simpa using a
  | allocate _ k hk ih =>
    rw [← List.append_assoc]
    exact ih.allocate k fun f hf => (hk f hf).imp_left (List.mem_append_right _)
  | adopt _ hp hc hne htop ih =>
    exact ih.adopt (List.mem_append_right _ hp) (List.mem_append_right _ hc) hne htop

theorem accounted (a : Allocates d is d') (h : d.Accounted) : d'.Accounted := by
  induction a with
  | refl => exact h
  | allocate _ k _ ih => exact ih.allocate k
  | adopt _ _ _ _ _ ih => exact (relinked_adopt _ _ _).accounted ih

theorem isLive_iff (a : Allocates d is d') (h : d.Accounted) :
    d'.isLive j = true ↔ d.isLive j = true ∨ j ∈ is := by
  induction a with
  | refl => simp
  | allocate a k _ ih =>
    rw [(allocated_allocate (a.accounted h) k).isLive_iff, ih, List.mem_append, List.mem_singleton,
      or_comm, or_assoc]
  | adopt _ _ _ _ _ ih => rw [(relinked_adopt _ _ _).isLive_eq, ih]

/-- The places were not live before, and no place was taken twice. -/
theorem fresh_nodup (a : Allocates d is d') (h : d.Accounted) :
    (∀ i ∈ is, d.isLive i = false) ∧ is.Nodup := by
  induction a with
  | refl => simp
  | @allocate is d' a k _ ih =>
    have hnew := (allocated_allocate (a.accounted h) k).fresh
    have hold := (not_congr (a.isLive_iff h)).mp (by simp [hnew] : ¬ d'.isLive (d'.allocate k).1 = true)
    rw [not_or] at hold
    constructor
    · intro i hi
      rcases List.mem_append.mp hi with hi | hi
      · exact ih.1 i hi
      · rw [List.mem_singleton.mp hi]
        simpa using hold.1
    · rw [List.nodup_append]
      refine ⟨ih.2, List.nodup_singleton _, ?_⟩
      rintro x hx y hy rfl
      exact hold.2 (List.mem_singleton.mp hy ▸ hx)
  | adopt _ _ _ _ _ ih => exact ih

theorem fresh (a : Allocates d is d') (h : d.Accounted) (hi : i ∈ is) : d.isLive i = false :=
  (a.fresh_nodup h).1 i hi

theorem not_mem (a : Allocates d is d') (h : d.Accounted) (hj : d.isLive j = true) : j ∉ is := by
  intro hmem
  rw [a.fresh h hmem] at hj
  cases hj

/-- Live nodes are left alone. -/
theorem node_eq (a : Allocates d is d') (h : d.Accounted) (hj : d.isLive j = true) :
    d'.node j = d.node j := by
  induction a with
  | refl => rfl
  | allocate a k _ ih =>
    have b := allocated_allocate (a.accounted h) k
    rw [b.node_ne (b.ne_of_isLive ((a.isLive_iff h).mpr (Or.inl hj))), ih]
  | @adopt is d' p c a hp hc _ _ ih =>
    have hjp : j ≠ p := by
      rintro rfl
      exact a.not_mem h hj hp
    have hjc : j ≠ c := by
      rintro rfl
      exact a.not_mem h hj hc
    have hlt := lt_size_of_isLive ((a.isLive_iff h).mpr (Or.inl hj))
    rw [node_adopt_of_lt hlt, ← ih]
    simp [hjp, hjc, parent, children]

/-- What is owned afterwards is new or was owned before. -/
theorem owned_cases (a : Allocates d is d') (h : d.Accounted) :
    ∀ {q c}, d'.Owns q c → c ∈ is ∨ ∃ t, d.Owns t c := by
  induction a with
  | refl => exact fun hc => Or.inr ⟨_, hc⟩
  | @allocate is d' a k hk ih =>
    intro q c hc
    have hold : ∀ {t}, d'.Owns t c → c ∈ is ++ [(d'.allocate k).1] ∨ ∃ t, d.Owns t c := fun ht =>
      (ih ht).imp_left (List.mem_append_left _)
    rcases (allocated_allocate (a.accounted h) k).owns_cases hc with hc | ⟨-, hc⟩
    · exact hold hc
    · rcases hk c hc with hmem | ⟨t, ht⟩
      · exact Or.inl (List.mem_append_left _ hmem)
      · exact hold (owns_iff.mpr (Or.inr ht))
  | adopt _ _ hmem _ _ ih =>
    intro q c hc
    rcases (relinked_adopt _ _ _).owner hc with hc | ⟨hc, -⟩
    · exact ih hc
    · exact Or.inl (List.mem_singleton.mp hc ▸ hmem)

theorem rising (a : Allocates d is d') (h : d.Accounted) (hd : d.Rising) : d'.Rising := by
  induction a with
  | refl => exact hd
  | @allocate is d' a k _ ih =>
    have b := allocated_allocate (a.accounted h) k
    refine ih.of_parent fun {c q} hc => ?_
    by_cases hci : c = (d'.allocate k).1
    · rw [hci, b.parent_self] at hc
      cases hc
    · rwa [parent_eq, b.node_ne hci] at hc
  | @adopt is d' p c _ _ _ hne htop ih =>
    -- The node that takes in the other one is on top, so that only itself is on its way upwards.
    refine (relinked_adopt d' p c).rising ih fun x hx k hk => ?_
    obtain rfl := List.mem_singleton.mp hx
    cases k with
    | zero => exact hne (Option.some.inj hk).symm
    | succ k =>
      rw [above?, htop] at hk
      cases hk

end Allocates

/-! ## Operations that make nodes -/

/-- An operation made nodes, and returned one of them that has no parent. -/
def Yields (d : Document) (made : NodeId × Document) : Prop :=
  ∃ is, Allocates d is made.2 ∧ made.1 ∈ is ∧ made.2.parent made.1 = none

/-- A new node on top of others that are new. -/
theorem Allocates.yields {k : Kind} (a : Allocates d is d') (h : d.Accounted)
    (hk : ∀ f, contentOf? k = some f → f ∈ is ∨ ∃ t, d'.content? t = some f) :
    Yields d (d'.allocate k) :=
  ⟨_, a.allocate k hk, by simp, (allocated_allocate (a.accounted h) k).parent_self⟩

theorem yields_allocate (h : d.Accounted) {k : Kind} (hk : contentOf? k = none) : Yields d (d.allocate k) :=
  Allocates.refl.yields h (by simp [hk])

theorem yields_createElement (h : d.Accounted) (name : String) : Yields d (d.createElement name) := by
  by_cases hn : name.map Char.toLower = "template"
  · rw [createElement_template hn]
    have a : Allocates d [d.createFragment.1] d.createFragment.2 :=
      Allocates.refl.allocate .fragment (by simp [contentOf?])
    refine a.yields h fun f hf => Or.inl ?_
    rw [contentOf?, Option.some.injEq] at hf
    simp [hf]
  · rw [createElement_other hn]
    exact yields_allocate h rfl

/-! ### Copies -/

/-- A copy of a node that goes at most `levels` levels down. -/
def cloneWithin (levels : Nat) (d : Document) (i : NodeId) (deep : Bool) : NodeId × Document :=
  if deep then copyDeep levels d i
  else
    let (k, d) := copyKind (copyDeep levels) d (d.kind i)
    d.allocate k

/-- The content of a copy is a copy. -/
theorem allocates_copyKind {copy : Document → NodeId → NodeId × Document}
    (hcopy : ∀ c, Yields d (copy d c)) (k : Kind) :
    ∃ is, Allocates d is (copyKind copy d k).2 ∧
      ∀ f, contentOf? (copyKind copy d k).1 = some f → f ∈ is := by
  cases k with
  | element e =>
    cases hc : e.content with
    | none =>
      simp only [copyKind, hc]
      exact ⟨[], .refl, by simp [contentOf?, hc]⟩
    | some c =>
      obtain ⟨is, a, hmem, -⟩ := hcopy c
      simp only [copyKind, hc]
      refine ⟨is, a, fun f hf => ?_⟩
      rw [contentOf?, Option.some.injEq] at hf
      exact hf ▸ hmem
  | _ => exact ⟨[], .refl, by simp [copyKind, contentOf?]⟩

/-- Copies of children are put below a new node that stays on top. -/
theorem allocates_copyChildren {copy : Document → NodeId → NodeId × Document}
    (hcopy : ∀ {e : Document} (c), e.Accounted → Yields e (copy e c)) (h : d.Accounted) (top : NodeId)
    (cs : List NodeId) : ∀ {is d'}, Allocates d is d' → top ∈ is → d'.parent top = none →
      ∃ js, Allocates d js (cs.foldl (fun d c => (copy d c).2.adopt top (copy d c).1) d') ∧ top ∈ js ∧
        (cs.foldl (fun d c => (copy d c).2.adopt top (copy d c).1) d').parent top = none := by
  induction cs with
  | nil => exact fun {is _} a hmem htop => ⟨is, a, hmem, htop⟩
  | cons c rest ih =>
    intro is d' a hmem htop
    obtain ⟨js, b, hnew, -⟩ := hcopy c (a.accounted h)
    have hlive : d'.isLive top = true := (a.isLive_iff h).mpr (Or.inr hmem)
    have hne : (copy d' c).1 ≠ top := by
      intro he
      exact b.not_mem (a.accounted h) hlive (he ▸ hnew)
    have hstay : (copy d' c).2.parent top = none := by
      rw [parent_eq, b.node_eq (a.accounted h) hlive]
      exact htop
    refine ih ((a.trans b).adopt (List.mem_append_left _ hmem) (List.mem_append_right _ hnew) hne hstay)
      (List.mem_append_left _ hmem) ?_
    exact (relinked_adopt _ _ _).parent_eq_none hstay fun he => hne (List.mem_singleton.mp he).symm

theorem yields_copyDeep (levels : Nat) :
    ∀ {d : Document} (i), d.Accounted → Yields d (copyDeep levels d i) := by
  induction levels with
  | zero =>
    intro d i h
    refine Allocates.refl.yields h fun f hf => Or.inr ⟨i, ?_⟩
    rw [content?_eq]
    exact hf
  | succ levels ih =>
    intro d i h
    obtain ⟨is, a, hk⟩ := allocates_copyKind (fun c => ih c h) (d.kind i)
    obtain ⟨js, b, hmem, htop⟩ := a.yields h fun f hf => Or.inl (hk f hf)
    exact allocates_copyChildren (fun c he => ih c he) h _ _ b hmem htop

theorem yields_cloneWithin (levels : Nat) (h : d.Accounted) (i : NodeId) (deep : Bool) :
    Yields d (cloneWithin levels d i deep) := by
  cases deep with
  | true => exact yields_copyDeep levels i h
  | false =>
    obtain ⟨is, a, hk⟩ := allocates_copyKind (fun c => yields_copyDeep levels c h) (d.kind i)
    exact a.yields h fun f hf => Or.inl (hk f hf)

end Hypertemplate.Document
