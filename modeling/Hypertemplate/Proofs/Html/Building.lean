import Hypertemplate.Proofs.Html.Keyed

/-!
# Building keeps attributes apart

The operations of the builder make elements of tags, and of the tags of formatting elements that they open again. So
from well named tags they make elements whose attributes are kept apart (`Builder.Keyed`). Most operations change
nothing but the open elements, the mode or the flags.
-/

namespace Hypertemplate.Html

/-- Entries whose tags are well named. -/
def EntriesNamed (formatting : List Formatting) : Prop := ∀ i t, .element i t ∈ formatting → WellNamed t.attributes

/-- The elements of the draft keep their attributes apart, and so will the elements that are opened again. -/
structure Builder.Keyed (b : Builder) : Prop where
  draft : b.draft.Keyed
  named : EntriesNamed b.formatting

/-! ## Entries -/

section Entries

variable {formatting rest : List Formatting} {t : Tag}

theorem entriesNamed_nil : EntriesNamed [] := nofun

theorem EntriesNamed.subset (h : EntriesNamed formatting) (hs : rest ⊆ formatting) : EntriesNamed rest :=
  fun i t hmem => h i t (hs hmem)

theorem EntriesNamed.bound (h : EntriesNamed formatting) : EntriesNamed (.bound :: formatting) := by
  intro i t hmem
  rcases List.mem_cons.mp hmem with he | hmem
  · cases he
  · exact h i t hmem

theorem EntriesNamed.cons (h : EntriesNamed formatting) (i : Nat) (ht : WellNamed t.attributes) :
    EntriesNamed (.element i t :: formatting) := by
  intro j s hmem
  rcases List.mem_cons.mp hmem with he | hmem
  · obtain ⟨-, rfl⟩ := Formatting.element.inj he
    exact ht
  · exact h j s hmem

/-- Entries are exchanged for an entry with a well named tag. -/
theorem EntriesNamed.exchange (h : EntriesNamed formatting) (p : Formatting → Bool) (i : Nat)
    (ht : WellNamed t.attributes) : EntriesNamed (formatting.map fun e => if p e then .element i t else e) := by
  intro j s hmem
  obtain ⟨e, he, heq⟩ := List.mem_map.mp hmem
  split at heq
  · obtain ⟨-, rfl⟩ := Formatting.element.inj heq
    exact ht
  · exact h j s (heq ▸ he)

end Entries

namespace Builder

variable {b : Builder} {t : Tag} {i : Nat}

@[grind =]
theorem keyed_mk {draft : Draft} {stack : List Nat} {formatting : List Formatting} {mode returnMode : Mode}
    {templateModes : List Mode} {head form : Option Nat} {allowsFrames skipsLineFeed fosters : Bool}
    {tableText : List Char} {oldLayout : Bool} {reading : ReadMode} :
    (Builder.mk draft stack formatting mode returnMode templateModes head form allowsFrames skipsLineFeed fosters
      tableText oldLayout reading).Keyed ↔ draft.Keyed ∧ EntriesNamed formatting :=
  ⟨fun h => ⟨h.draft, h.named⟩, fun h => ⟨h.1, h.2⟩⟩

attribute [grind ←] Keyed.draft Keyed.named

/-! ## Open elements, modes and flags -/

theorem Keyed.withDraft (h : b.Keyed) {t : Draft} (ht : t.Keyed) : ({ b with draft := t } : Builder).Keyed :=
  ⟨ht, h.named⟩

theorem Keyed.withStack (h : b.Keyed) (stack : List Nat) : ({ b with stack } : Builder).Keyed := ⟨h.draft, h.named⟩

@[grind ←]
theorem Keyed.push (h : b.Keyed) (i : Nat) : (b.push i).Keyed := h.withStack _

@[grind ←]
theorem Keyed.pop (h : b.Keyed) : b.pop.Keyed := h.withStack _

@[grind ←]
theorem Keyed.popThrough (h : b.Keyed) (p : Label → Bool) : (b.popThrough p).Keyed := h.withStack _

@[grind ←]
theorem Keyed.popThroughNamed (h : b.Keyed) (name : String) : (b.popThroughNamed name).Keyed := h.popThrough _

@[grind ←]
theorem Keyed.popUntil (h : b.Keyed) (p : Label → Bool) : (b.popUntil p).Keyed := h.withStack _

@[grind ←]
theorem Keyed.closeImplied (h : b.Keyed) (p : Label → Bool) : (b.closeImplied p).Keyed := h.withStack _

@[grind ←]
theorem Keyed.closeImpliedExcept (h : b.Keyed) (name : String) : (b.closeImpliedExcept name).Keyed := h.closeImplied _

@[grind ←]
theorem Keyed.closeNamed (h : b.Keyed) (name : String) : (b.closeNamed name).Keyed :=
  (h.closeImpliedExcept name).popThroughNamed name

@[grind ←]
theorem Keyed.closeParagraph (h : b.Keyed) : b.closeParagraph.Keyed := h.closeNamed "p"

@[grind ←]
theorem Keyed.closeParagraphInButton (h : b.Keyed) : b.closeParagraphInButton.Keyed := by
  unfold Builder.closeParagraphInButton
  split
  · exact h.closeParagraph
  · exact h

@[grind ←]
theorem Keyed.removeOpen (h : b.Keyed) (i : Nat) : (b.removeOpen i).Keyed := h.withStack _

@[grind ←]
theorem Keyed.closeAny (h : b.Keyed) (name : String) : (b.closeAny name).Keyed := by
  have hgo : ∀ stack, (closeAny.go b name stack).Keyed := by
    intro stack
    induction stack with
    | nil => exact h
    | cons i rest ih =>
      rw [closeAny.go]
      split
      · exact h.withStack rest
      · split
        · exact h
        · exact ih
  exact hgo b.stack

@[grind ←]
theorem Keyed.setMode (h : b.Keyed) (m : Mode) : (b.setMode m).Keyed := ⟨h.draft, h.named⟩

@[grind ←]
theorem Keyed.resetMode (h : b.Keyed) : b.resetMode.Keyed := h.setMode _

@[grind ←]
theorem Keyed.forbidFrames (h : b.Keyed) : b.forbidFrames.Keyed := ⟨h.draft, h.named⟩

@[grind ←]
theorem Keyed.noteChar (h : b.Keyed) (c : Char) : (b.noteChar c).Keyed := by
  unfold Builder.noteChar
  split
  · exact h
  · exact h.forbidFrames

/-! ## Formatting elements -/

theorem mem_recentFormatting_go {formatting : List Formatting} (h : (i, t) ∈ recentFormatting.go formatting) :
    .element i t ∈ formatting := by
  induction formatting with
  | nil => cases h
  | cons e rest ih =>
    cases e with
    | bound => cases h
    | element j s =>
      rcases List.mem_cons.mp h with he | hmem
      · obtain ⟨rfl, rfl⟩ := Prod.mk.inj he
        exact List.mem_cons_self
      · exact List.mem_cons_of_mem _ (ih hmem)

/-- The tags of recent entries are well named. -/
theorem Keyed.recent (h : b.Keyed) {p : Nat × Tag → Bool} (hfind : b.recentFormatting.find? p = some (i, t)) :
    WellNamed t.attributes :=
  h.named i t (mem_recentFormatting_go (List.mem_of_find?_eq_some hfind))

@[grind ←]
theorem Keyed.removeFormatting (h : b.Keyed) (i : Nat) : (b.removeFormatting i).Keyed :=
  ⟨h.draft, h.named.subset List.eraseP_subset⟩

@[grind ←]
theorem Keyed.pushBound (h : b.Keyed) : b.pushBound.Keyed := ⟨h.draft, h.named.bound⟩

@[grind ←]
theorem Keyed.clearFormatting (h : b.Keyed) : b.clearFormatting.Keyed :=
  ⟨h.draft, h.named.subset (List.Subset.trans (List.drop_subset ..) (List.dropWhile_subset _))⟩

/-! ## New nodes -/

@[grind ←]
theorem Keyed.putAt (h : b.Keyed) (place : Place) (node : Nat) : (b.putAt place node).Keyed := by
  unfold Builder.putAt
  split
  · exact ⟨h.draft.append _ _, h.named⟩
  · split
    · exact ⟨h.draft.insertBefore _ _, h.named⟩
    · exact ⟨h.draft.append _ _, h.named⟩

@[grind ←]
theorem Keyed.putText (h : b.Keyed) (text : String) : (b.putText text).Keyed := by
  unfold Builder.putText
  split
  · exact ⟨h.draft.appendText _ _, h.named⟩
  · split
    · exact ⟨h.draft.insertTextBefore _ _, h.named⟩
    · exact ⟨h.draft.appendText _ _, h.named⟩

@[grind ←]
theorem Keyed.putChar (h : b.Keyed) (c : Char) : (b.putChar c).Keyed := h.putText _

theorem Keyed.create (h : b.Keyed) (kind : DraftKind) (hk : kind.Keyed) : (b.create kind).2.Keyed :=
  ⟨h.draft.create kind hk, h.named⟩

@[grind ←]
theorem Keyed.putCommentIn (h : b.Keyed) (parent : Nat) (text : String) : (b.putCommentIn parent text).Keyed :=
  have hnew := h.create (.comment text) trivial
  ⟨hnew.draft.append _ _, hnew.named⟩

@[grind ←]
theorem Keyed.putComment (h : b.Keyed) (text : String) : (b.putComment text).Keyed :=
  (h.create (.comment text) trivial).putAt _ _

@[grind ←]
theorem Keyed.putElement (h : b.Keyed) (vocabulary : Vocabulary) (ht : WellNamed t.attributes) :
    (b.putElement vocabulary t).2.Keyed :=
  (h.create _ (keyed_draftAttributes ht vocabulary t.name)).putAt _ _

@[grind ←]
theorem Keyed.openElement (h : b.Keyed) (ht : WellNamed t.attributes) : (b.openElement t).2.Keyed := by
  have hnew := h.putElement .html ht
  exact ⟨hnew.draft, hnew.named⟩

@[grind ←]
theorem Keyed.insert (h : b.Keyed) (ht : WellNamed t.attributes) : (b.insert t).Keyed := h.openElement ht

@[grind ←]
theorem Keyed.insertClosed (h : b.Keyed) (ht : WellNamed t.attributes) : (b.insertClosed t).Keyed :=
  h.putElement .html ht

@[grind ←]
theorem Keyed.insertNamed (h : b.Keyed) (name : String) : (b.insertNamed name).Keyed := h.insert wellNamed_nil

@[grind ←]
theorem Keyed.insertRoot {attributes : List (String × String)} (h : b.Keyed) (ha : WellNamed attributes) :
    (b.insertRoot attributes).Keyed := by
  have hnew := h.create _ (keyed_draftAttributes ha .html "html")
  exact ⟨hnew.draft.append _ _, hnew.named⟩

@[grind ←]
theorem Keyed.insertTextElement (h : b.Keyed) (ht : WellNamed t.attributes) (reading : ReadMode) :
    (b.insertTextElement t reading).Keyed :=
  have hnew := h.insert ht
  ⟨hnew.draft, hnew.named⟩

/-! ## Opening formatting elements -/

theorem Keyed.reopen (h : b.Keyed) {e : Formatting} (he : ∀ i t, e = .element i t → WellNamed t.attributes) :
    (b.reopen e).Keyed := by
  cases e with
  | bound => exact h
  | element i t =>
    have hnew := h.openElement (he i t rfl)
    exact ⟨hnew.draft, hnew.named.cons _ (he i t rfl)⟩

@[grind ←]
theorem Keyed.reopenFormatting (h : b.Keyed) : b.reopenFormatting.Keyed := by
  have hlost : ∀ e ∈ (b.formatting.takeWhile (!b.isSettled ·)).reverse, ∀ i t, e = .element i t →
      WellNamed t.attributes := by
    rintro e he i t rfl
    exact h.named i t ((List.takeWhile_subset _) (List.mem_reverse.mp he))
  have hkept : Keyed { b with formatting := b.formatting.drop (b.formatting.takeWhile (!b.isSettled ·)).length } :=
    ⟨h.draft, h.named.subset (List.drop_subset ..)⟩
  exact List.foldlRecOn (motive := Keyed) _ _ hkept fun _ hb e he => hb.reopen (hlost e he)

@[grind ←]
theorem Keyed.limitFormatting (h : b.Keyed) (t : Tag) : (b.limitFormatting t).Keyed := by
  unfold Builder.limitFormatting
  grind

@[grind ←]
theorem Keyed.openFormatting (h : b.Keyed) (ht : WellNamed t.attributes) : (b.openFormatting t).Keyed := by
  have hnew := (h.limitFormatting t).openElement ht
  exact ⟨hnew.draft, hnew.named.cons _ ht⟩

/-! ## Splitting formatting elements -/

/-- The walk outwards makes elements anew of their own tags. -/
theorem Keyed.splitStep {w : SplitWalk} (h : w.builder.Keyed) (block count node : Nat) :
    (w.step block count node).builder.Keyed := by
  unfold SplitWalk.step
  dsimp only
  split
  · next t hfind =>
    have ht : WellNamed t.attributes := h.named _ t (List.mem_of_find?_eq_some hfind)
    split
    · exact h.removeFormatting node
    · have hnew := h.create _ (keyed_draftAttributes ht .html t.name)
      exact ⟨(hnew.draft.detach w.last).append w.builder.draft.size w.last, hnew.named.exchange (isEntryOf node) _ ht⟩
  · exact h

theorem Keyed.settleBookmark (h : b.Keyed) (outer new : Nat) (ht : WellNamed t.attributes) (bookmark : Bookmark) :
    (b.settleBookmark outer new t bookmark).Keyed := by
  cases bookmark with
  | inPlace => exact ⟨h.draft, h.named.exchange _ _ ht⟩
  | after node =>
    -- The new entry is put where the bookmark is before the entry of the outer part goes.
    have hput : EntriesNamed (b.formatting.flatMap fun e => if isEntryOf node e then [.element new t, e] else [e]) := by
      intro i s hmem
      obtain ⟨e, he, hmem⟩ := List.mem_flatMap.mp hmem
      have hs := h.named i s
      split at hmem <;> grind
    exact ⟨h.draft, hput.subset List.eraseP_subset⟩

theorem Keyed.splitAround (h : b.Keyed) (outer : Nat) (ht : WellNamed t.attributes) (block : Nat)
    (inner between outside : List Nat) : (b.splitAround outer t block inner between outside).Keyed := by
  unfold Builder.splitAround
  extract_lets start walk cut stopped placed
  have hwalk : walk.builder.Keyed :=
    List.foldlRecOn (motive := fun (w : SplitWalk) => w.builder.Keyed) _ _ h fun _ hw x _ =>
      splitStep hw block x.2 x.1
  have hstopped : stopped.Keyed := ⟨hwalk.draft.detach _, hwalk.named⟩
  have hplaced : placed.Keyed := hstopped.putAt _ _
  -- The new element takes the children of the block, and the block gets it as its only child.
  have hnew := hplaced.create _ (keyed_draftAttributes ht .html t.name)
  have hfilled := hnew.withDraft ((hnew.draft.moveChildren block placed.draft.size).append block placed.draft.size)
  exact (hfilled.settleBookmark outer placed.draft.size ht walk.bookmark).withStack _

theorem Keyed.endFormattingRound (h : b.Keyed) (name : String) : (b.endFormattingRound name).1.Keyed := by
  unfold Builder.endFormattingRound
  grind [Keyed.recent, Keyed.splitAround]

theorem Keyed.endFormattingRounds (bound : Nat) (name : String) :
    ∀ {b : Builder}, b.Keyed → (endFormattingRounds bound b name).Keyed := by
  induction bound with
  | zero => exact fun h => h
  | succ bound ih =>
    intro b h
    have hround := h.endFormattingRound name
    rw [Builder.endFormattingRounds]
    split
    · next heq =>
      rw [heq] at hround
      exact ih hround
    · next heq =>
      rw [heq] at hround
      exact hround

@[grind ←]
theorem Keyed.endFormatting (h : b.Keyed) (name : String) : (b.endFormatting name).Keyed := by
  unfold Builder.endFormatting
  grind [Keyed.endFormattingRounds]

@[grind ←]
theorem Keyed.endNestedLink (h : b.Keyed) : b.endNestedLink.Keyed := by
  unfold Builder.endNestedLink
  grind

end Builder

end Hypertemplate.Html
