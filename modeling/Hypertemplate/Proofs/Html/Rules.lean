import Hypertemplate.Proofs.Html.Building

/-!
# The rules keep attributes apart

Each rule handles one token by the operations of the builder. So if the tags that the builder is fed are well named,
the elements of its draft keep their attributes apart, and so do those of the draft of every page (`keyed_draftOf`).
-/

namespace Hypertemplate.Html

/-- What a rule leaves keeps attributes apart. -/
def Outcome.Keyed (o : Outcome) : Prop := o.builder.Keyed

theorem Outcome.Keyed.ite {c : Prop} [Decidable c] {o₁ o₂ : Outcome} (h₁ : o₁.Keyed) (h₂ : o₂.Keyed) :
    (if c then o₁ else o₂).Keyed := by
  split
  · exact h₁
  · exact h₂

theorem Outcome.Keyed.getD_map {o : Outcome} {b? : Option Builder} {f : Builder → Outcome}
    (h? : ∀ b' ∈ b?, b'.Keyed) (hf : ∀ {b : Builder}, b.Keyed → (f b).Keyed) (h : o.Keyed) :
    ((b?.map f).getD o).Keyed := by
  cases b? with
  | none => exact h
  | some b' => exact hf (h? b' rfl)

namespace Builder

variable {b : Builder} {t : Tag} {x : Token}

attribute [local grind =] insertRaw insertEscapableRaw
attribute [local grind ←] wellNamed_nil

theorem Keyed.ite {c : Prop} [Decidable c] {b₁ b₂ : Builder} (h₁ : b₁.Keyed) (h₂ : b₂.Keyed) :
    (if c then b₁ else b₂).Keyed := by
  split
  · exact h₁
  · exact h₂

theorem Keyed.getD_map {b? : Option Builder} {f : Builder → Builder} (h? : ∀ b' ∈ b?, b'.Keyed)
    (hf : ∀ {b : Builder}, b.Keyed → (f b).Keyed) (h : b.Keyed) : ((b?.map f).getD b).Keyed := by
  cases b? with
  | none => exact h
  | some b' => exact hf (h? b' rfl)

@[grind ←]
theorem Keyed.done (h : b.Keyed) : b.done.Keyed := h

@[grind ←]
theorem Keyed.again (h : b.Keyed) (m : Mode) : (b.again m).Keyed := h.setMode m

@[grind ←]
theorem Keyed.againNatural (h : b.Keyed) : b.againNatural.Keyed := h.again _

/-! ## The head -/

@[grind ←]
theorem Keyed.mergeRoot (h : b.Keyed) (ht : WellNamed t.attributes) : (b.mergeRoot t).Keyed := by
  unfold Builder.mergeRoot
  split
  · next root _ => exact Keyed.ite h (h.withDraft (h.draft.addMissingAttributes root ht))
  · exact h

@[grind ←]
theorem Keyed.startTemplate (h : b.Keyed) (ht : WellNamed t.attributes) : (b.startTemplate t).Keyed := by
  have hopen := (h.insert ht).pushBound.forbidFrames
  exact ⟨hopen.draft, hopen.named⟩

theorem Keyed.leaveTemplate (h : b.Keyed) : b.leaveTemplate.Keyed := by
  have hclear := h.clearFormatting
  exact Keyed.resetMode ⟨hclear.draft, hclear.named⟩

@[grind ←]
theorem Keyed.endTemplate (h : b.Keyed) : b.endTemplate.Keyed :=
  Keyed.ite ((h.closeImplied _).popThroughNamed "template").leaveTemplate h

theorem Keyed.endPage (h : b.Keyed) : b.endPage.Keyed :=
  Outcome.Keyed.ite h ((h.popThroughNamed "template").leaveTemplate.again _)

@[grind →]
theorem Keyed.headStartTag? {b' : Builder} (h : b.Keyed) (ht : WellNamed t.attributes)
    (hstart : b.headStartTag? t = some b') : b'.Keyed := by
  grind [Builder.headStartTag?]

@[grind ←]
theorem Keyed.headStartTag (h : b.Keyed) (ht : WellNamed t.attributes) : (b.headStartTag t).Keyed := by
  rw [Builder.headStartTag]
  cases hstart : b.headStartTag? t with
  | none => exact h
  | some b' => exact h.headStartTag? ht hstart

theorem Keyed.insertHead (h : b.Keyed) (ht : WellNamed t.attributes) : (b.insertHead t).Keyed := by
  have hnew := h.openElement ht
  exact ⟨hnew.draft, hnew.named⟩

theorem Keyed.reenterHead (h : b.Keyed) (ht : WellNamed t.attributes) : (b.reenterHead t).Keyed := by
  unfold Builder.reenterHead
  split
  · next head _ => exact ((h.push head).headStartTag ht).removeOpen head
  · exact h.headStartTag ht

theorem Keyed.initial (h : b.Keyed) (x : Token) : (b.initial x).Keyed := by
  have hold : Keyed { b with oldLayout := true } := ⟨h.draft, h.named⟩
  cases x with
  | comment text => exact h.putCommentIn 0 text
  | startTag | endTag | char | nullChar | doctype | endOfFile => exact .ite h (hold.again _)

theorem Keyed.beforeHtml (h : b.Keyed) (hx : x.IsWellNamed) : (b.beforeHtml x).Keyed := by
  have hmade := (h.insertRoot wellNamed_nil).again .beforeHead
  cases x with
  | comment text => exact h.putCommentIn 0 text
  | startTag t => exact .ite ((h.insertRoot hx).setMode _) hmade
  | endTag name => exact .ite hmade h
  | char | nullChar | doctype | endOfFile => exact .ite h hmade

theorem Keyed.beforeHead (h : b.Keyed) (hx : x.IsWellNamed) : (b.beforeHead x).Keyed := by
  have hmade := (h.insertHead (t := { name := "head" }) wellNamed_nil).again .inHead
  cases x with
  | comment text => exact h.putComment text
  | startTag t => exact .ite (h.mergeRoot hx) (.ite ((h.insertHead hx).setMode _) hmade)
  | endTag name => exact .ite hmade h
  | char | nullChar | doctype | endOfFile => exact .ite h hmade

theorem Keyed.inHead (h : b.Keyed) (hx : x.IsWellNamed) : (b.inHead x).Keyed := by
  have hleft := h.pop.again .afterHead
  cases x with
  | comment text => exact h.putComment text
  | startTag t =>
    refine .ite (h.mergeRoot hx) (.ite h ?_)
    split
    · next b' hstart => exact h.headStartTag? hx hstart
    · exact hleft
  | endTag name => exact .ite (h.pop.setMode _) (.ite h.endTemplate (.ite hleft h))
  | char c => exact .ite (h.putChar c) hleft
  | nullChar | doctype | endOfFile => exact hleft

theorem Keyed.afterHead (h : b.Keyed) (hx : x.IsWellNamed) : (b.afterHead x).Keyed := by
  have hmade := (h.insertNamed "body").again .inBody
  cases x with
  | comment text => exact h.putComment text
  | startTag t =>
    have hnew := h.insert hx
    exact .ite (h.mergeRoot hx) (.ite (hnew.forbidFrames.setMode _) (.ite (hnew.setMode _)
      (.ite (h.reenterHead hx) (.ite h hmade))))
  | endTag name => exact .ite h.endTemplate (.ite hmade h)
  | char c => exact .ite (h.putChar c) hmade
  | nullChar | doctype | endOfFile => exact hmade

/-! ## The body -/

@[grind ←]
theorem Keyed.startItem (h : b.Keyed) (ht : WellNamed t.attributes) : (b.startItem t).Keyed := by
  grind [Builder.startItem]

@[grind ←]
theorem Keyed.startHeading (h : b.Keyed) (ht : WellNamed t.attributes) : (b.startHeading t).Keyed :=
  have hclosed := h.closeParagraphInButton
  (Keyed.ite hclosed.pop hclosed).insert ht

@[grind ←]
theorem Keyed.startForm (h : b.Keyed) (ht : WellNamed t.attributes) : (b.startForm t).Keyed := by
  have hnew := h.closeParagraphInButton.openElement ht
  exact Keyed.ite h (Keyed.ite hnew ⟨hnew.draft, hnew.named⟩)

@[grind ←]
theorem Keyed.startButton (h : b.Keyed) (ht : WellNamed t.attributes) : (b.startButton t).Keyed :=
  have hclosed := Keyed.ite ((h.closeImplied endsByItself).popThroughNamed "button") h
  (hclosed.reopenFormatting.insert ht).forbidFrames

@[grind ←]
theorem Keyed.startNobr (h : b.Keyed) (ht : WellNamed t.attributes) : (b.startNobr t).Keyed :=
  have hopen := h.reopenFormatting
  (Keyed.ite (hopen.endFormatting "nobr").reopenFormatting hopen).openFormatting ht

@[grind ←]
theorem Keyed.startTable (h : b.Keyed) (ht : WellNamed t.attributes) : (b.startTable t).Keyed :=
  ((Keyed.ite h h.closeParagraphInButton).insert ht).forbidFrames.setMode _

@[grind ←]
theorem Keyed.startVoid (h : b.Keyed) (ht : WellNamed t.attributes) : (b.startVoid t).Keyed :=
  have hnew := h.reopenFormatting.insertClosed ht
  Keyed.ite hnew hnew.forbidFrames

@[grind ←]
theorem Keyed.startSelect (h : b.Keyed) (ht : WellNamed t.attributes) : (b.startSelect t).Keyed :=
  (h.reopenFormatting.insert ht).forbidFrames.setMode _

@[grind ←]
theorem Keyed.startFrameset (h : b.Keyed) (ht : WellNamed t.attributes) : (b.startFrameset t).Keyed := by
  unfold Builder.startFrameset
  split
  · exact h
  · split
    · exact h
    · next body _ => exact (((h.withDraft (h.draft.detach body)).withStack _).insert ht).setMode _

@[grind ←]
theorem Keyed.mergeBody (h : b.Keyed) (ht : WellNamed t.attributes) : (b.mergeBody t).Keyed := by
  unfold Builder.mergeBody
  split
  · next body _ => exact Keyed.ite h (h.forbidFrames.withDraft (h.draft.addMissingAttributes body ht))
  · exact h

@[grind ←]
theorem Keyed.startForeign (h : b.Keyed) (ht : WellNamed t.attributes) (vocabulary : Vocabulary) :
    (b.startForeign vocabulary t).Keyed :=
  have hnew := h.putElement vocabulary ht
  Keyed.ite hnew (hnew.push _)

@[grind ←]
theorem Keyed.startRuby (h : b.Keyed) (ht : WellNamed t.attributes) : (b.startRuby t).Keyed :=
  (Keyed.ite h (Keyed.ite (h.closeImplied _) (h.closeImpliedExcept _))).insert ht

/-- What a start tag does in the body depends on its name only. -/
theorem Keyed.bodyStartTag (h : b.Keyed) (ht : WellNamed t.attributes) : (b.bodyStartTag t).Keyed := by
  unfold Builder.bodyStartTag
  dsimp only
  repeat' with_reducible apply Keyed.ite
  all_goals grind

@[grind ←]
theorem Keyed.endNamed (h : b.Keyed) (name : String) {after : Builder → Builder}
    (hafter : ∀ {b : Builder}, b.Keyed → (after b).Keyed) : (b.endNamed name after).Keyed :=
  Keyed.ite (hafter ((h.closeImplied _).popThroughNamed name)) h

@[grind ←]
theorem Keyed.endForm (h : b.Keyed) : b.endForm.Keyed := by
  grind [Builder.endForm]

@[grind ←]
theorem Keyed.endParagraph (h : b.Keyed) : b.endParagraph.Keyed :=
  (Keyed.ite h (h.insertNamed "p")).closeParagraph

@[grind ←]
theorem Keyed.endItem (h : b.Keyed) (name : String) : (b.endItem name).Keyed := Keyed.ite (h.closeNamed name) h

@[grind ←]
theorem Keyed.endHeading (h : b.Keyed) : b.endHeading.Keyed := Keyed.ite ((h.closeImplied _).popThrough _) h

theorem Keyed.bodyEndTag (h : b.Keyed) (name : String) : (b.bodyEndTag name).Keyed := by
  unfold Builder.bodyEndTag
  repeat' with_reducible apply Outcome.Keyed.ite
  all_goals grind

theorem Keyed.inBody (h : b.Keyed) (hx : x.IsWellNamed) : (b.inBody x).Keyed := by
  cases x with
  | char c => exact (h.reopenFormatting.noteChar c).putChar c
  | comment text => exact h.putComment text
  | startTag t => exact h.bodyStartTag hx
  | endTag name => exact h.bodyEndTag name
  | endOfFile => exact h.endPage
  | nullChar | doctype => exact h

theorem Keyed.inText (h : b.Keyed) (x : Token) : (b.inText x).Keyed := by
  cases x with
  | char c => exact h.putChar c
  | endOfFile => exact h.pop.again b.returnMode
  | endTag name => exact h.pop.setMode b.returnMode
  | startTag | comment | nullChar | doctype => exact h

/-! ## Tables and selects -/

theorem Keyed.foster (h : b.Keyed) (hx : x.IsWellNamed) : (b.foster x).Keyed := by
  have hbody := Keyed.inBody (b := { b with fosters := true }) ⟨h.draft, h.named⟩ hx
  exact ⟨hbody.draft, hbody.named⟩

theorem Keyed.charInTable (h : b.Keyed) (hx : x.IsWellNamed) : (b.charInTable x).Keyed := by
  have hkept : Keyed { b with returnMode := b.mode } := ⟨h.draft, h.named⟩
  exact .ite (hkept.again _) (h.foster hx)

/-- The characters that a table keeps are put one by one. -/
theorem Keyed.releaseTableText (h : b.Keyed) : b.releaseTableText.Keyed := by
  have hstart : Keyed { b with tableText := [] } := ⟨h.draft, h.named⟩
  unfold Builder.releaseTableText
  dsimp only
  split
  · exact List.foldlRecOn _ _ hstart fun _ hb c _ => hb.putChar c
  · exact List.foldlRecOn _ _ hstart fun _ hb c _ => hb.foster trivial

theorem Keyed.inTableText (h : b.Keyed) (x : Token) : (b.inTableText x).Keyed := by
  cases x with
  | char c => exact ⟨h.draft, h.named⟩
  | nullChar => exact h
  | startTag | endTag | comment | doctype | endOfFile => exact h.releaseTableText.again b.returnMode

theorem Keyed.inTableStartTag (h : b.Keyed) (ht : WellNamed t.attributes) : (b.inTableStartTag t).Keyed := by
  have hfoster := h.foster (x := .startTag t) ht
  unfold Builder.inTableStartTag
  dsimp only
  repeat' with_reducible apply Outcome.Keyed.ite
  all_goals grind [backToTable]

theorem Keyed.inTable (h : b.Keyed) (hx : x.IsWellNamed) : (b.inTable x).Keyed := by
  cases x with
  | char | nullChar => exact h.charInTable hx
  | comment text => exact h.putComment text
  | startTag t => exact h.inTableStartTag hx
  | endTag name =>
    have hclosed := (h.popThroughNamed "table").resetMode
    exact .ite (.ite hclosed h) (.ite h (.ite h.endTemplate (h.foster hx)))
  | endOfFile => exact h.endPage
  | doctype => exact h

theorem Keyed.closeCaption? (h : b.Keyed) : ∀ b' ∈ b.closeCaption?, b'.Keyed := by
  grind [Builder.closeCaption?]

theorem Keyed.inCaption (h : b.Keyed) (hx : x.IsWellNamed) : (b.inCaption x).Keyed := by
  have hleave : Outcome.Keyed ((b.closeCaption?.map (·.again .inTable)).getD b.done) :=
    .getD_map h.closeCaption? (fun hb => hb.again _) h
  cases x with
  | startTag t => exact .ite hleave (h.inBody hx)
  | endTag name =>
    have hclosed : Keyed ((b.closeCaption?.map (·.setMode .inTable)).getD b) :=
      .getD_map h.closeCaption? (fun hb => hb.setMode _) h
    exact .ite hclosed.done (.ite hleave (.ite h (h.inBody hx)))
  | char | nullChar | comment | doctype | endOfFile => exact h.inBody hx

theorem Keyed.inColumnGroup (h : b.Keyed) (hx : x.IsWellNamed) : (b.inColumnGroup x).Keyed := by
  have hleave : Outcome.Keyed (if b.currentNamed "colgroup" then b.pop.again .inTable else b.done) :=
    .ite (h.pop.again _) h
  cases x with
  | char c => exact .ite (h.putChar c) hleave
  | comment text => exact h.putComment text
  | startTag t => exact .ite (h.mergeRoot hx) (.ite (h.insertClosed hx) (.ite (h.startTemplate hx) hleave))
  | endTag name =>
    have hclosed : Keyed (if b.currentNamed "colgroup" then b.pop.setMode .inTable else b) :=
      .ite (h.pop.setMode _) h
    exact .ite hclosed.done (.ite h (.ite h.endTemplate hleave))
  | endOfFile => exact h.endPage
  | nullChar | doctype => exact hleave

theorem Keyed.inTableBody (h : b.Keyed) (hx : x.IsWellNamed) : (b.inTableBody x).Keyed := by
  have hclosed : b.closeSection.Keyed := (h.popUntil _).pop
  have hleave : Outcome.Keyed (if b.inScope boundsTable (b.isIn (oneOf ["table", "tbody", "tfoot"])) then
      b.closeSection.again .inTable else b.done) := .ite (hclosed.again _) h
  have hsection := h.popUntil isTableSection
  cases x with
  | startTag t =>
    exact .ite ((hsection.insert hx).setMode _) (.ite ((hsection.insertNamed "tr").again _)
      (.ite hleave (h.inTable hx)))
  | endTag name =>
    exact .ite (Keyed.done (.ite (hclosed.setMode _) h)) (.ite hleave (.ite h (h.inTable hx)))
  | char | nullChar | comment | doctype | endOfFile => exact h.inTable hx

theorem Keyed.closeRow? (h : b.Keyed) : ∀ b' ∈ b.closeRow?, b'.Keyed := by
  grind [Builder.closeRow?]

theorem Keyed.inRow (h : b.Keyed) (hx : x.IsWellNamed) : (b.inRow x).Keyed := by
  have hleave : Outcome.Keyed ((b.closeRow?.map (·.again .inTableBody)).getD b.done) :=
    .getD_map h.closeRow? (fun hb => hb.again _) h
  cases x with
  | startTag t =>
    exact .ite (((h.popUntil _).insert hx).setMode _).pushBound (.ite hleave (h.inTable hx))
  | endTag name =>
    have hclosed : Keyed ((b.closeRow?.map (·.setMode .inTableBody)).getD b) :=
      .getD_map h.closeRow? (fun hb => hb.setMode _) h
    exact .ite hclosed.done (.ite hleave (.ite (.ite hleave h) (.ite h (h.inTable hx))))
  | char | nullChar | comment | doctype | endOfFile => exact h.inTable hx

theorem Keyed.inCell (h : b.Keyed) (hx : x.IsWellNamed) : (b.inCell x).Keyed := by
  have hclosed : b.closeCell.Keyed := ((h.closeImplied _).popThrough _).clearFormatting
  cases x with
  | startTag t => exact .ite (.ite (hclosed.again _) h) (h.inBody hx)
  | endTag name =>
    have hended := ((h.closeImplied endsByItself).popThroughNamed name).clearFormatting.setMode .inRow
    exact .ite (.ite hended h) (.ite h (.ite (.ite (hclosed.again _) h) (h.inBody hx)))
  | char | nullChar | comment | doctype | endOfFile => exact h.inBody hx

theorem Keyed.closeOption (h : b.Keyed) (groups : Bool) : (b.closeOption groups).Keyed := by
  have hclosed : Keyed (if b.currentNamed "option" then b.pop else b) := .ite h.pop h
  exact .ite hclosed.pop hclosed

theorem Keyed.endOptionGroup (h : b.Keyed) : b.endOptionGroup.Keyed := by
  grind [Builder.endOptionGroup]

theorem Keyed.closeSelect? (h : b.Keyed) : ∀ b' ∈ b.closeSelect?, b'.Keyed := by
  grind [Builder.closeSelect?]

theorem Keyed.inSelect (h : b.Keyed) (hx : x.IsWellNamed) : (b.inSelect x).Keyed := by
  have hclosed : Keyed ((b.closeSelect?.map Builder.resetMode).getD b) :=
    .getD_map h.closeSelect? (fun hb => hb.resetMode) h
  cases x with
  | char c => exact h.putChar c
  | comment text => exact h.putComment text
  | startTag t =>
    have hleave : Outcome.Keyed ((b.closeSelect?.map Builder.againNatural).getD b.done) :=
      .getD_map h.closeSelect? (fun hb => hb.againNatural) h
    exact .ite (h.mergeRoot hx) (.ite ((h.closeOption false).insert hx) (.ite ((h.closeOption true).insert hx)
      (.ite ((h.closeOption true).insertClosed hx) (.ite hclosed.done (.ite hleave (.ite (h.headStartTag hx) h))))))
  | endTag name =>
    exact .ite h.endOptionGroup (.ite (h.closeOption false) (.ite hclosed.done (.ite h.endTemplate h)))
  | endOfFile => exact h.endPage
  | nullChar | doctype => exact h

theorem Keyed.inSelectInTable (h : b.Keyed) (hx : x.IsWellNamed) : (b.inSelectInTable x).Keyed := by
  have hleave := (h.popThroughNamed "select").againNatural
  cases x with
  | startTag t => exact .ite hleave (h.inSelect hx)
  | endTag name => exact .ite (.ite hleave h) (h.inSelect hx)
  | char | nullChar | comment | doctype | endOfFile => exact h.inSelect hx

/-! ## Templates, framesets and the end of a page -/

theorem Keyed.inTemplate (h : b.Keyed) (hx : x.IsWellNamed) : (b.inTemplate x).Keyed := by
  cases x with
  | char | comment => exact h.inBody hx
  | startTag t =>
    have hmode : Keyed { b with templateModes := templateModeFor t.name :: b.templateModes.drop 1 } :=
      ⟨h.draft, h.named⟩
    exact .ite (h.headStartTag hx) (hmode.again _)
  | endTag name => exact .ite h.endTemplate h
  | endOfFile => exact h.endPage
  | nullChar | doctype => exact h

theorem Keyed.afterBody (h : b.Keyed) (hx : x.IsWellNamed) : (b.afterBody x).Keyed := by
  cases x with
  | comment text => exact h.putCommentIn _ text
  | endOfFile => exact h
  | startTag t => exact .ite (h.mergeRoot hx) (h.again _)
  | endTag name => exact .ite (h.setMode _) (h.again _)
  | char | nullChar | doctype => exact .ite (h.inBody hx) (h.again _)

theorem Keyed.afterAfterBody (h : b.Keyed) (hx : x.IsWellNamed) : (b.afterAfterBody x).Keyed := by
  cases x with
  | comment text => exact h.putCommentIn 0 text
  | endOfFile => exact h
  | startTag t => exact .ite (h.mergeRoot hx) (h.again _)
  | endTag | char | nullChar | doctype => exact .ite (h.inBody hx) (h.again _)

theorem Keyed.inFrameset (h : b.Keyed) (hx : x.IsWellNamed) : (b.inFrameset x).Keyed := by
  cases x with
  | char c => exact Keyed.done (.ite (h.putChar c) h)
  | comment text => exact h.putComment text
  | startTag t =>
    exact .ite (h.mergeRoot hx) (.ite (h.insert hx) (.ite (h.insertClosed hx) (.ite (h.headStartTag hx) h)))
  | endTag name => exact .ite (Keyed.done (.ite h.pop (h.pop.setMode _))) h
  | nullChar | doctype | endOfFile => exact h

theorem Keyed.afterFrameset (h : b.Keyed) (hx : x.IsWellNamed) : (b.afterFrameset x).Keyed := by
  cases x with
  | char c => exact Keyed.done (.ite (h.putChar c) h)
  | comment text => exact h.putComment text
  | startTag t => exact .ite (h.mergeRoot hx) (.ite (h.headStartTag hx) h)
  | endTag name => exact Keyed.done (.ite (h.setMode _) h)
  | nullChar | doctype | endOfFile => exact h

theorem Keyed.afterAfterFrameset (h : b.Keyed) (hx : x.IsWellNamed) : (b.afterAfterFrameset x).Keyed := by
  cases x with
  | char c => exact .ite (h.inBody hx) h
  | comment text => exact h.putCommentIn 0 text
  | startTag t => exact .ite (h.mergeRoot hx) (.ite (h.headStartTag hx) h)
  | endTag | nullChar | doctype | endOfFile => exact h

/-! ## All modes -/

theorem Keyed.step (h : b.Keyed) (hx : x.IsWellNamed) : (b.step x).Keyed := by
  unfold Builder.step
  cases b.mode with
  | initial => exact h.initial x
  | beforeHtml => exact h.beforeHtml hx
  | beforeHead => exact h.beforeHead hx
  | inHead => exact h.inHead hx
  | afterHead => exact h.afterHead hx
  | inBody => exact h.inBody hx
  | text => exact h.inText x
  | inTable => exact h.inTable hx
  | inTableText => exact h.inTableText x
  | inCaption => exact h.inCaption hx
  | inColumnGroup => exact h.inColumnGroup hx
  | inTableBody => exact h.inTableBody hx
  | inRow => exact h.inRow hx
  | inCell => exact h.inCell hx
  | inSelect => exact h.inSelect hx
  | inSelectInTable => exact h.inSelectInTable hx
  | inTemplate => exact h.inTemplate hx
  | afterBody => exact h.afterBody hx
  | inFrameset => exact h.inFrameset hx
  | afterFrameset => exact h.afterFrameset hx
  | afterAfterBody => exact h.afterAfterBody hx
  | afterAfterFrameset => exact h.afterAfterFrameset hx

theorem Keyed.foreignEndTag (h : b.Keyed) (name : String) : (b.foreignEndTag name).Keyed := by
  have hend := h.step (x := .endTag name) trivial
  have hgo : ∀ first stack, (foreignEndTag.go b name first stack).Keyed := by
    intro first stack
    induction stack generalizing first with
    | nil => exact h
    | cons i rest ih =>
      cases rest with
      | nil => exact h
      | cons j rest => grind [foreignEndTag.go]
  exact hgo true b.stack

theorem Keyed.foreign (h : b.Keyed) (hx : x.IsWellNamed) : (b.foreign x).Keyed := by
  have hleft : b.leaveForeign.Keyed := h.popUntil _
  cases x with
  | nullChar => exact h.putText _
  | char c => exact (h.noteChar c).putChar c
  | comment text => exact h.putComment text
  | startTag t => exact .ite (hleft.step hx) (h.startForeign hx _)
  | endTag name => exact .ite (hleft.step hx) (h.foreignEndTag name)
  | endOfFile | doctype => exact h

/-! ## Whole pages -/

theorem Keyed.handle (hx : x.IsWellNamed) (bound : Nat) : ∀ {b : Builder}, b.Keyed → (handle bound b x).Keyed := by
  induction bound with
  | zero => exact fun h => h
  | succ bound ih =>
    intro b h
    unfold Builder.handle
    extract_lets outcome
    have hrule : outcome.Keyed := Outcome.Keyed.ite (h.foreign hx) (h.step hx)
    exact Keyed.ite (ih hrule) hrule

theorem Keyed.takeDoctype (h : b.Keyed) (d : Doctype) : (b.takeDoctype d).Keyed := by
  have hnew := h.create (.doctype (d.name.getD "")) trivial
  exact Keyed.ite ⟨hnew.draft.append _ _, hnew.named⟩ h

theorem Keyed.feed (h : b.Keyed) (hx : x.IsWellNamed) : (b.feed x).Keyed := by
  have hread : Keyed { b with skipsLineFeed := false } := ⟨h.draft, h.named⟩
  unfold Builder.feed
  dsimp only
  split
  · exact hread.takeDoctype _
  · exact Keyed.ite hread (hread.handle hx _)
  · exact hread.handle hx _

/-- The builder is fed the tokens that are cut from a text, and their tags are well named. -/
theorem Keyed.readAll (bound : Nat) : ∀ {b : Builder} {cs : List Char}, b.Keyed → (readAll bound b cs).Keyed := by
  induction bound with
  | zero => exact fun h => h
  | succ bound ih =>
    intro b cs h
    cases cs with
    | nil => exact h.feed trivial
    | cons c rest =>
      have htokens := wellNamed_lex b.reading b.isForeign c rest
      have hread : Keyed { b with reading := (lex b.reading b.isForeign c rest).mode } := ⟨h.draft, h.named⟩
      exact ih (List.foldlRecOn _ _ hread fun _ hb x hx => hb.feed (htokens x hx))

end Builder

/-- The elements of the draft of a page keep their attributes apart. -/
theorem keyed_draftOf (html : String) : (draftOf html).Keyed :=
  (Builder.Keyed.readAll _ ⟨Draft.keyed_start, entriesNamed_nil⟩).draft

end Hypertemplate.Html
