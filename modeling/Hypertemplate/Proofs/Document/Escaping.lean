import Hypertemplate.Proofs.Document.Printing
import Hypertemplate.Proofs.Text.Entities

/-!
# Escaping

The characters of texts and of attribute values are written one by one. This is the same as replacing one character
after the other in the whole text, the ampersand first (`escapes_lossless`): what is written for an ampersand has none
of the other characters, and the ampersands that are written later are no longer replaced. A text that looks like an
entity is kept: it is read back as it was.
-/

namespace Hypertemplate.Document

open Hypertemplate.Text

/-- What is written for characters of a text. -/
def textEntities : Entities where
  list := [('&', "&amp;"), ('<', "&lt;"), ('>', "&gt;")]
  escapes_ampersand := ⟨_, List.mem_cons_self, rfl⟩
  starts := by decide
  in_order := by decide
  apart := by decide

/-- What is written for characters of an attribute value. -/
def attributeEntities : Entities where
  list := [('&', "&amp;"), ('"', "&quot;")]
  escapes_ampersand := ⟨_, List.mem_cons_self, rfl⟩
  starts := by decide
  in_order := by decide
  apart := by decide

theorem escapeText_eq_write (t : String) : escapeText t = textEntities.write t := by
  have hchar : escapeTextChar = written textEntities.list := by
    funext c
    simp only [escapeTextChar, textEntities, written_cons]
    rfl
  rw [escapeText, hchar, Entities.write]

theorem escapeAttribute_eq_write (t : String) : escapeAttribute t = attributeEntities.write t := by
  have hchar : escapeAttributeChar = written attributeEntities.list := by
    funext c
    simp only [escapeAttributeChar, attributeEntities, written_cons]
    rfl
  rw [escapeAttribute, hchar, Entities.write]

/-- Escaping a text is replacing `&`, `<` and `>` one after the other, and escaping an attribute value is replacing `&`
and the double quote. The result has none of these characters but ampersands that start an entity. Replacing the
entities back, all at once, gives the text. -/
theorem escapes_lossless (t : String) :
    (escapeText t = ((t.replace '&' "&amp;").replace '<' "&lt;").replace '>' "&gt;" ∧
      '<' ∉ (escapeText t).toList ∧ '>' ∉ (escapeText t).toList ∧
      (∀ after, '&' :: after <:+ (escapeText t).toList →
        ∃ e ∈ ["&amp;", "&lt;", "&gt;"], e.toList <+: '&' :: after) ∧
      textEntities.restore (escapeText t) = t) ∧
    (escapeAttribute t = (t.replace '&' "&amp;").replace '"' "&quot;" ∧
      '"' ∉ (escapeAttribute t).toList ∧
      (∀ after, '&' :: after <:+ (escapeAttribute t).toList →
        ∃ e ∈ ["&amp;", "&quot;"], e.toList <+: '&' :: after) ∧
      attributeEntities.restore (escapeAttribute t) = t) := by
  rw [escapeText_eq_write, escapeAttribute_eq_write]
  refine ⟨⟨(textEntities.replaceInTurn_eq_write t).symm, ?_, ?_, fun after h => ?_, textEntities.restore_write t⟩,
    (attributeEntities.replaceInTurn_eq_write t).symm, ?_, fun after h => ?_, attributeEntities.restore_write t⟩
  · exact Entities.not_mem_write ⟨('<', "&lt;"), by decide, rfl⟩ (by decide) t
  · exact Entities.not_mem_write ⟨('>', "&gt;"), by decide, rfl⟩ (by decide) t
  · obtain ⟨e, he, hpre⟩ := textEntities.ampersand_starts t h
    exact ⟨e.2, List.mem_map_of_mem he, hpre⟩
  · exact Entities.not_mem_write ⟨('"', "&quot;"), by decide, rfl⟩ (by decide) t
  · obtain ⟨e, he, hpre⟩ := attributeEntities.ampersand_starts t h
    exact ⟨e.2, List.mem_map_of_mem he, hpre⟩

example : escapeText "1 &lt; 2 < 3" = "1 &amp;lt; 2 &lt; 3" := by decide

end Hypertemplate.Document
