import Hypertemplate.Document.Print
import Hypertemplate.Proofs.Document.Tree

/-!
# Printing trees

Markup is one way of writing the parts of a document one after the other (`Writing`). Other ways leave parts
out, which tells what each part contributes. What is written of a node of a sound document is read off the
tree of the node (`Sound.toList_write`), so that it can be proved by recursion on the tree.
-/

namespace Hypertemplate

/-- How the parts of a document are written; of a text it matters whether texts are written as they are. -/
structure Writing where
  text : (raw : Bool) → String → String
  comment : String → String
  startTag : (name : String) → (attributes : List (String × String)) → String
  endTag : (name : String) → String

/-- Markup. -/
def Writing.html : Writing where
  text raw t := if raw then t else Document.escapeText t
  comment t := "<!--" ++ t ++ "-->"
  startTag name attributes := Document.startTag { name, attributes }
  endTag name := "</" ++ name ++ ">"

namespace Tree

mutual
/-- The characters that are written of a tree; `raw` says whether texts are written as they are. -/
def write (w : Writing) (raw : Bool) : Tree → List Char
  | .node k content children =>
    match k with
    | .document | .fragment => writeList w raw children
    | .text t => (w.text raw t).toList
    | .comment t => (w.comment t).toList
    | .element e =>
      if Document.isVoid e.name then (w.startTag e.name e.attributes).toList
      else (w.startTag e.name e.attributes).toList ++ writeContent w content ++
        writeList w (Document.isRawText e.name) children ++ (w.endTag e.name).toList

/-- What is written of a template's content. -/
def writeContent (w : Writing) : Option Tree → List Char
  | none => []
  | some t => t.write w false

/-- What is written of trees one after the other. -/
def writeList (w : Writing) (raw : Bool) : List Tree → List Char
  | [] => []
  | t :: ts => t.write w raw ++ writeList w raw ts
end

theorem writeList_eq_flatMap (w : Writing) (raw : Bool) (ts : List Tree) :
    writeList w raw ts = ts.flatMap (write w raw) := by
  induction ts with
  | nil => rfl
  | cons t rest ih => rw [writeList, ih, List.flatMap_cons]

end Tree

namespace Document

variable {d : Document} {i : NodeId} {w : Writing}

/-- Text that is not written as it is neither starts nor ends a tag. -/
theorem ne_of_mem_escapeTextChar {a c : Char} (h : c ∈ escapeTextChar a) : c ≠ '<' ∧ c ≠ '>' := by
  unfold escapeTextChar at h
  grind

/-- What is written of a node and of what is at most `depth` levels deep. -/
def write (d : Document) (w : Writing) : (depth : Nat) → (raw : Bool) → NodeId → String
  | 0, _, _ => ""
  | depth + 1, raw, i =>
    match d.kind i with
    | .document | .fragment => String.join ((d.children i).map (write d w depth raw))
    | .text t => w.text raw t
    | .comment t => w.comment t
    | .element e =>
      if isVoid e.name then w.startTag e.name e.attributes
      else
        w.startTag e.name e.attributes ++
          ((e.content.map (write d w depth false)).getD "") ++
          String.join ((d.children i).map (write d w depth (isRawText e.name))) ++
          w.endTag e.name

theorem markup_eq_write (d : Document) (n : Nat) : ∀ raw i, d.markup n raw i = d.write .html n raw i := by
  induction n with
  | zero => exact fun _ _ => rfl
  | succ n ih =>
    intro raw i
    have hsame : d.markup n = d.write .html n := funext fun raw => funext fun i => ih raw i
    rw [markup, write, hsame]
    cases d.kind i with
    | element e =>
      have htag : startTag e = Writing.html.startTag e.name e.attributes := rfl
      simp only [htag, Writing.html, String.append_assoc]
    | _ => rfl

/-- What is written of nodes one after the other is what is written of their trees, if it is so for each of
them. -/
theorem toList_join_write {f : NodeId → String} {raw : Bool} {is : List NodeId}
    (h : ∀ i ∈ is, (f i).toList = (d.tree i).write w raw) :
    (String.join (is.map f)).toList = Tree.writeList w raw (is.map d.tree) := by
  rw [String.toList_join, List.flatMap_map, Tree.writeList_eq_flatMap, List.flatMap_map,
    List.flatMap_def, List.flatMap_def]
  congr 1
  exact List.map_congr_left h

/-- What is written of a node is what is written of its tree. -/
theorem Sound.toList_write (h : d.Sound) (w : Writing) (i : NodeId) :
    ∀ n raw, d.rank i < n → (d.write w n raw i).toList = (d.tree i).write w raw := by
  intro n raw hn
  refine h.induction_within (motive := fun n i => ∀ raw, (d.write w n raw i).toList = (d.tree i).write w raw)
    (fun p n hnode raw => ?_) i n hn raw
  have hlist : ∀ raw, (String.join ((d.children p).map (d.write w n raw))).toList =
      Tree.writeList w raw ((d.children p).map d.tree) := fun raw =>
    toList_join_write fun c hc => hnode c (owns_iff.mpr (Or.inl hc)) raw
  have hcontent : (((d.content? p).map (d.write w n false)).getD "").toList =
      Tree.writeContent w ((d.content? p).map d.tree) := by
    cases hc : d.content? p with
    | none => rfl
    | some c => exact hnode c (owns_iff.mpr (Or.inr hc)) false
  rw [content?_eq, ← kind_eq] at hcontent
  rw [h.tree_eq, content?_eq, ← kind_eq, write]
  cases hk : d.kind p with
  | document | fragment => exact hlist raw
  | text t | comment t => simp only [Kind.plain, Tree.write]
  | element e =>
    rw [hk] at hcontent
    simp only [contentOf?] at hcontent
    simp only [Kind.plain, Tree.write, contentOf?]
    split
    · rfl
    · simp only [String.toList_append, hlist, hcontent]

theorem Sound.toList_outerHtml (h : d.Sound) (i : NodeId) :
    (d.outerHtml i).toList = (d.tree i).write .html false := by
  rw [outerHtml, markup_eq_write]
  exact h.toList_write .html i _ false (Nat.lt_succ_of_le (rank_le_size d i))

/-- The markup of a node's children. -/
theorem Sound.toList_innerHtml (h : d.Sound) (i : NodeId) : (d.innerHtml i).toList =
    Tree.writeList .html (((d.tagName? i).map isRawText).getD false) (d.tree i).children := by
  rw [innerHtml, h.children_tree]
  apply toList_join_write
  intro c _
  rw [markup_eq_write]
  exact h.toList_write .html c _ _ (Nat.lt_succ_of_le (rank_le_size d c))

/-- The markup of a document is that of its type and of what is below the root. -/
theorem Sound.toList_toHtml (h : d.Sound) :
    d.toHtml.toList = ((d.doctype.map fun name => "<!DOCTYPE " ++ name ++ ">").getD "").toList ++
      Tree.writeList .html false (d.tree root).children := by
  have hbelow : (String.join ((d.children root).map (d.markup d.depthBound false))).toList =
      Tree.writeList .html false ((d.children root).map d.tree) :=
    toList_join_write fun c _ => h.toList_outerHtml c
  rw [toHtml, String.toList_append, h.children_tree, hbelow]

end Document

end Hypertemplate
