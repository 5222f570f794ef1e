import Hypertemplate.Proofs.Html.Settle
import Hypertemplate.Proofs.Template.Fill

/-!
# Rendering a fragment

`renderFragment_refines`: rendering a template makes one new fragment, whose children are those of the filled
trees of the template's content, one tree for each item. Nothing else in the document changes, and nothing
that was needed on the way stays behind.
-/

namespace Hypertemplate.Document

open Json

variable {d d' : Document} {c i j f template content : NodeId} {marker : String}

/-! ## What hangs on to what -/

/-- Above every live node there is one without owner. -/
theorem Sound.exists_orphan (h : d.Sound) (hj : d.isLive j = true) :
    ∃ a, d.Orphan a ∧ d.Under a j := by
  -- A node without owner above `j` has the greatest rank among the nodes above it.
  have key : ∀ n i, d.nodes.size - d.rank i ≤ n → d.isLive i = true → ∃ a, d.Orphan a ∧ d.Under a i := by
    intro n
    induction n with
    | zero =>
      intro i hn hi
      refine ⟨i, ⟨hi, fun p hp => ?_⟩, Under.refl⟩
      have hlt := h.rank_lt hp
      have hle := rank_le_size d p
      omega
    | succ n ih =>
      intro i hn hi
      by_cases ho : ∃ p, d.Owns p i
      · obtain ⟨p, hp⟩ := ho
        have hlt := h.rank_lt hp
        have hle := rank_le_size d p
        obtain ⟨a, ha, hap⟩ := ih p (by omega) (h.live_of_owns hp).1
        exact ⟨a, ha, hap.tail hp⟩
      · exact ⟨i, ⟨hi, fun p hp => ho ⟨p, hp⟩⟩, Under.refl⟩
  exact key _ j (Nat.le_refl _) hj

/-- With a live root nothing is new but what is below the node that was made. -/
theorem Made.isLive_cases (m : Made d c d') (h : d.WellFormed) (hr : d.isLive root = true)
    (hj : d'.isLive j = true) : d.isLive j = true ∨ d'.Under c j := by
  obtain ⟨a, ho, hu⟩ := m.sound.exists_orphan hj
  rcases m.orphan_cases ho with rfl | ha
  · exact Or.inr hu
  · have hal : d.isLive a = true := by
      rcases ha with ha | rfl | ha
      · exact ha.live
      · exact hr
      · exact h.pinned_live ha
    exact Or.inl (h.live_of_under hal ((m.ext.under_iff h.sound hal).mp hu))

/-! ## One item after the other -/

/-- Every item adds the children of the filled content to the fragment. -/
theorem growing_items (marker : String) (h : d.Sound) (hc : d.isLive content = true)
    (hk : d.kind content = .fragment) {kind : Kind} {inner : Option Tree} (items : List Value) :
    ∀ {trees d'}, Growing d f kind inner trees d' →
      Growing d f kind inner
        (trees ++ items.flatMap fun item => ((d.tree content).instantiate marker item).children)
        (items.foldl (fun d item =>
          (((d.cloneNode content true).2.fill marker (d.cloneNode content true).1 item).appendChild f
            (d.cloneNode content true).1).release (d.cloneNode content true).1) d') := by
  induction items with
  | nil =>
    intro trees d' g
    simpa using g
  | cons item rest ih =>
    intro trees d' g
    have h' := g.made.sound
    have k := copied_cloneNode h' (g.made.ext.isLive hc)
    have r := fills_fill marker item k.sound k.orphan.live
    have hfragment := (r.kind_eq_fragment_iff k.sound).mpr ((k.kind_eq_fragment_iff h').mpr (by
      rw [kind_eq, g.made.ext.node_eq hc, ← kind_eq, hk]))
    have hg := g.spend h (k.toMade.rewritten h' r.toRewritten) hfragment
    rw [← r.sound.children_tree, r.tree_eq, k.tree_eq, g.made.ext.tree_eq h h' hc] at hg
    have := ih hg
    simpa using this

/-- Rendering makes a new fragment with the children of the filled trees. -/
theorem growing_renderFragment (h : d.Sound) (hc : d.content? template = some content)
    (marker : String) (data : Value) :
    ∃ fragment d', d.renderFragment marker template data =
        some ((fragment, (renderItems data).length), d') ∧
      Growing d fragment .fragment none
        ((renderItems data).flatMap fun item => ((d.tree content).instantiate marker item).children)
        d' := by
  have hnode : d.createFragment.2.node d.createFragment.1 = { kind := .fragment } :=
    (allocated_allocate h.accounted .fragment).node_self
  have start : Growing d d.createFragment.1 .fragment none [] d.createFragment.2 :=
    { made := made_createFragment h
      kind_eq := by rw [kind_eq, hnode]; rfl
      content_eq := by rw [content?_eq, hnode]; rfl
      trees_eq := by rw [children_eq, hnode]; rfl }
  have g := growing_items marker h (h.live_of_content hc) (h.kind_of_content hc) (renderItems data) start
  rw [List.nil_append] at g
  exact ⟨d.createFragment.1, _, by simp only [renderFragment, hc, Option.map_some], g⟩

/-- Rendering in place gives what filling the content's tree gives: a new fragment without owner, whose
children are those of the filled trees in the order of the items. All nodes that were there are as they were,
with their owners, and with a live root nothing is new but the fragment and what is below it. -/
theorem renderFragment_refines (h : d.WellFormed) (hc : d.content? template = some content)
    (marker : String) (data : Value) :
    ∃ fragment d', d.renderFragment marker template data =
        some ((fragment, (renderItems data).length), d') ∧
      d'.WellFormed ∧
      d.isLive fragment = false ∧ d'.isLive fragment = true ∧ d'.parent fragment = none ∧
      (∀ p, ¬ d'.Owns p fragment) ∧
      d'.tree fragment = .node .fragment none
        ((renderItems data).flatMap fun item =>
          ((d.tree content).instantiate marker item).children) ∧
      (∀ j, d.isLive j = true → d'.node j = d.node j ∧ ∀ p, d'.Owns p j ↔ d.Owns p j) ∧
      d'.pinned = d.pinned ∧
      (d.isLive root = true → ∀ j, d'.isLive j = true → d.isLive j = true ∨ d'.Under fragment j) := by
  obtain ⟨fragment, d', hrender, g⟩ := growing_renderFragment h.sound hc marker data
  have m := g.made
  exact ⟨fragment, d', hrender, m.wellFormed h, m.fresh, m.orphan.live,
    m.sound.parent_of_orphan m.orphan, m.orphan.unowned, g.tree_eq,
    fun j hj => ⟨m.ext.node_eq hj, fun p => m.ext.owns_iff h.sound hj⟩, m.ext.pinned_eq,
    fun hr j hj => m.isLive_cases h hr hj⟩

/-- Two items through a template with a text, a comment, a repeated element, an element whose marker names no array, and
another template. -/
theorem renderFragment_refines_nested :
    let d := parse ("<template><p title=${t}>${t}<!--${t}--></p><ul data-nested-array=xs><li>${n}</li></ul>" ++
      "<b data-nested-array=t>${t}<i>${t}</i></b><template>${t}</template></template>")
    let items : List Value :=
      [.object [("t", .string "u"), ("xs", .array [.object [("n", .string "v")], .object [("n", .bool true)]])],
        .object [("t", .string "<w>"), ("xs", .array [])]]
    let text (t : String) : Tree := .node (.text t) none []
    let element (name : String) (attributes : List (String × String)) (children : List Tree) : Tree :=
      .node (.element { name, attributes }) none children
    let paragraph (t : String) := element "p" [("title", "${t}")] [text t, .node (.comment "${t}") none []]
    let list (n : String) := element "ul" [("data-nested-array", "xs")] [element "li" [] [text n]]
    let bold (t : String) := element "b" [("data-nested-array", "t")] [text "${t}", element "i" [] [text t]]
    let inner : Tree := .node (.element { name := "template" }) (some (.node .fragment none [text "${t}"])) []
    d.WellFormed ∧ d.content? 4 = some 3 ∧
      ∃ fragment d', d.renderFragment "data-nested-array" 4 (.array items) = some ((fragment, 2), d') ∧
        d'.tree fragment = .node .fragment none
          [paragraph "u", element "div" [] [list "v", list "true"], bold "u", inner,
            paragraph "<w>", element "div" [] [], bold "<w>", inner] ∧
        ∀ j, d.isLive j = true → d'.node j = d.node j := by
  intro d items text element paragraph list bold inner
  have hw : d.WellFormed := wellFormed_parse _
  have hc : d.content? 4 = some 3 := by decide +kernel
  obtain ⟨fragment, d', hrender, -, -, -, -, -, htree, hold, -⟩ :=
    renderFragment_refines hw hc "data-nested-array" (.array items)
  refine ⟨hw, hc, fragment, d', hrender, htree.trans (congrArg (Tree.node .fragment none) ?_), fun j hj => (hold j hj).1⟩
  decide +kernel

end Hypertemplate.Document
