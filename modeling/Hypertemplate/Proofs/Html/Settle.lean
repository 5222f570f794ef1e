import Hypertemplate.Html.Parse
import Hypertemplate.Proofs.Document.Copies

/-!
# The document of a page

Settling a draft below a node puts the trees of the draft behind the children of the node and changes
nothing else (`appended_settle`). So the document of a page is well formed, nothing in it is pinned, its root
is the only node without owner, and its tree is the draft (`tree_parse`).
-/

namespace Hypertemplate

namespace Document

variable {d d' : Document} {i j p x : NodeId}

/-! ## The empty document -/

theorem node_empty (i : NodeId) : empty.node i = if i = root then { kind := .document } else .vacant := by
  by_cases hi : i = root
  · subst hi
    rfl
  · have hpos : i ≠ 0 := hi
    simp [node, empty, hi, hpos]

theorem children_empty (i : NodeId) : empty.children i = [] := by
  rw [children_eq, node_empty]
  split <;> rfl

theorem content?_empty (i : NodeId) : empty.content? i = none := by
  rw [content?_eq, node_empty]
  split <;> rfl

theorem parent_empty (i : NodeId) : empty.parent i = none := by
  rw [parent_eq, node_empty]
  split <;> rfl

theorem isLive_empty (i : NodeId) : empty.isLive i = true ↔ i = root := by
  rw [isLive_eq, node_empty]
  split <;> simp_all [Node.vacant]

theorem not_owns_empty : ¬ empty.Owns p i := by
  rw [owns_iff, children_empty, content?_empty]
  simp

theorem wellFormed_empty : empty.WellFormed where
  child_iff := by simp [children_empty, parent_empty]
  children_nodup := by simp [children_empty]
  live_of_parent := by simp [parent_empty]
  parent_of_fragment := fun _ => parent_empty _
  live_of_content := by simp [content?_empty]
  kind_of_content := by simp [content?_empty]
  content_inj := by simp [content?_empty]
  content_of_template := by
    intro i e he
    rw [element?_eq_some_iff, node_empty] at he
    split at he <;> cases he
  acyclic := ⟨fun _ => ⟨_, fun _ hc => absurd hc not_owns_empty⟩⟩
  vacant := by
    intro i hi
    rw [node_empty, if_neg]
    intro he
    rw [(isLive_empty i).mpr he] at hi
    cases hi
  free_nodup := List.nodup_nil
  mem_free_iff := by
    intro i
    have hsize : empty.nodes.size = 1 := rfl
    simp only [empty, List.not_mem_nil, false_iff, not_and, Bool.not_eq_false]
    intro hi
    exact (isLive_empty i).mpr (Nat.lt_one_iff.mp hi)
  pinned_live := fun h => by cases h

/-! ## New elements -/

/-- A change of the data of one element changes nothing but this element. -/
theorem rewritten_modifyElement (h : d.Sound) (hi : d.isLive i = true)
    (f : ElementData → ElementData) (hf : ∀ e, (f e).name = e.name ∧ (f e).content = e.content) :
    Rewritten d i (d.modifyElement i f) i := by
  refine Rewritten.of_relabelled (relabelled_modifyElement f hf) h hi fun hj => ?_
  rw [modifyElement, node_modifyNode (Or.inr rfl), if_neg hj]

/-- The tree of a node that has nothing below it. -/
theorem Sound.tree_of_node {k : Kind} (h : d.Sound) (hn : d.node i = { kind := k })
    (hk : contentOf? k = none) : d.tree i = .node k.plain none [] := by
  rw [h.tree_eq, kind_eq, content?_eq, children_eq, hn, hk]
  rfl

/-- The tree of a template's content when the template is made. -/
def newContent (name : String) : Option Tree :=
  if name = "template" then some (.node .fragment none []) else none

theorem growing_createElement (h : d.Sound) (name : String) :
    Growing d (d.createElement name).1 (.element { name := name.map Char.toLower })
      (newContent (name.map Char.toLower)) [] (d.createElement name).2 := by
  have m := made_createElement h name
  by_cases hn : name.map Char.toLower = "template"
  · have hf := made_createFragment h
    have hnode : d.createFragment.2.node d.createFragment.1 = { kind := .fragment } :=
      (allocated_allocate h.accounted .fragment).node_self
    rw [createElement_template hn] at m ⊢
    have a := allocated_allocate hf.sound.accounted
      (.element { name := "template", content := some d.createFragment.1 })
    have hsame := a.node_ne (a.ne_of_isLive hf.orphan.live)
    exact
      { made := m
        kind_eq := by rw [a.kind_self, hn]; rfl
        content_eq := by
          rw [a.content?_self, newContent, if_pos hn]
          exact congrArg some (m.sound.tree_of_node (hsame.trans hnode) rfl)
        trees_eq := by rw [a.children_self]; rfl }
  · rw [createElement_other hn] at m ⊢
    have a := allocated_allocate h.accounted (.element { name := name.map Char.toLower })
    exact
      { made := m
        kind_eq := by rw [a.kind_self]; rfl
        content_eq := by rw [a.content?_self, newContent, if_neg hn]; rfl
        trees_eq := by rw [a.children_self]; rfl }

/-- A new element gets an attribute. -/
theorem Growing.setAttribute {e : ElementData} {content : Option Tree} {trees : List Tree}
    (g : Growing d p (.element e) content trees d') (h : d.Sound) (name value : String) :
    Growing d p (.element { e with attributes := putAttribute name value e.attributes }) content trees
      (d'.setAttribute p name value) := by
  have h' := g.made.sound
  have r : Rewritten d' p (d'.setAttribute p name value) p :=
    rewritten_modifyElement h' g.made.orphan.live _ fun _ => ⟨rfl, rfl⟩
  obtain ⟨e', hkind, rfl⟩ : ∃ e', d'.kind p = .element e' ∧ { e' with content := none } = e := by
    have hk := g.kind_eq
    cases hd : d'.kind p with
    | element e' => exact ⟨e', rfl, Kind.element.inj ((congrArg Kind.plain hd).symm.trans hk)⟩
    | _ => simp [hd, Kind.plain] at hk
  have hnode : (d'.setAttribute p name value).node p = { d'.node p with
      kind := .element { e' with attributes := putAttribute name value e'.attributes } } := by
    rw [Document.setAttribute, modifyElement, node_modifyNode (Or.inr rfl), if_pos rfl,
      ← Document.kind_eq, hkind]
  have hold : ∀ {x}, d'.Owns p x → (d'.setAttribute p name value).tree x = d'.tree x := by
    intro x hx
    refine tree_congr_node h' r.sound x fun j hj => ?_
    have hne : j ≠ p := by
      rintro rfl
      exact h'.not_under_of_owns hx hj
    rw [Document.setAttribute, modifyElement, node_modifyNode (Or.inr rfl), if_neg hne]
  have hcontent : (d'.setAttribute p name value).content? p = d'.content? p := by
    rw [content?_eq, content?_eq, hnode, ← Document.kind_eq, hkind]
    rfl
  have hchildren : (d'.setAttribute p name value).children p = d'.children p := by
    rw [children_eq, hnode, ← children_eq]
  exact
    { made := g.made.rewritten h r
      kind_eq := by rw [Document.kind_eq, hnode]; rfl
      content_eq := by
        rw [hcontent, ← g.content_eq]
        exact Option.map_congr fun f hf => hold (owns_iff.mpr (Or.inr hf))
      trees_eq := by
        rw [hchildren, ← g.trees_eq]
        exact List.map_congr_left fun c hc => hold (owns_iff.mpr (Or.inl hc)) }

/-- A new template without children gets its content. -/
theorem Growing.fill {kind : Kind} {f : NodeId} {k : Kind} {content : Option Tree} {trees ts : List Tree}
    (g : Growing d p kind (some (.node k content trees)) [] d') (h : d.Sound)
    (hf : d'.content? p = some f) (a : Appended d' f ts d'') :
    Growing d p kind (some (.node k content (trees ++ ts))) [] d'' := by
  have h' := g.made.sound
  have hown : d'.Owns p f := owns_iff.mpr (Or.inr hf)
  have hnode := a.node_eq_of_self g.made.orphan.live (h'.not_under_of_owns hown)
  have htree : d'.tree f = .node k content trees := by
    have hc := g.content_eq
    rw [hf] at hc
    exact Option.some.inj hc
  have hnew : d''.tree f = .node k content (trees ++ ts) := by
    have hcontent : (d'.content? f).map d'.tree = content := by
      rw [h'.tree_eq] at htree
      cases htree
      rfl
    rw [a.tree_eq h', hcontent, htree]
    rfl
  exact
    { made := g.made.rewritten h (a.toRewritten.of_owns h' hown)
      kind_eq := by rw [Document.kind_eq, hnode, ← Document.kind_eq, g.kind_eq]
      content_eq := by
        rw [content?_eq, hnode, ← content?_eq, hf]
        exact congrArg some hnew
      trees_eq := by
        have hc := List.map_eq_nil_iff.mp g.trees_eq
        rw [children_eq, hnode, ← children_eq, hc]
        rfl }

end Document

namespace Html

open Document

variable {d d' : Document} {c p : NodeId}

/-! ## The trees of a draft -/

/-- The attributes of an element after those of a draft element were given to it. -/
def giveAttributes (attributes : List DraftAttribute) (old : List (String × String)) :
    List (String × String) :=
  attributes.foldl (fun given a => putAttribute a.name a.value given) old

/-- The element that a draft element becomes. -/
def settledElement (name : String) (attributes : List DraftAttribute) : ElementData where
  name := name.map Char.toLower
  attributes := giveAttributes (sortAttributes attributes) []

/-- The tree of an element that holds `below`: as its children, or as its content if it is a template. -/
def elementTree (e : ElementData) (below : List Tree) : Tree :=
  if e.name = "template" then .node (.element e) (some (.node .fragment none below)) []
  else .node (.element e) none below

/-- What a draft node becomes in a document; `depth` bounds the levels. -/
def Draft.trees (t : Draft) : (depth : Nat) → Nat → List Tree
  | 0, _ => []
  | depth + 1, i =>
    match (t.node i).kind with
    | .page => (t.node i).children.flatMap (trees t depth)
    | .doctype _ => []
    | .text text => [.node (.text text) none []]
    | .comment text => [.node (.comment text) none []]
    | .element _ name attributes =>
      [elementTree (settledElement name attributes) ((t.node i).children.flatMap (trees t depth))]

theorem relabelled_setDoctype (d : Document) (name : String) : Relabelled d (d.setDoctype name) where
  size_eq := rfl
  free_eq := rfl
  pinned_eq := rfl
  node_eq := fun _ => ⟨_, rfl, rfl⟩

/-- The type of a document says nothing about its nodes. -/
theorem appended_setDoctype (h : d.Sound) (hp : d.isLive p = true) (name : String) :
    Appended d p [] (d.setDoctype name) := by
  have r := relabelled_setDoctype d name
  have htree : (d.setDoctype name).tree = d.tree :=
    funext fun i => tree_congr_node h (r.sound h) i fun _ _ => rfl
  exact
    { toRewritten := Rewritten.of_relabelled r h hp fun _ => rfl
      kind_eq := rfl
      content_eq := by rw [htree]; rfl
      trees_eq := by rw [htree, List.append_nil]; rfl }

/-- A new node that is no fragment is appended to an old one. -/
theorem appended_appendChild (m : Made d c d') (h : d.Sound) (hp : d.isLive p = true)
    (hk : d'.kind c ≠ .fragment) : Appended d p [d'.tree c] (d'.appendChild p c) := by
  rw [appendChild_eq_adopt m.sound m.orphan hk]
  exact m.appended h hp hk

/-- A new text or comment is appended to an old node. -/
theorem appended_leaf {k : Kind} (h : d.Sound) (hp : d.isLive p = true)
    (hk : k ≠ .fragment ∧ ∀ e, k ≠ .element e) :
    Appended d p [.node k none []] ((d.allocate k).2.appendChild p (d.allocate k).1) := by
  have a := allocated_allocate h.accounted k
  have hcontent : contentOf? k = none := by
    cases k with
    | element e => exact absurd rfl (hk.2 e)
    | _ => rfl
  have hplain : k.plain = k := by
    cases k with
    | element e => exact absurd rfl (hk.2 e)
    | _ => rfl
  have m := made_allocate h hcontent fun e he => absurd he (hk.2 e)
  have happended := appended_appendChild m h hp (by rw [a.kind_self]; exact hk.1)
  rwa [m.sound.tree_of_node a.node_self hcontent, hplain] at happended

theorem appended_foldl {step : Document → Nat → Document} {trees : Nat → List Tree}
    (hstep : ∀ (i : Nat) (e : Document), e.Sound → e.isLive p = true →
      Appended e p (trees i) (step e i)) (is : List Nat) :
    ∀ {d : Document}, d.Sound → d.isLive p = true →
      Appended d p (is.flatMap trees) (is.foldl step d) := by
  induction is with
  | nil => exact fun h hp => Appended.refl h hp
  | cons i rest ih =>
    intro d h hp
    have a := hstep i d h hp
    exact a.trans (ih a.sound a.isLive) h

/-- The attributes of a draft element are given to the new element. -/
theorem growing_giveAttributes {content : Option Tree} {trees : List Tree} (h : d.Sound)
    (attributes : List DraftAttribute) : ∀ {e : ElementData} {d' : Document},
      Growing d p (.element e) content trees d' →
      Growing d p (.element { e with attributes := giveAttributes attributes e.attributes }) content trees
        (attributes.foldl (fun d a => d.setAttribute p a.name a.value) d') := by
  induction attributes with
  | nil => exact fun g => g
  | cons a rest ih => exact fun g => ih (g.setAttribute h a.name a.value)

/-- What is below a draft element goes into the new element, or into its content if it is a template, and
then the element is appended. -/
theorem appended_element {e : ElementData} {below : List Tree} (settleAll : NodeId → Document)
    (h : d.Sound) (hp : d.isLive p = true)
    (g : Growing d c (.element e) (newContent e.name) [] d')
    (hall : ∀ {q}, d'.isLive q = true → Appended d' q below (settleAll q)) :
    Appended d p [elementTree e below]
      ((settleAll ((d'.content? c).getD c)).appendChild p c) := by
  have h' := g.made.sound
  have hcontent := g.content_eq
  have hgrown : ∃ content trees, Growing d c (.element e) content trees
      (settleAll ((d'.content? c).getD c)) ∧ .node (.element e) content trees = elementTree e below := by
    rw [elementTree]
    rw [newContent] at g hcontent
    split at g
    · next hn =>
      rw [if_pos hn] at hcontent ⊢
      obtain ⟨f, hf, -⟩ := Option.map_eq_some_iff.mp hcontent
      rw [hf]
      exact ⟨_, _, g.fill h hf (hall (h'.live_of_content hf)), rfl⟩
    · next hn =>
      rw [if_neg hn] at hcontent ⊢
      rw [Option.map_eq_none_iff.mp hcontent]
      exact ⟨_, _, g.appended h (hall g.made.orphan.live), rfl⟩
  obtain ⟨content, trees, hgrowing, htree⟩ := hgrown
  have happended := appended_appendChild hgrowing.made h hp (hgrowing.kind_ne_fragment (by simp))
  rwa [hgrowing.tree_eq, htree] at happended

/-- Settling a draft node puts its trees behind the children of the node below which it is settled. -/
theorem appended_settle (t : Draft) (n : Nat) : ∀ {p : NodeId} {d : Document} {i : Nat},
    d.Sound → d.isLive p = true → Appended d p (t.trees n i) (settle t n p d i) := by
  induction n with
  | zero => exact fun h hp => Appended.refl h hp
  | succ n ih =>
    intro p d i h hp
    rw [settle, Draft.trees]
    cases (t.node i).kind with
    | page => exact appended_foldl (fun _ _ he hep => ih he hep) _ h hp
    | doctype name => exact appended_setDoctype h hp name
    | text text => exact appended_leaf h hp (by simp)
    | comment text => exact appended_leaf h hp (by simp)
    | element vocabulary name attributes =>
      have g : Growing d (d.createElement name).1 (.element (settledElement name attributes))
          (newContent (settledElement name attributes).name) []
          ((sortAttributes attributes).foldl
            (fun e a => e.setAttribute (d.createElement name).1 a.name a.value) (d.createElement name).2) :=
        growing_giveAttributes h (sortAttributes attributes) (growing_createElement h name)
      dsimp only
      exact appended_element (fun q => (t.node i).children.foldl (settle t n q) _) h hp g fun hq =>
        appended_foldl (fun _ _ he hep => ih he hep) _ g.made.sound hq

end Html

namespace Document

open Html

/-- Reading a page makes everything below the root of the empty document. -/
theorem appended_parse (html : String) :
    Appended empty root ((draftOf html).trees ((draftOf html).size + 1) 0) (parse html) :=
  appended_settle _ _ wellFormed_empty.sound rfl

theorem pinned_parse (html : String) : (parse html).pinned = [] := (appended_parse html).pinned_eq

theorem wellFormed_parse (html : String) : (parse html).WellFormed :=
  wellFormed_empty.of_sound (appended_parse html).sound (pinned_parse html) nofun

/-- The document of a page is its draft. -/
theorem tree_parse (html : String) : (parse html).tree root =
    .node .document none ((draftOf html).trees ((draftOf html).size + 1) 0) := by
  have hempty : empty.tree root = .node .document none [] :=
    wellFormed_empty.tree_of_node (k := .document) rfl rfl
  rw [(appended_parse html).tree_eq wellFormed_empty.sound, hempty]
  rfl

/-- The root of a page has no owner. -/
theorem orphan_root_parse (html : String) : (parse html).Orphan root :=
  ⟨(appended_parse html).isLive, fun _ hq => not_owns_empty ((appended_parse html).owner_self hq)⟩

/-- Nothing but the root of a page is without owner. -/
theorem eq_root_of_orphan_parse {html : String} {i : NodeId} (ho : (parse html).Orphan i) :
    i = root := by
  rcases (appended_parse html).orphan_cases ho with ho | hi | hi
  · exact (isLive_empty i).mp ho.live
  · exact hi
  · cases hi

end Document

end Hypertemplate
