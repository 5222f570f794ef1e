import Hypertemplate.Proofs.Document.Exchange
import Hypertemplate.Proofs.Template.Instantiate

/-!
# Filling a copy in place

`fills_fillWithin`: filling the subtree of a node changes the document below this node only, and the tree
there becomes the tree that `Tree.instantiate` gives. The plan for a subtree is read off once and then worked
off in two passes. A pass follows the plan child by child; a child's part of the plan stays right while the
other children are changed, because nothing that is planned is given back before its turn.
-/

namespace Hypertemplate

open Json

/-- Change the children at the top of a tree. -/
def Tree.onChildren (f : List Tree → List Tree) : Tree → Tree
  | .node k content children => .node k content (f children)

/-- A kind with its text taken away if it is a text. -/
def Kind.untexted : Kind → Kind
  | .text _ => .text ""
  | k => k

namespace Document

variable {d d' e : Document} {i j x y : NodeId} {item : Value} {marker : String} {own : Bool} {n : Nat}

theorem Sound.onChildren_tree (h : d.Sound) (f : List Tree → List Tree) (i : NodeId) :
    (d.tree i).onChildren f =
      .node (d.kind i).plain ((d.content? i).map d.tree) (f ((d.children i).map d.tree)) := by
  rw [h.tree_eq]
  rfl

/-! ## The plan of a subtree -/

/-- What there is to do for one child. -/
def planChild (d : Document) (item : Value) (marker : String) (n : Nat) (own : Bool) (c : NodeId) :
    FillPlan :=
  match d.kind c with
  | .text _ => { texts := if own then [c] else [] }
  | .element e =>
    match valueOf? marker e.attributes with
    | none => d.planBelow item marker n true c
    | some key =>
      match item.lookup key with
      | some (.array entries) => { repeats := [(c, entries)] }
      | _ => d.planBelow item marker n false c
  | _ => {}

theorem planBelow_eq_foldl (d : Document) (item : Value) (marker : String) (n : Nat) (own : Bool)
    (i : NodeId) : d.planBelow item marker (n + 1) own i =
      (d.children i).foldl (fun plan c => plan.append (d.planChild item marker n own c)) {} := by
  rw [planBelow]
  congr 1
  funext plan c
  unfold planChild text? isElement attribute? element?
  cases hk : d.kind c with
  | element e =>
    simp only [Option.bind_some, Option.isSome_none, Option.isSome_some, if_true]
    rfl
  | _ => rfl

theorem foldl_append_plan (g : NodeId → FillPlan) (cs : List NodeId) (plan : FillPlan) :
    cs.foldl (fun plan c => plan.append (g c)) plan =
      ⟨plan.texts ++ cs.flatMap fun c => (g c).texts,
        plan.repeats ++ cs.flatMap fun c => (g c).repeats⟩ := by
  induction cs generalizing plan with
  | nil => simp
  | cons c rest ih =>
    rw [List.foldl_cons, ih]
    simp [FillPlan.append]

/-- The plan below a node is made of the plans for its children, in order. -/
theorem planBelow_succ (d : Document) (item : Value) (marker : String) (n : Nat) (own : Bool)
    (i : NodeId) : d.planBelow item marker (n + 1) own i =
      ⟨(d.children i).flatMap fun c => (d.planChild item marker n own c).texts,
        (d.children i).flatMap fun c => (d.planChild item marker n own c).repeats⟩ := by
  rw [planBelow_eq_foldl, foldl_append_plan]
  rfl

theorem planChild_congr (hk : (d'.kind j).untexted = (d.kind j).untexted)
    (hb : ∀ own, d'.planBelow item marker n own j = d.planBelow item marker n own j) :
    d'.planChild item marker n own j = d.planChild item marker n own j := by
  unfold planChild
  rw [hb, hb]
  cases hd : d.kind j <;> cases hd' : d'.kind j <;> simp_all [Kind.untexted]

theorem below_eq_of_untexted (hk : (d'.kind j).untexted = (d.kind j).untexted)
    (hc : d'.children j = d.children j) : d'.below j = d.below j := by
  have hcontent : d'.content? j = d.content? j := by
    rw [content?_eq, content?_eq, ← kind_eq, ← kind_eq]
    cases hd : d.kind j <;> cases hd' : d'.kind j <;> simp_all [Kind.untexted, contentOf?]
  rw [below, below, hc, hcontent]

/-- The plan does not depend on the texts. -/
theorem planBelow_congr (n : Nat) : ∀ {i own},
    (∀ j, d.Under i j →
      (d'.kind j).untexted = (d.kind j).untexted ∧ d'.children j = d.children j) →
    d'.planBelow item marker n own i = d.planBelow item marker n own i := by
  induction n with
  | zero => exact fun _ => rfl
  | succ n ih =>
    intro i own h
    have hchild : ∀ c ∈ d.children i,
        d'.planChild item marker n own c = d.planChild item marker n own c := by
      intro c hc
      have hown : d.Under i c := Under.of_owns (owns_iff.mpr (Or.inl hc))
      exact planChild_congr (h c hown).1 fun _ => ih fun j hj => h j (hown.trans hj)
    rw [planBelow_succ, planBelow_succ, (h i Under.refl).2]
    congr 1
    · exact List.flatMap_congr fun c hc => by rw [hchild c hc]
    · exact List.flatMap_congr fun c hc => by rw [hchild c hc]

theorem planChild_congr_node (h : ∀ j, d.Under y j → e.node j = d.node j) :
    e.planChild item marker n own y = d.planChild item marker n own y := by
  have hsame : ∀ j, d.Under y j →
      (e.kind j).untexted = (d.kind j).untexted ∧ e.children j = d.children j := by
    intro j hj
    rw [kind_eq, kind_eq, children_eq, children_eq, h j hj]
    exact ⟨rfl, rfl⟩
  exact planChild_congr (hsame y Under.refl).1 fun _ => planBelow_congr n hsame

/-- Where nothing below a node differs, the node has the same rank. -/
theorem rank_congr_node (h : d.Sound) (he : e.Sound)
    (heq : ∀ j, d.Under y j → e.node j = d.node j) : e.rank y = d.rank y :=
  rank_congr h he fun j hj => by
    rw [below, below, children_eq, children_eq, content?_eq, content?_eq, heq j hj]

/-! ## The texts -/

/-- The first pass: the texts of a plan are substituted one after the other. -/
def substituteTexts (d : Document) (item : Value) (ts : List NodeId) : Document :=
  ts.foldl (fun d t => d.substituteText item t) d

/-- Substituting a text node changes its text only. -/
theorem rewritten_substituteText (item : Value) {s : String} (h : d.Sound)
    (hy : d.isLive y = true) (hk : d.kind y = .text s) :
    RewrittenAs d y (d.substituteText item y) y
      (.node (.text (Template.substitute s item)) ((d.content? y).map d.tree)
        ((d.children y).map d.tree)) := by
  have htext : d.text? y = some s := by simp [text?, hk]
  by_cases hp : Template.hasPlaceholder s = true
  · have hsub : d.substituteText item y = d.setText y (Template.substitute s item) := by
      simp [substituteText, htext, Template.resolve?_eq, hp]
    rw [hsub]
    have r := relabelled_setText (d := d) (i := y) (Template.substitute s item)
    have hnode : ∀ {j}, j ≠ y → (d.setText y (Template.substitute s item)).node j = d.node j := by
      intro j hj
      rw [setText, node_modifyNode (Or.inr rfl), if_neg hj]
    have hkind : (d.setText y (Template.substitute s item)).kind y =
        .text (Template.substitute s item) := by
      rw [kind_eq, setText, node_modifyNode (Or.inr rfl), if_pos rfl, ← kind_eq, hk]
    have htree : ∀ {c}, d.Owns y c →
        (d.setText y (Template.substitute s item)).tree c = d.tree c := fun hc =>
      tree_congr_node h (r.sound h) _ fun j hj => hnode (by
        rintro rfl
        exact h.not_under_of_owns hc hj)
    refine { toRewritten := Rewritten.of_relabelled r h hy hnode, tree_eq := ?_ }
    rw [(r.sound h).tree_eq, hkind, r.children_eq, r.content?_eq]
    congr 1
    · exact Option.map_congr fun c hc => htree (owns_iff.mpr (Or.inr hc))
    · exact List.map_congr_left fun c hc => htree (owns_iff.mpr (Or.inl hc))
  · have hsub : d.substituteText item y = d := by simp [substituteText, htext, Template.resolve?_eq, hp]
    rw [hsub, Template.substitute_of_not_hasPlaceholder (by simpa using hp)]
    refine { toRewritten := Rewritten.refl h hy, tree_eq := ?_ }
    rw [h.tree_eq, hk]
    rfl

theorem untexted_substituteText (d : Document) (item : Value) (i j : NodeId) :
    ((d.substituteText item i).kind j).untexted = (d.kind j).untexted ∧
      (d.substituteText item i).children j = d.children j := by
  unfold substituteText
  split
  · rw [kind_eq, children_eq, setText, node_modifyNode (Or.inr rfl)]
    split
    · next hj =>
      subst hj
      rw [kind_eq, children_eq]
      split
      · next hk => simp [Kind.untexted, hk]
      · exact ⟨rfl, rfl⟩
    · exact ⟨rfl, rfl⟩
  · exact ⟨rfl, rfl⟩

/-- The first pass changes no more than texts. -/
theorem untexted_substituteTexts (item : Value) (ts : List NodeId) (d : Document) (j : NodeId) :
    ((d.substituteTexts item ts).kind j).untexted = (d.kind j).untexted ∧
      (d.substituteTexts item ts).children j = d.children j := by
  induction ts generalizing d with
  | nil => exact ⟨rfl, rfl⟩
  | cons t rest ih =>
    have hstep := untexted_substituteText d item t j
    have hrest := ih (d.substituteText item t)
    exact ⟨hrest.1.trans hstep.1, hrest.2.trans hstep.2⟩

/-- The first pass over one child, if the pass over what is below an element is right. -/
theorem rewritten_substituteChild (h : d.Sound) (hy : d.isLive y = true)
    (hbelow : ∀ own, RewrittenAs d y
      (d.substituteTexts item (d.planBelow item marker n own y).texts) y
      ((d.tree y).onChildren (Tree.substituteChildren marker own item))) (own : Bool) :
    RewrittenAs d y (d.substituteTexts item (d.planChild item marker n own y).texts) y
      (Tree.substituteChild marker own item (d.tree y)) := by
  have hsame := RewrittenAs.refl h hy
  have htree := h.tree_eq y
  cases hk : d.kind y with
  | text s =>
    rw [hk] at htree
    simp only [planChild, hk]
    cases own with
    | true =>
      have r := rewritten_substituteText item h hy hk
      rw [htree]
      exact r
    | false =>
      rw [htree] at hsame ⊢
      exact hsame
  | element e =>
    rw [hk] at htree
    cases hm : valueOf? marker e.attributes with
    | none =>
      have r := hbelow true
      rw [htree] at r ⊢
      simpa only [planChild, hk, hm, Kind.plain, Tree.onChildren, Tree.substituteChild] using r
    | some key =>
      cases hv : item.lookup key with
      | none =>
        have r := hbelow false
        rw [htree] at r ⊢
        simpa only [planChild, hk, hm, hv, Kind.plain, Tree.onChildren, Tree.substituteChild] using r
      | some v =>
        cases v with
        | array entries =>
          rw [htree] at hsame ⊢
          simpa only [planChild, hk, hm, hv, Kind.plain, Tree.substituteChild, substituteTexts,
            List.foldl_nil] using hsame
        | _ =>
          have r := hbelow false
          rw [htree] at r ⊢
          simpa only [planChild, hk, hm, hv, Kind.plain, Tree.onChildren, Tree.substituteChild]
            using r
  | _ =>
    rw [hk] at htree
    simp only [planChild, hk]
    rw [htree] at hsame ⊢
    exact hsame

/-- The first pass over what is below a node. -/
theorem rewritten_substituteTexts (item : Value) (marker : String) (n : Nat) : ∀ {d : Document} {x own}, d.Sound →
    d.isLive x = true → d.rank x < n →
    RewrittenAs d x (d.substituteTexts item (d.planBelow item marker n own x).texts) x
      ((d.tree x).onChildren (Tree.substituteChildren marker own item)) := by
  induction n with
  | zero => exact fun _ _ hr => absurd hr (Nat.not_lt_zero _)
  | succ n ih =>
    intro d x own h hx hr
    rw [planBelow_succ, h.onChildren_tree, Tree.substituteChildren_eq_map, List.map_map]
    refine rewritten_children h hx fun y hy e he hye heq => ⟨y, ?_⟩
    have hown : d.Owns x y := owns_iff.mpr (Or.inl hy)
    have hlive : e.isLive y = true := (he.live_of_owns (owns_iff.mpr (Or.inl hye))).2
    have hrank : e.rank y < n := by
      rw [rank_congr_node h he heq]
      exact Nat.lt_of_lt_of_le (h.rank_lt hown) (Nat.le_of_lt_succ hr)
    rw [← planChild_congr_node heq, Function.comp_apply, ← tree_congr_node h he y heq]
    exact rewritten_substituteChild he hlive (fun own => ih he hlive hrank) own

/-! ## The repeated elements -/

/-- `fill` fills every subtree from an item, in every sound document. -/
def Fills (marker : String) (fill : Document → NodeId → Value → Document) (item : Value) : Prop :=
  ∀ {d : Document} {x : NodeId}, d.Sound → d.isLive x = true →
    RewrittenAs d x (fill d x item) x ((d.tree x).instantiate marker item)

theorem kind_instantiate (t : Tree) : (t.instantiate marker item).kind = t.kind := by
  cases t
  rfl

theorem RewrittenAs.kind_eq_fragment_iff
    (r : RewrittenAs d x d' x ((d.tree x).instantiate marker item)) (h : d.Sound) :
    d'.kind x = .fragment ↔ d.kind x = .fragment := by
  rw [← Kind.plain_eq_fragment_iff, ← r.sound.kind_tree, r.tree_eq, kind_instantiate, h.kind_tree,
    Kind.plain_eq_fragment_iff]

theorem growing_container (h : d.Sound) :
    Growing d (d.createElement "div").1 (.element { name := "div" }) none []
      (d.createElement "div").2 := by
  have hname : ("div" : String).map Char.toLower = "div" := by simp [← String.toList_inj]
  obtain ⟨content, hnode, hcontent⟩ := node_createElement h "div"
  have hnone : content = none := hcontent (by rw [hname]; decide)
  rw [hname, hnone] at hnode
  exact
    { made := made_createElement h "div"
      kind_eq := by rw [Document.kind_eq, hnode]; rfl
      content_eq := by rw [content?_eq, hnode]; rfl
      trees_eq := by rw [Document.children_eq, hnode]; rfl }

/-- A container takes one filled copy after the other. -/
theorem growing_entries {fill : Document → NodeId → Value → Document} {c : NodeId} {kind : Kind}
    {content : Option Tree} (h : d.Sound) (hx : d.isLive x = true) (hk : d.kind x ≠ .fragment)
    {entries : List Value} (hfill : ∀ entry ∈ entries, Fills marker fill entry) :
    ∀ {trees d'}, Growing d c kind content trees d' →
      Growing d c kind content (trees ++ entries.map fun entry => (d.tree x).instantiate marker entry)
        (entries.foldl (fun d entry =>
          (fill (d.cloneNode x true).2 (d.cloneNode x true).1 entry).appendChild c
            (d.cloneNode x true).1) d') := by
  induction entries with
  | nil =>
    intro trees d' g
    simpa using g
  | cons entry rest ih =>
    intro trees d' g
    have h' := g.made.sound
    have k := copied_cloneNode h' (g.made.ext.isLive hx)
    have r := hfill entry (by simp) k.sound k.orphan.live
    have m := k.toMade.rewritten h' r.toRewritten
    have hfragment : (fill (d'.cloneNode x true).2 (d'.cloneNode x true).1 entry).kind
        (d'.cloneNode x true).1 ≠ .fragment := by
      rw [Ne, r.kind_eq_fragment_iff k.sound, k.kind_eq_fragment_iff h', Document.kind_eq,
        g.made.ext.node_eq hx]
      exact hk
    have hg := g.adopt h m hfragment
    rw [r.tree_eq, k.tree_eq, g.made.ext.tree_eq h h' hx,
      ← appendChild_eq_adopt m.sound m.orphan hfragment] at hg
    have := ih (fun entry he => hfill entry (by simp [he])) hg
    simpa using this

/-- A repeated element becomes a container with one filled copy for each entry. -/
theorem rewritten_repeatElement {fill : Document → NodeId → Value → Document} {p : NodeId}
    {entries : List Value} (h : d.Sound) (hx : x ∈ d.children p)
    (hfill : ∀ entry ∈ entries, Fills marker fill entry) :
    RewrittenAs d x (d.repeatElement fill x entries) (d.createElement "div").1
      (.node (.element { name := "div" }) none
        (entries.map fun entry => (d.tree x).instantiate marker entry)) := by
  have hown : d.Owns p x := owns_iff.mpr (Or.inl hx)
  have g := growing_entries h (h.live_of_owns hown).2 (h.kind_of_child hx) hfill (growing_container h)
  have r := g.made.exchange h hx (g.kind_ne_fragment (by simp))
  rw [g.tree_eq] at r
  exact r

/-- The second pass: the elements of a plan are repeated one after the other. -/
def repeatElements (d : Document) (fill : Document → NodeId → Value → Document)
    (rs : List (NodeId × List Value)) : Document :=
  rs.foldl (fun d (element, entries) => d.repeatElement fill element entries) d

/-- The second pass over one child, if the pass over what is below an element is right. -/
theorem rewritten_repeatChild {fill : Document → NodeId → Value → Document} {p : NodeId}
    (h : d.Sound) (hy : y ∈ d.children p)
    (hfill : ∀ key entries, item.lookup key = some (.array entries) →
      ∀ entry ∈ entries, Fills marker fill entry)
    (hbelow : ∀ own, RewrittenAs d y
      (d.repeatElements fill (d.planBelow item marker n own y).repeats) y
      ((d.tree y).onChildren (Tree.repeatChildren marker item))) (own : Bool) :
    ∃ y', RewrittenAs d y (d.repeatElements fill (d.planChild item marker n own y).repeats) y'
      (Tree.repeatChild marker item (d.tree y)) := by
  have hsame := RewrittenAs.refl h (h.live_of_owns (owns_iff.mpr (Or.inl hy))).2
  have htree := h.tree_eq y
  cases hk : d.kind y with
  | element e =>
    rw [hk] at htree
    cases hm : valueOf? marker e.attributes with
    | none =>
      refine ⟨y, ?_⟩
      have r := hbelow true
      rw [htree] at r ⊢
      simpa only [planChild, hk, hm, Kind.plain, Tree.onChildren, Tree.repeatChild] using r
    | some key =>
      cases hv : item.lookup key with
      | none =>
        refine ⟨y, ?_⟩
        have r := hbelow false
        rw [htree] at r ⊢
        simpa only [planChild, hk, hm, hv, Kind.plain, Tree.onChildren, Tree.repeatChild] using r
      | some v =>
        cases v with
        | array entries =>
          refine ⟨(d.createElement "div").1, ?_⟩
          have r := rewritten_repeatElement h hy (hfill key entries hv)
          rw [htree] at r ⊢
          simpa only [planChild, hk, hm, hv, Kind.plain, Tree.repeatChild, repeatElements,
            List.foldl_cons, List.foldl_nil] using r
        | _ =>
          refine ⟨y, ?_⟩
          have r := hbelow false
          rw [htree] at r ⊢
          simpa only [planChild, hk, hm, hv, Kind.plain, Tree.onChildren, Tree.repeatChild] using r
  | _ =>
    refine ⟨y, ?_⟩
    rw [hk] at htree
    simp only [planChild, hk]
    rw [htree] at hsame ⊢
    exact hsame

/-- The second pass over what is below a node. -/
theorem rewritten_repeatElements {fill : Document → NodeId → Value → Document}
    (hfill : ∀ key entries, item.lookup key = some (.array entries) →
      ∀ entry ∈ entries, Fills marker fill entry) (n : Nat) :
    ∀ {d : Document} {x own}, d.Sound → d.isLive x = true → d.rank x < n →
      RewrittenAs d x (d.repeatElements fill (d.planBelow item marker n own x).repeats) x
        ((d.tree x).onChildren (Tree.repeatChildren marker item)) := by
  induction n with
  | zero => exact fun _ _ hr => absurd hr (Nat.not_lt_zero _)
  | succ n ih =>
    intro d x own h hx hr
    rw [planBelow_succ, h.onChildren_tree, Tree.repeatChildren_eq_map, List.map_map]
    refine rewritten_children h hx fun y hy e he hye heq => ?_
    have hown : d.Owns x y := owns_iff.mpr (Or.inl hy)
    have hlive : e.isLive y = true := (he.live_of_owns (owns_iff.mpr (Or.inl hye))).2
    have hrank : e.rank y < n := by
      rw [rank_congr_node h he heq]
      exact Nat.lt_of_lt_of_le (h.rank_lt hown) (Nat.le_of_lt_succ hr)
    rw [← planChild_congr_node heq, Function.comp_apply, ← tree_congr_node h he y heq]
    exact rewritten_repeatChild he hye hfill (fun own => ih he hlive hrank) own

/-! ## Both passes -/

/-- An element is repeated for the entries of an array of the item. -/
theorem lookup_of_mem_repeats {r : NodeId × List Value} (n : Nat) :
    ∀ {own i}, r ∈ (d.planBelow item marker n own i).repeats →
      ∃ key, item.lookup key = some (.array r.2) := by
  induction n with
  | zero => exact fun hr => nomatch hr
  | succ n ih =>
    intro own i hr
    rw [planBelow_succ] at hr
    obtain ⟨c, -, hr⟩ := List.mem_flatMap.mp hr
    unfold planChild at hr
    split at hr
    · cases hr
    · split at hr
      · exact ih hr
      · next key _ =>
        split at hr
        · next entries hv => exact ⟨key, by rw [List.mem_singleton.mp hr, hv]⟩
        · exact ih hr
    · cases hr

/-- An item without nesting repeats nothing. -/
theorem planBelow_repeats_eq_nil (hitem : item.nesting = 0) (n : Nat) (own : Bool) (i : NodeId) :
    (d.planBelow item marker n own i).repeats = [] := by
  refine List.eq_nil_iff_forall_not_mem.mpr fun r hr => ?_
  obtain ⟨key, hkey⟩ := lookup_of_mem_repeats n hr
  have hle := nesting_lookup_le hkey
  rw [hitem] at hle
  exact absurd hle (Nat.not_succ_le_zero _)

/-- A level of filling works off the plan with the level below. Without levels nothing is repeated, and an item
that needs none plans no more than that. -/
theorem fillWithin_eq_repeatElements (marker : String) {levels : Nat} (hitem : item.nesting ≤ levels)
    (d : Document) (i : NodeId) : fillWithin marker levels d i item =
      (d.substituteTexts item (d.fillPlan item marker i).texts).repeatElements (fillWithin marker (levels - 1))
        (d.fillPlan item marker i).repeats := by
  cases levels with
  | succ levels => rfl
  | zero =>
    have hnone : (d.fillPlan item marker i).repeats = [] :=
      planBelow_repeats_eq_nil (Nat.le_zero.mp hitem) _ _ _
    rw [hnone]
    rfl

/-- Both passes over the plan of a subtree, when arrays are filled right. -/
theorem rewritten_passes (marker : String) (fill : Document → NodeId → Value → Document)
    (h : d.Sound) (hx : d.isLive x = true)
    (hfill : ∀ key entries, item.lookup key = some (.array entries) →
      ∀ entry ∈ entries, Fills marker fill entry) :
    RewrittenAs d x
      ((d.substituteTexts item (d.fillPlan item marker x).texts).repeatElements fill
        (d.fillPlan item marker x).repeats) x
      ((d.tree x).instantiate marker item) := by
  have hrank : d.rank x < d.nodes.size + 1 := Nat.lt_succ_of_le (rank_le_size d x)
  have r : RewrittenAs d x (d.substituteTexts item (d.fillPlan item marker x).texts) x _ :=
    rewritten_substituteTexts item marker _ h hx hrank
  generalize hd : d.substituteTexts item (d.fillPlan item marker x).texts = d₁
  have hsame : ∀ j, (d₁.kind j).untexted = (d.kind j).untexted ∧ d₁.children j = d.children j := by
    intro j
    rw [← hd]
    exact untexted_substituteTexts item _ d j
  rw [hd] at r
  -- The plan that was made first is the plan of the document after the first pass.
  have hplan : d₁.planBelow item marker (d.nodes.size + 1) true x = d.fillPlan item marker x :=
    planBelow_congr _ fun j _ => hsame j
  have hrank₁ : d₁.rank x < d.nodes.size + 1 := by
    rwa [rank_congr h r.sound fun j _ => below_eq_of_untexted (hsame j).1 (hsame j).2]
  have r₁ : RewrittenAs d₁ x
      (d₁.repeatElements fill (d₁.planBelow item marker (d.nodes.size + 1) true x).repeats) x _ :=
    rewritten_repeatElements hfill _ r.sound r.isLive hrank₁
  rw [hplan, r.tree_eq] at r₁
  refine { toRewritten := r.trans r₁.toRewritten h (Or.inl rfl), tree_eq := ?_ }
  rw [r₁.tree_eq]
  cases d.tree x with
  | node k content children =>
    exact congrArg (Tree.node k content) (Tree.repeatChildren_substituteChildren true children)

/-- Filling as deep as the item is nested fills every subtree. -/
theorem fills_fillWithin (marker : String) (levels : Nat) : ∀ {item : Value}, item.nesting ≤ levels →
    Fills marker (fillWithin marker levels) item := by
  induction levels using Nat.strong_induction_on with
  | _ levels ih =>
    intro item hitem d x h hx
    rw [fillWithin_eq_repeatElements marker hitem]
    refine rewritten_passes marker _ h hx fun key entries hv entry he => ?_
    have hlt : entry.nesting < levels := Nat.lt_of_lt_of_le (nesting_lt_of_lookup hv he) hitem
    exact @ih (levels - 1) (Nat.sub_one_lt_of_lt hlt) entry (Nat.le_sub_one_of_lt hlt)

/-- Filling from an item fills every subtree. -/
theorem fills_fill (marker : String) (item : Value) :
    Fills marker (fun d x item => d.fill marker x item) item :=
  fills_fillWithin marker item.nesting (Nat.le_refl _)

end Document

end Hypertemplate
