import Hypertemplate.Proofs.Document.Walks
import Hypertemplate.Proofs.Html.Settle
import Hypertemplate.Proofs.Template.Fill
import Mathlib.Data.List.Pairwise

/-!
# Working off a plan

A plan names nodes before any of them is changed, and working it off gives nodes back whose places the next copies
take. The planned nodes are apart from each other (`planned_fillPlan`), a change below one node leaves the nodes apart
from it where and what they are (`Stays`, `Rewritten.stays`), and so no part of a plan goes stale while others are
worked off, whichever they are and in whatever order (`Worked.foldl`, `plan_stays`).
-/

namespace Hypertemplate.Document

open Json

variable {d d' e : Document} {c i j p x y : NodeId} {item : Value} {marker : String} {own : Bool} {n : Nat}
  {done : List NodeId}

/-- The elements that a plan repeats. -/
def FillPlan.elements (plan : FillPlan) : List NodeId := plan.repeats.map Prod.fst

/-- The nodes that a plan changes. -/
def FillPlan.nodes (plan : FillPlan) : List NodeId := plan.texts ++ plan.elements

/-! ## Nodes apart from each other -/

instance (d : Document) : Std.Symm d.Apart where
  symm _ _ h := h.symm

theorem not_apart_self (d : Document) (i : NodeId) : ¬ d.Apart i i := fun h => h.1 Under.refl

theorem nodup_of_apart {is : List NodeId} (h : is.Pairwise d.Apart) : is.Nodup := by
  refine h.imp fun {i j} hij => ?_
  rintro rfl
  exact d.not_apart_self i hij

/-- Whatever nodes are apart from each other are so in every order, and so are some of them. -/
theorem pairwise_apart_of_subperm {is js : List NodeId} (h : js.Pairwise d.Apart) (hsub : List.Subperm is js) :
    is.Pairwise d.Apart := by
  obtain ⟨ks, hperm, hks⟩ := hsub
  exact (hperm.pairwise_iff fun hij => hij.symm).mp (h.sublist hks)

/-! ## Where the planned nodes are -/

/-- A plan for what is below some nodes or is one of them: its nodes hang there and are apart from each other, its
texts are text nodes and what it repeats are elements. -/
structure Planned (d : Document) (cs : List NodeId) (plan : FillPlan) : Prop where
  hangs : ∀ x ∈ plan.nodes, ∃ c ∈ cs, d.Hangs c x
  apart : plan.nodes.Pairwise d.Apart
  text : ∀ t ∈ plan.texts, ∃ s, d.kind t = .text s
  element : ∀ x ∈ plan.elements, ∃ e, d.kind x = .element e

theorem Planned.empty (d : Document) (cs : List NodeId) : Planned d cs {} where
  hangs _ hx := nomatch hx
  apart := List.Pairwise.nil
  text _ ht := nomatch ht
  element _ hx := nomatch hx

theorem Planned.text_singleton {s : String} (hk : d.kind c = .text s) : Planned d [c] { texts := [c] } where
  hangs x hx := ⟨x, by simpa [FillPlan.nodes, FillPlan.elements] using hx, Hangs.refl⟩
  apart := List.pairwise_singleton _ _
  text t ht := ⟨s, List.mem_singleton.mp ht ▸ hk⟩
  element _ hx := nomatch hx

theorem Planned.element_singleton {data : ElementData} (hk : d.kind c = .element data) (entries : List Value) :
    Planned d [c] { repeats := [(c, entries)] } where
  hangs x hx := ⟨x, by simpa [FillPlan.nodes, FillPlan.elements] using hx, Hangs.refl⟩
  apart := List.pairwise_singleton _ _
  text _ ht := nomatch ht
  element x hx := ⟨data, List.mem_singleton.mp hx ▸ hk⟩

/-- What is planned below the children of a node is planned below the node. -/
theorem Planned.parent {plan : FillPlan} (h : Planned d (d.children c) plan) : Planned d [c] plan where
  hangs x hx := by
    obtain ⟨b, hb, hbx⟩ := h.hangs x hx
    exact ⟨c, by simp, (Hangs.of_mem hb).trans hbx⟩
  apart := h.apart
  text := h.text
  element := h.element

/-- The nodes of several plans are those of the plan that has all their texts first. -/
theorem nodes_flatMap (cs : List NodeId) (plan : NodeId → FillPlan) :
    List.Perm (FillPlan.nodes ⟨cs.flatMap fun c => (plan c).texts, cs.flatMap fun c => (plan c).repeats⟩)
      (cs.flatMap fun c => (plan c).nodes) := by
  rw [FillPlan.nodes, FillPlan.elements, List.map_flatMap]
  exact List.flatMap_append_perm _ _ _

/-- Plans below nodes that are apart make one plan. -/
theorem Planned.flatMap {cs : List NodeId} {plan : NodeId → FillPlan} (h : d.WellFormed)
    (hcs : cs.Pairwise d.Apart) (hplan : ∀ c ∈ cs, Planned d [c] (plan c)) :
    Planned d cs ⟨cs.flatMap fun c => (plan c).texts, cs.flatMap fun c => (plan c).repeats⟩ where
  hangs x hx := by
    obtain ⟨c, hc, hx⟩ := List.mem_flatMap.mp ((nodes_flatMap cs plan).mem_iff.mp hx)
    obtain ⟨b, hb, hbx⟩ := (hplan c hc).hangs x hx
    exact ⟨c, hc, List.mem_singleton.mp hb ▸ hbx⟩
  apart := by
    rw [(nodes_flatMap cs plan).pairwise_iff fun hij => hij.symm, List.pairwise_flatMap]
    refine ⟨fun c hc => (hplan c hc).apart, hcs.imp_of_mem fun {a b} ha hb hab x hx y hy => ?_⟩
    obtain ⟨a', ha', hax⟩ := (hplan a ha).hangs x hx
    obtain ⟨b', hb', hby⟩ := (hplan b hb).hangs y hy
    rw [List.mem_singleton.mp ha'] at hax
    rw [List.mem_singleton.mp hb'] at hby
    exact ((hab.of_under h.sound hax.under).symm.of_under h.sound hby.under).symm
  text t ht := by
    obtain ⟨c, hc, ht⟩ := List.mem_flatMap.mp ht
    exact (hplan c hc).text t ht
  element x hx := by
    rw [FillPlan.elements, List.map_flatMap] at hx
    obtain ⟨c, hc, hx⟩ := List.mem_flatMap.mp hx
    exact (hplan c hc).element x hx

theorem planned_planChild (hbelow : ∀ own, Planned d (d.children c) (d.planBelow item marker n own c))
    (own : Bool) : Planned d [c] (d.planChild item marker n own c) := by
  unfold planChild
  split
  · next s hk =>
    cases own with
    | false => exact Planned.empty d [c]
    | true => exact Planned.text_singleton hk
  · next hk =>
    split
    · exact (hbelow true).parent
    · split
      · exact Planned.element_singleton hk _
      · exact (hbelow false).parent
  · exact Planned.empty d [c]

theorem planned_planBelow (h : d.WellFormed) (item : Value) (marker : String) (n : Nat) :
    ∀ own i, Planned d (d.children i) (d.planBelow item marker n own i) := by
  induction n with
  | zero => exact fun _ i => Planned.empty d (d.children i)
  | succ n ih =>
    intro own i
    rw [planBelow_succ]
    exact Planned.flatMap h (h.apart_children i) fun c _ => planned_planChild (fun own => ih own c) own

/-- What is planned for a node is planned below its children. -/
theorem planned_fillPlan (h : d.WellFormed) (item : Value) (marker : String) (i : NodeId) :
    Planned d (d.children i) (d.fillPlan item marker i) :=
  planned_planBelow h item marker _ true i

section Below

variable {plan : FillPlan} (hp : Planned d (d.children i) plan) (h : d.WellFormed) (hx : x ∈ plan.nodes)

include hp h hx

/-- What is planned below the children of a node hangs on the node and is another node. -/
theorem Planned.below : d.Hangs i x ∧ x ≠ i := by
  obtain ⟨c, hc, hcx⟩ := hp.hangs x hx
  refine ⟨(Hangs.of_mem hc).trans hcx, ?_⟩
  rintro rfl
  exact h.not_under_of_owns (owns_iff.mpr (Or.inl hc)) hcx.under

theorem Planned.exists_child : ∃ p, x ∈ d.children p := by
  obtain ⟨hix, hne⟩ := hp.below h hx
  obtain ⟨p, hxp, -⟩ := hix.exists_parent h.sound hne
  exact ⟨p, h.child_iff.mpr hxp⟩

theorem Planned.isLive : d.isLive x = true := by
  obtain ⟨p, hxp⟩ := hp.exists_child h hx
  exact (h.live_of_owns (owns_iff.mpr (Or.inl hxp))).2

end Below

/-! ## Nodes that stay -/

/-- A node is still there, in its place among the children of the same node and below the same nodes, and nothing at
it and below it changed. -/
structure Stays (d e : Document) (x : NodeId) : Prop where
  isLive : e.isLive x = true
  place : ∀ (p : NodeId) (n : Nat), (d.children p)[n]? = some x → (e.children p)[n]? = some x
  ancestors_eq : e.ancestors x = d.ancestors x
  node_eq : ∀ j, d.Under x j → e.node j = d.node j

namespace Stays

theorem refl (hx : d.isLive x = true) : Stays d d x := ⟨hx, fun _ _ => id, rfl, fun _ _ => rfl⟩

theorem under_iff (s : Stays d e x) : e.Under x j ↔ d.Under x j :=
  under_congr fun j hj => by
    rw [below, below, children_eq, children_eq, content?_eq, content?_eq, s.node_eq j hj]

theorem apart (s : Stays d e x) (s' : Stays d e y) (hap : d.Apart x y) : e.Apart x y :=
  ⟨fun hu => hap.1 (s.under_iff.mp hu), fun hu => hap.2 (s'.under_iff.mp hu)⟩

theorem trans (s : Stays d d' x) (s' : Stays d' e x) : Stays d e x where
  isLive := s'.isLive
  place p n hx := s'.place p n (s.place p n hx)
  ancestors_eq := s'.ancestors_eq.trans s.ancestors_eq
  node_eq j hj := (s'.node_eq j (s.under_iff.mpr hj)).trans (s.node_eq j hj)

theorem tree_eq (s : Stays d e x) (h : d.WellFormed) (he : e.WellFormed) : e.tree x = d.tree x :=
  tree_congr_node h.sound he.sound x s.node_eq

end Stays

section Rewriting

variable {y' : NodeId} (r : Rewritten d y e y') (h : d.WellFormed)

include r h

/-- The way up from a node that is not below the changed one is as before. -/
theorem Rewritten.above?_eq (k : Nat) : ∀ {j}, d.isLive j = true → ¬ d.Under y j →
    e.above? k j = d.above? k j := by
  induction k with
  | zero => exact fun _ _ => rfl
  | succ k ih =>
    intro j hj hyj
    have hparent : e.parent j = d.parent j := by
      rw [parent_eq, r.node_eq hj hyj]
      rfl
    rw [above?, above?, hparent]
    refine Option.bind_congr fun p hp => ?_
    have hown : d.Owns p j := owns_iff.mpr (Or.inl (h.child_iff.mpr hp))
    exact ih (h.live_of_owns hown).1 fun hu => hyj (hu.tail hown)

/-- A node that is apart from the changed one stays. -/
theorem Rewritten.stays (hx : d.isLive x = true) (hap : d.Apart x y) : Stays d e x where
  isLive := r.isLive_outside hx hap.2
  place p n hn := by
    have hown : d.Owns p x := owns_iff.mpr (Or.inl (List.mem_of_getElem? hn))
    have hyp : ¬ d.Under y p := fun hu => hap.2 (hu.tail hown)
    have hxy : x ≠ y := by
      rintro rfl
      exact d.not_apart_self x hap
    rw [children_eq, r.node_eq (h.live_of_owns hown).1 hyp]
    simp [hn, putFor, hxy]
  ancestors_eq := List.ext_getElem? fun k => by
    rw [(r.wellFormed h).rising.getElem?_ancestors, h.rising.getElem?_ancestors, r.above?_eq h k hx hap.2]
  node_eq _ hj := r.node_eq_apart h.sound hx hap.1 hap.2 hj

end Rewriting

/-! ## One change after the other -/

/-- The nodes `done` were changed, one after the other: the nodes apart from them stay. -/
structure Worked (d : Document) (done : List NodeId) (e : Document) : Prop where
  wellFormed : e.WellFormed
  stays : ∀ {x}, d.isLive x = true → (∀ y ∈ done, d.Apart x y) → Stays d e x

theorem Worked.start (h : d.WellFormed) : Worked d [] d := ⟨h, fun hx _ => Stays.refl hx⟩

/-- Another node is changed. -/
theorem Worked.step {y' : NodeId} (w : Worked d done d') (hy : d.isLive y = true) (hap : ∀ z ∈ done, d.Apart y z)
    (r : Rewritten d' y e y') : Worked d (done ++ [y]) e where
  wellFormed := r.wellFormed w.wellFormed
  stays {x} hx hxs := by
    have hxd : Stays d d' x := w.stays hx fun z hz => hxs z (List.mem_append_left _ hz)
    have hyd : Stays d d' y := w.stays hy hap
    exact hxd.trans (r.stays w.wellFormed hxd.isLive (hxd.apart hyd (hxs y (by simp))))

/-- A run over tasks at nodes that are apart, each of which changes its node wherever this node stays. -/
theorem Worked.foldl {α : Type} {step : Document → α → Document} {node : α → NodeId} {tasks : List α}
    (hstep : ∀ a ∈ tasks, ∀ e : Document, e.WellFormed → Stays d e (node a) →
      ∃ y', Rewritten e (node a) (step e a) y')
    (hlive : ∀ a ∈ tasks, d.isLive (node a) = true) (hap : (done ++ tasks.map node).Pairwise d.Apart)
    (w : Worked d done d') : Worked d (done ++ tasks.map node) (tasks.foldl step d') := by
  induction tasks generalizing done d' with
  | nil => simpa using w
  | cons a rest ih =>
    have hsplit : done ++ (a :: rest).map node = (done ++ [node a]) ++ rest.map node := by simp
    rw [hsplit] at hap ⊢
    have ha : d.isLive (node a) = true := hlive a (by simp)
    have hdone : ∀ z ∈ done, d.Apart (node a) z := fun z hz =>
      ((List.pairwise_append.mp (List.pairwise_append.mp hap).1).2.2 z hz (node a) (by simp)).symm
    obtain ⟨y', r⟩ := hstep a (by simp) d' w.wellFormed (w.stays ha hdone)
    exact ih (fun b hb => hstep b (by simp [hb])) (fun b hb => hlive b (by simp [hb])) hap
      (w.step ha hdone r)

/-! ## Working off a part of a plan -/

/-- A part of a plan is worked off: some texts are substituted, then some elements are repeated. -/
def workOff (d : Document) (marker : String) (item : Value) (ts : List NodeId) (rs : List (NodeId × List Value)) :
    Document :=
  (d.substituteTexts item ts).repeatElements (fun d x entry => d.fill marker x entry) rs

theorem repeatElements_eq (d : Document) (fill : Document → NodeId → Value → Document)
    (rs : List (NodeId × List Value)) :
    d.repeatElements fill rs = rs.foldl (fun d r => d.repeatElement fill r.1 r.2) d := rfl

section WorkedOff

variable {plan : FillPlan} {ts : List NodeId} {rs : List (NodeId × List Value)}
  (hp : Planned d (d.children i) plan) (h : d.WellFormed)

include hp h

theorem Planned.worked_texts (item : Value) (hts : ts ⊆ plan.texts) (hap : ts.Pairwise d.Apart) :
    Worked d ts (d.substituteTexts item ts) := by
  have hstep : ∀ t ∈ ts, ∀ e : Document, e.WellFormed → Stays d e t →
      ∃ t', Rewritten e t (e.substituteText item t) t' := by
    intro t ht e he st
    obtain ⟨s, hs⟩ := hp.text t (hts ht)
    have hk : e.kind t = .text s := by
      rw [kind_eq, st.node_eq t Under.refl]
      exact hs
    exact ⟨t, (rewritten_substituteText item he.sound st.isLive hk).toRewritten⟩
  have hlive : ∀ t ∈ ts, d.isLive t = true := fun t ht => hp.isLive h (List.mem_append_left _ (hts ht))
  have w : Worked d ([] ++ ts.map fun t => t) (d.substituteTexts item ts) :=
    (Worked.start h).foldl hstep hlive (by simpa using hap)
  simpa using w

theorem Planned.worked_repeats (marker : String) (hrs : rs ⊆ plan.repeats)
    (hap : (done ++ rs.map Prod.fst).Pairwise d.Apart) (w : Worked d done d') :
    Worked d (done ++ rs.map Prod.fst) (d'.repeatElements (fun d x entry => d.fill marker x entry) rs) := by
  have hmem : ∀ r ∈ rs, r.1 ∈ plan.nodes := fun r hr =>
    List.mem_append_right _ (List.mem_map_of_mem (hrs hr))
  have hstep : ∀ r ∈ rs, ∀ e : Document, e.WellFormed → Stays d e r.1 →
      ∃ c, Rewritten e r.1 (e.repeatElement (fun d x entry => d.fill marker x entry) r.1 r.2) c := by
    intro r hr e he st
    obtain ⟨p, hchild⟩ := hp.exists_child h (hmem r hr)
    obtain ⟨k, hk⟩ := List.mem_iff_getElem?.mp hchild
    have hchild' : r.1 ∈ e.children p := List.mem_of_getElem? (st.place p k hk)
    have hfill : ∀ entry ∈ r.2, Fills marker (fun d x entry => d.fill marker x entry) entry :=
      fun entry _ => fills_fill marker entry
    exact ⟨_, (rewritten_repeatElement he.sound hchild' hfill).toRewritten⟩
  rw [repeatElements_eq]
  exact w.foldl hstep (fun r hr => hp.isLive h (hmem r hr)) hap

/-- Some part of a plan was worked off, in some order: the nodes apart from it stay. -/
theorem Planned.worked (marker : String) (item : Value) (hts : List.Subperm ts plan.texts)
    (hrs : List.Subperm rs plan.repeats) :
    Worked d (ts ++ rs.map Prod.fst) (d.workOff marker item ts rs) := by
  have hrs' : List.Subperm (rs.map Prod.fst) plan.elements := by
    obtain ⟨l, hperm, hl⟩ := hrs
    exact ⟨l.map Prod.fst, hperm.map _, hl.map _⟩
  have hap : (ts ++ rs.map Prod.fst).Pairwise d.Apart := pairwise_apart_of_subperm hp.apart (hts.append hrs')
  exact hp.worked_repeats h marker hrs.subset hap
    (hp.worked_texts h item hts.subset (List.pairwise_append.mp hap).1)

end WorkedOff

/-! ## Filling works off the plan -/

theorem repeatElement_congr {f g : Document → NodeId → Value → Document} {entries : List Value}
    (hfg : ∀ entry ∈ entries, ∀ d x, f d x entry = g d x entry) (d : Document) (x : NodeId) :
    d.repeatElement f x entries = d.repeatElement g x entries := by
  have hcopies : ∀ c d', entries.foldl (fun d entry =>
        (f (d.cloneNode x true).2 (d.cloneNode x true).1 entry).appendChild c (d.cloneNode x true).1) d' =
      entries.foldl (fun d entry =>
        (g (d.cloneNode x true).2 (d.cloneNode x true).1 entry).appendChild c (d.cloneNode x true).1) d' :=
    fun c d' => List.foldl_ext _ _ _ fun d entry he => by rw [hfg entry he]
  exact congrArg (fun d' => (d'.replaceWith x (d.createElement "div").1).release x)
    (hcopies (d.createElement "div").1 (d.createElement "div").2)

theorem repeatElements_congr {f g : Document → NodeId → Value → Document} {rs : List (NodeId × List Value)}
    (hfg : ∀ r ∈ rs, ∀ entry ∈ r.2, ∀ d x, f d x entry = g d x entry) (d : Document) :
    d.repeatElements f rs = d.repeatElements g rs :=
  List.foldl_ext _ _ _ fun d r hr => repeatElement_congr (hfg r hr) d r.1

/-- Levels beyond the nesting of the item make no difference. -/
theorem fillWithin_eq_workOff (marker : String) (levels : Nat) : ∀ {item : Value}, item.nesting ≤ levels →
    ∀ d i, fillWithin marker levels d i item =
      d.workOff marker item (d.fillPlan item marker i).texts (d.fillPlan item marker i).repeats := by
  induction levels using Nat.strong_induction_on with
  | _ levels ih =>
    intro item hitem d i
    rw [fillWithin_eq_repeatElements marker hitem]
    refine repeatElements_congr (fun r hr entry he d x => ?_) _
    obtain ⟨key, hkey⟩ := lookup_of_mem_repeats _ hr
    have hlt : entry.nesting < levels := Nat.lt_of_lt_of_le (nesting_lt_of_lookup hkey he) hitem
    rw [ih (levels - 1) (by omega) (by omega)]
    exact (ih entry.nesting hlt (Nat.le_refl _) d x).symm

/-- Filling works off the whole plan. -/
theorem fill_eq_workOff (d : Document) (marker : String) (i : NodeId) (item : Value) : d.fill marker i item =
    d.workOff marker item (d.fillPlan item marker i).texts (d.fillPlan item marker i).repeats :=
  fillWithin_eq_workOff marker item.nesting (Nat.le_refl _) d i

/-- The nodes planned for filling a node are different nodes properly below it, its texts and repeated elements, and
none of them is inside of an element that is repeated. When any part of the plan was worked off, in any order, the
others are still where and what they were, with the same tree. Filling works off the whole plan. -/
theorem plan_stays (h : d.WellFormed) (i : NodeId) (item : Value) (marker : String) :
    let plan := d.fillPlan item marker i
    plan.nodes.Nodup ∧
    (∀ x ∈ plan.nodes, d.isLive x = true ∧ x ≠ i ∧ i ∈ d.ancestors x) ∧
    (∀ t ∈ plan.texts, ∃ s, d.kind t = .text s) ∧ (∀ x ∈ plan.elements, ∃ data, d.kind x = .element data) ∧
    (∀ x ∈ plan.nodes, ∀ y ∈ plan.elements, x ≠ y → ¬ d.Under y x) ∧
    (∀ ts rs, List.Subperm ts plan.texts → List.Subperm rs plan.repeats →
      let e := d.workOff marker item ts rs
      e.WellFormed ∧ ∀ x ∈ plan.nodes, x ∉ ts → x ∉ rs.map Prod.fst → Stays d e x ∧ e.tree x = d.tree x) ∧
    d.fill marker i item = d.workOff marker item plan.texts plan.repeats := by
  intro plan
  have hp : Planned d (d.children i) plan := planned_fillPlan h item marker i
  have hapart : ∀ x ∈ plan.nodes, ∀ y ∈ plan.nodes, x ≠ y → d.Apart x y := fun x hx y hy hne =>
    hp.apart.forall hx hy hne
  refine ⟨nodup_of_apart hp.apart, fun x hx => ⟨hp.isLive h hx, (hp.below h hx).2, ?_⟩, hp.text, hp.element,
    fun x hx y hy hne => ?_, fun ts rs hts hrs => ?_, fill_eq_workOff d marker i item⟩
  · exact (mem_ancestors_iff h.sound).mpr (hp.below h hx).1
  · exact (hapart x hx y (List.mem_append_right _ hy) hne).2
  · have w := hp.worked h marker item hts hrs
    refine ⟨w.wellFormed, fun x hx hxt hxr => ?_⟩
    have st : Stays d (d.workOff marker item ts rs) x := w.stays (hp.isLive h hx) fun y hy => by
      have hy' : y ∈ plan.nodes := by
        rcases List.mem_append.mp hy with hy | hy
        · exact List.mem_append_left _ (hts.subset hy)
        · obtain ⟨r, hr, rfl⟩ := List.mem_map.mp hy
          exact List.mem_append_right _ (List.mem_map_of_mem (hrs.subset hr))
      refine hapart x hx y hy' ?_
      rintro rfl
      exact (List.mem_append.mp hy).elim hxt hxr
    exact ⟨st, st.tree_eq h w.wellFormed⟩

/-- Two elements with the marker and a text between them: when the text and the first element had their turns, the
second element is still the last child, with its own text below it. -/
theorem plan_stays_last_element :
    let d := parse "<template><p m=a>x</p>y<b m=a>z</b></template>"
    let item : Value := .object [("a", .array [.null])]
    let plan := d.fillPlan item "m" 3
    let e := d.workOff "m" item plan.texts (plan.repeats.take 1)
    d.WellFormed ∧ plan.texts = [7] ∧ plan.elements = [5, 8] ∧ d.children 3 = [5, 7, 8] ∧ Stays d e 8 ∧
      (e.children 3)[2]? = some 8 ∧ e.kind 9 = .text "z" := by
  intro d item plan e
  have h : d.WellFormed := wellFormed_parse _
  have hplan : plan.texts = [7] ∧ plan.elements = [5, 8] := by decide +kernel
  have hcs : d.children 3 = [5, 7, 8] ∧ d.children 8 = [9] ∧ d.kind 9 = .text "z" := by decide +kernel
  obtain ⟨-, -, -, -, -, hpart, -⟩ := plan_stays h 3 item "m"
  have hfirst : (plan.repeats.take 1).map Prod.fst = [5] := by
    rw [List.map_take]
    exact congrArg (List.take 1) hplan.2
  have hmem : 8 ∈ plan.nodes := List.mem_append_right _ (by simp [hplan.2])
  have st : Stays d e 8 :=
    ((hpart plan.texts (plan.repeats.take 1) (List.Subperm.refl _) (List.take_sublist 1 _).subperm).2 8 hmem
      (by simp [hplan.1]) (by simp [hfirst])).1
  refine ⟨h, hplan.1, hplan.2, hcs.1, st, st.place 3 2 (by simp [hcs.1]), ?_⟩
  have hbelow : d.Under 8 9 := Under.of_owns (owns_iff.mpr (Or.inl (by simp [hcs.2.1])))
  rw [kind_eq, st.node_eq 9 hbelow]
  exact hcs.2.2

end Hypertemplate.Document
