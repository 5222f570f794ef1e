import Hypertemplate.Proofs.Engine.LastWins

/-!
# What the journal counts

A rendering makes one copy of the template's content for each item of its data and puts all copies in order
into the target, or into the parent of the target (`gains_render`). The records of a run count these copies
(`rendered_counts_copies`). A swap of a target without parent puts nothing in, and its records count all the
same: so it is with a run that ends after another one swapped its target (`swap_after_swap`).
-/

namespace Hypertemplate

open Json

/-- A list whose images come in blocks comes in blocks itself. -/
theorem exists_blocks {α β : Type} (f : α → β) (blocks : List (List β)) : ∀ {xs : List α},
    xs.map f = blocks.flatten → ∃ parts : List (List α), parts.flatten = xs ∧ parts.map (List.map f) = blocks := by
  induction blocks with
  | nil =>
    intro xs hxs
    exact ⟨[], (List.map_eq_nil_iff.mp hxs).symm, rfl⟩
  | cons block rest ih =>
    intro xs hxs
    obtain ⟨part, others, rfl, hpart, hothers⟩ := List.map_eq_append_iff.mp hxs
    obtain ⟨parts, rfl, hparts⟩ := ih hothers
    exact ⟨part :: parts, rfl, by rw [List.map_cons, hpart, hparts]⟩

namespace Document

variable {d d' : Document} {p target template content : NodeId} {before out after : List NodeId}
  {trees : List Tree} {filled : List (List Tree)} {copies : List (List NodeId)}

/-! ## The copies of one rendering -/

/-- The copies of a template's content that data gives, one for each item. -/
def filledCopies (d : Document) (marker : String) (template : NodeId) (data : Value) : List (List Tree) :=
  ((d.content? template).map fun content =>
    (renderItems data).map fun item => ((d.tree content).instantiate marker item).children).getD []

theorem flatten_filledCopies (d : Document) (marker : String) (template : NodeId) (data : Value) :
    (d.filledCopies marker template data).flatten = d.renderedTrees marker template data := by
  unfold filledCopies renderedTrees
  cases d.content? template with
  | none => rfl
  | some content => rw [Option.map_some, Option.map_some, Option.getD_some, Option.getD_some, List.flatMap_def]

theorem length_filledCopies (hc : d.content? template = some content) (marker : String) (data : Value) :
    (d.filledCopies marker template data).length = (renderItems data).length := by
  rw [filledCopies, hc, Option.map_some, Option.getD_some, List.length_map]

/-- A copy has as many trees at its top as the template's content. -/
theorem length_of_mem_filledCopies (hc : d.content? template = some content) {marker : String} {data : Value}
    {copy : List Tree} (hcopy : copy ∈ d.filledCopies marker template data) :
    copy.length = (d.tree content).children.length := by
  rw [filledCopies, hc] at hcopy
  obtain ⟨item, -, rfl⟩ := List.mem_map.mp hcopy
  cases d.tree content with
  | node k c children => exact Tree.length_fillChildren marker true item children

/-- Copies that look like `filled`, made of new nodes, stand one after the other among the children of `p`, in the
place of some that were there. -/
structure Gains (d : Document) (p : NodeId) (filled : List (List Tree)) (copies : List (List NodeId))
    (d' : Document) : Prop where
  trees_eq : copies.map (List.map d'.tree) = filled
  fresh : ∀ n ∈ copies.flatten, d.isLive n = false
  children_eq : ∃ before out after, d.children p = before ++ out ++ after ∧
    d'.children p = before ++ copies.flatten ++ after

theorem Gains.length_eq (g : Gains d p filled copies d') : copies.length = filled.length := by
  rw [← g.trees_eq, List.length_map]

theorem Placed.gains (s : Placed d p before out after trees d') (hfilled : filled.flatten = trees) :
    ∃ copies, copies.length = filled.length ∧ Gains d p filled copies d' := by
  obtain ⟨new, hnode, htrees, hnew⟩ := s.node_self
  obtain ⟨copies, rfl, hcopies⟩ := exists_blocks d'.tree filled (htrees.trans hfilled.symm)
  have g : Gains d p filled copies d' :=
    ⟨hcopies, hnew, before, out, after, s.children_before, by rw [Document.children_eq, hnode]⟩
  exact ⟨copies, g.length_eq, g⟩

/-- If the children stay the same there are no copies among them. -/
theorem Gains.flatten_eq_nil (g : Gains d p filled copies d') (h : d.WellFormed)
    (hsame : d'.children p = d.children p) : filled.flatten = [] := by
  obtain ⟨before, out, after, -, hafter⟩ := g.children_eq
  have hnone : copies.flatten = [] := by
    rw [List.eq_nil_iff_forall_not_mem]
    intro n hn
    have hmem : n ∈ d.children p := by
      rw [← hsame, hafter]
      simp [hn]
    have hfresh := g.fresh n hn
    rw [(h.live_of_owns (owns_iff.mpr (Or.inl hmem))).2] at hfresh
    cases hfresh
  rw [← g.trees_eq, ← List.map_flatten, hnone, List.map_nil]

/-- A placing of nothing in the place of nothing leaves all nodes as they are. -/
theorem Placed.eq_of_nothing (s : Placed d p (d.children p) [] [] [] d') :
    (∀ i, d.isLive i = true → d'.node i = d.node i) ∧ d'.liveNodes = d.liveNodes := by
  constructor
  · intro i hi
    by_cases hip : i = p
    · obtain ⟨new, hnode, htrees, -⟩ := s.node_self
      rw [hip, hnode, List.map_eq_nil_iff.mp htrees, List.append_nil, List.append_nil, Document.children_eq]
    · exact s.kept hi hip not_met_nil
  · have hcount := s.liveNodes_eq
    rw [lost_nil, Finset.card_empty] at hcount
    exact hcount

section Rendering

variable (h : d.WellFormed) (hr : d.Orphan root) (hc : d.content? template = some content)
  (ht : d.isLive target = true) (marker : String) (data : Value) (action : Action)

theorem count_render : (d.render marker template data target action).1 =
    (d.filledCopies marker template data).length := by
  simp only [render, renderFragment, filledCopies]
  cases d.content? template with
  | none => rfl
  | some content => simp

include h hr hc ht

/-- What a rendering makes stands where the action puts it. -/
theorem gains_render (hp : d.destination? action target = some p) :
    ∃ copies, copies.length = (d.filledCopies marker template data).length ∧
      Gains d p (d.filledCopies marker template data) copies
        (d.render marker template data target action).2 := by
  have hflatten := flatten_filledCopies d marker template data
  cases action with
  | append =>
    obtain rfl := Option.some.inj hp
    exact (placed_append h hr hc ht marker data).gains hflatten
  | update =>
    obtain rfl := Option.some.inj hp
    exact (placed_update h hr hc ht marker data).gains hflatten
  | swap =>
    obtain ⟨before, after, s⟩ := placed_swap h hr hc ht marker data hp
    exact s.gains hflatten

/-- A rendering that has no place to go to leaves all nodes as they are. -/
theorem eq_of_destination?_eq_none (hp : d.destination? action target = none) :
    (∀ i, d.isLive i = true → (d.render marker template data target action).2.node i = d.node i) ∧
      (d.render marker template data target action).2.liveNodes = d.liveNodes := by
  cases action with
  | append => cases hp
  | update => cases hp
  | swap => exact (placed_swap_detached h hr hc ht marker data hp).eq_of_nothing

/-- A pinned target has no parent after it was swapped. -/
theorem parent_render_swap (hpinned : target ∈ d.pinned) :
    (d.render marker template data target .swap).2.parent target = none := by
  cases hp : d.parent target with
  | none =>
    have s := placed_swap_detached h hr hc ht marker data hp
    rw [Document.parent_eq, s.eq_of_nothing.1 target ht, ← Document.parent_eq, hp]
  | some p =>
    obtain ⟨before, after, s⟩ := placed_swap h hr hc ht marker data hp
    rw [Document.parent_eq, s.detached (.start (by simp)) hpinned]

end Rendering

end Document

namespace Engine

open Document

variable {e e₀ : Engine} {c : Call} {b : Binding} {v : Value} {filled : List (List Tree)}
  {sooner later : List (Binding × Fetched)}

/-! ## The runs of a call -/

theorem exists_data_of_value? {fetched : Fetched} (h : fetched.value?.isSome = true) : ∃ v, fetched = .data v := by
  cases fetched with
  | data v => exact ⟨v, rfl⟩
  | failed error => cases h

/-- The engine when the requests of a call are sent and none of its runs has ended. -/
def sent (e : Engine) (c : Call) : Engine :=
  { e.opened c with transport := (sendAll e.transport (e.requests c)).2 }

theorem ending_nil (e : Engine) : e.ending [] = e := by rw [ending, List.foldl_nil]

theorem settings_ending (results : List (Binding × Fetched)) : ∀ e : Engine,
    (e.ending results).settings = e.settings := by
  induction results with
  | nil => exact fun _ => rfl
  | cons r rest ih => exact fun e => (ih _).trans (complete_cases e r.1 r.2).1.2.1

/-- What the end of a run leaves that makes the copies `filled`: its records count them, and all of them stand where
the action puts them. A swap of a target without parent leaves all nodes as they are. -/
structure Counted (b : Binding) (filled : List (List Tree)) (before after : Engine) : Prop where
  journal_eq : after.journal = before.journal.emitAll [(b.template, .fetchSucceeded filled.length),
    (b.template, .rendered b.action filled.length)]
  gains : ∀ p, before.document.destination? b.action b.target = some p →
    ∃ copies, copies.length = filled.length ∧ Gains before.document p filled copies after.document
  spared : before.document.destination? b.action b.target = none →
    b.action = .swap ∧ before.document.parent b.target = none ∧
      (∀ i, before.document.isLive i = true → after.document.node i = before.document.node i) ∧
      after.document.liveNodes = before.document.liveNodes

theorem Counted.not_gains {before after : Engine} (k : Counted b filled before after)
    (h : before.document.WellFormed) (ht : before.document.isLive b.target = true) (hswap : b.action = .swap)
    (hp : before.document.parent b.target = none) (hne : filled.flatten ≠ []) :
    ¬ ∃ p copies, (p = b.target ∨ before.document.parent b.target = some p) ∧
      copies.length = filled.length ∧ Gains before.document p filled copies after.document := by
  rintro ⟨p, copies, hplace, -, g⟩
  obtain rfl : p = b.target := hplace.resolve_right (by rw [hp]; exact nofun)
  obtain ⟨-, -, hnodes, -⟩ := k.spared (by rw [hswap]; exact hp)
  refine hne (g.flatten_eq_nil h ?_)
  rw [Document.children_eq, hnodes _ ht, ← Document.children_eq]

/-- The copies are those of the template as it was in `d₀`. -/
theorem Intact.filledCopies_eq {bs : List Binding} {d₀ d : Document} (hi : Intact bs d₀ d) (hb : b ∈ bs)
    (marker : String) (data : Value) :
    d.filledCopies marker b.template data = d₀.filledCopies marker b.template data := by
  obtain ⟨content, hbefore, hc, htree, -⟩ := hi b hb
  rw [filledCopies, filledCopies, hbefore, hc, Option.map_some, Option.map_some, htree]

section Page

variable (r : Ready e₀ e) (ht : e₀.document.Tidy []) (hp : e₀.document.pinned = [])
  (hi : Intact e₀.scan e₀.document e.document)

include r ht hp hi

/-- While the runs of a call end, the document is clean and the contents of the bound templates are what they
were. -/
theorem Ready.spared_sooner {x : Binding × Fetched} (hresults : e.results c = sooner ++ x :: later) :
    x.1 ∈ e₀.scan ∧ Intact e₀.scan e₀.document ((e.sent c).ending sooner).document ∧
      Clean e₀.scan ((e.sent c).ending sooner).document := by
  have hbegun : ∀ y ∈ sooner ++ x :: later, y.1 ∈ e.begun c := fun y hy =>
    (e.results_perm c).mem_iff.mp (List.mem_map_of_mem (hresults ▸ hy))
  have hx := hbegun x (by simp)
  rcases r.opens ht hp c with ⟨-, hnone⟩ | ⟨hclean, hscan⟩
  · rw [hnone] at hx
    cases hx
  · have hpinned := hi.pinBindings (e.bound c) (r.wellFormed ht) hclean.1.wellFormed
    rw [document_ending]
    refine ⟨hscan _ hx, hpinned.foldl_render _ (fun gain hgain => ?_) hclean⟩
    obtain ⟨y, hy, hgain⟩ := List.mem_filterMap.mp hgain
    obtain ⟨v, -, rfl⟩ := Option.map_eq_some_iff.mp hgain
    exact hscan _ (hbegun y (by simp [hy]))

/-- A run with data records how many copies it makes, and puts all of them where its action says, if there is
such a place. -/
theorem Ready.counted (hresults : e.results c = sooner ++ (b, .data v) :: later) :
    let earlier := (e.sent c).ending sooner
    let filled := e₀.document.filledCopies e₀.settings.nestedArrayAttribute b.template v
    filled.length = (renderItems v).length ∧ Counted b filled earlier (earlier.complete b (.data v)) := by
  intro earlier filled
  obtain ⟨hb, hintact, hclean⟩ := r.spared_sooner ht hp hi hresults
  have hfilled := hintact.filledCopies_eq hb e₀.settings.nestedArrayAttribute v
  obtain ⟨content, hbefore, hc, -, -⟩ := hintact b hb
  have h : earlier.document.WellFormed := hclean.1.wellFormed
  have hr : earlier.document.Orphan root := hclean.1.orphan_root
  have htarget : earlier.document.isLive b.target = true :=
    h.pinned_live ((hclean.2 _).mpr ⟨b, hb, by simp [Binding.nodes]⟩)
  have hlength : filled.length = (renderItems v).length := length_filledCopies hbefore _ v
  have hmarker : earlier.settings.nestedArrayAttribute = e₀.settings.nestedArrayAttribute := by
    rw [settings_ending]
    exact r.marker_eq
  have hitems : (Fetched.data v).itemCount = filled.length := by
    rw [hlength]
    cases v <;> rfl
  have hcount : (earlier.document.render earlier.settings.nestedArrayAttribute b.template v b.target
      b.action).1 = filled.length := by
    rw [count_render, hmarker, hfilled]
  have hdocument : (earlier.complete b (.data v)).document = (earlier.document.render
      e₀.settings.nestedArrayAttribute b.template v b.target b.action).2 := by
    rw [← hmarker]
    rfl
  refine ⟨hlength, ?_, fun p hdestination => ?_, fun hdestination => ?_⟩
  · simp only [complete, renderData, emit, hitems, hcount]
    rfl
  · rw [hdocument]
    have hgains := gains_render h hr hc htarget e₀.settings.nestedArrayAttribute v b.action hdestination
    rwa [hfilled] at hgains
  · have hswap : b.action = .swap ∧ earlier.document.parent b.target = none := by
      revert hdestination
      cases b.action with
      | append =>
        intro hnone
        cases hnone
      | update =>
        intro hnone
        cases hnone
      | swap => exact fun hnone => ⟨rfl, hnone⟩
    rw [hdocument]
    exact ⟨hswap.1, hswap.2, eq_of_destination?_eq_none h hr hc htarget _ v b.action hdestination⟩

/-- A swap of a pinned target takes its parent from it, and so the run after it finds none. -/
theorem Ready.parent_after_swap {init : List (Binding × Fetched)} {b' : Binding} {w : Value}
    (hresults : e.results c = sooner ++ (b, .data v) :: later) (hsooner : sooner = init ++ [(b', .data w)])
    (hswap : b'.action = .swap) (htarget : b.target = b'.target) :
    ((e.sent c).ending sooner).document.parent b.target = none := by
  subst hsooner
  rw [List.append_assoc, List.singleton_append] at hresults
  obtain ⟨hb, hintact, hclean⟩ := r.spared_sooner ht hp hi hresults
  obtain ⟨content, -, hc, -, -⟩ := hintact b' hb
  have hpinned : b'.target ∈ ((e.sent c).ending init).document.pinned :=
    (hclean.2 _).mpr ⟨b', hb, by simp [Binding.nodes]⟩
  have hdocument : ((e.sent c).ending (init ++ [(b', .data w)])).document =
      (((e.sent c).ending init).complete b' (.data w)).document := by
    rw [ending, List.foldl_append]
    rfl
  rw [hdocument, htarget, document_complete _ (b', .data w)]
  change (((e.sent c).ending init).document.render _ b'.template w b'.target b'.action).2.parent b'.target = none
  rw [hswap]
  exact parent_render_swap hclean.1.wellFormed hclean.1.orphan_root hc
    (hclean.1.wellFormed.pinned_live hpinned) _ w hpinned

end Page

theorem ready_calling (html : String) (settings : Settings) (transport : Transport) (handlers : Handlers)
    (journal : Journal) (calls : List Call) :
    let page := onPage html settings transport handlers journal
    Ready page (page.calling calls) ∧ page.document.Tidy [] ∧ page.document.pinned = [] ∧
      Intact page.scan page.document (page.calling calls).document := by
  intro page
  have ht : page.document.Tidy [] := tidy_parse html
  have hp : page.document.pinned = [] := pinned_parse html
  have waiting : Ready page page := .waiting rfl rfl rfl rfl
  exact ⟨Ready.calling ht hp calls waiting, ht, hp,
    Intact.calling ht hp calls waiting (intact_bindings ht settings.names)⟩

/-- On any page, after any calls, let a run that a call begins end with data. Its records count the items of the
data, which are the copies of its template's content that it makes. It puts all of them in, into its target or the
parent of that, as its action says. Only a swap whose target has no parent when the run ends puts nothing in and
changes no node. -/
theorem rendered_counts_copies (html : String) (settings : Settings) (transport : Transport)
    (handlers : Handlers) (journal : Journal) (calls : List Call) (c : Call)
    (sooner later : List (Binding × Fetched)) (b : Binding) (v : Value) :
    let e := (onPage html settings transport handlers journal).calling calls
    let earlier := (e.sent c).ending sooner
    let ended := earlier.complete b (.data v)
    let filled := (Document.parse html).filledCopies settings.nestedArrayAttribute b.template v
    e.results c = sooner ++ (b, .data v) :: later →
      e.call c = ended.ending later ∧ filled.length = (renderItems v).length ∧
        Counted b filled earlier ended := by
  intro e earlier ended filled hresults
  obtain ⟨r, ht, hp, hi⟩ := ready_calling html settings transport handlers journal calls
  refine ⟨?_, r.counted ht hp hi hresults⟩
  rw [call_eq, hresults, ending, List.foldl_append]
  rfl

/-- A click swaps the paragraph for two copies. -/
theorem rendered_counts_copies_two :
    let html := "<p>a</p><template hx-endpoint=/d hx-event=onclick hx-target=p hx-event-target=body hx-action=swap>" ++
      "b<i>c</i></template>"
    let script : Script := ({} : Script).push "GET" "/d" ⟨.ok ⟨200, "[1,2]"⟩, 0⟩
    let e := (onPage html {} (.script script) {} {}).calling [.start]
    let sent := e.sent (.dispatch 3 "click")
    ∃ b v copies, e.results (.dispatch 3 "click") = [(b, .data v)] ∧
      (e.call (.dispatch 3 "click")).journal = sent.journal.emitAll
        [(b.template, .fetchSucceeded 2), (b.template, .rendered .swap 2)] ∧
      copies.length = 2 ∧ Gains sent.document 3
        ((Document.parse html).filledCopies "data-nested-array" b.template v) copies
        (e.call (.dispatch 3 "click")).document := by
  intro html script e sent
  have hcase : (e.results (.dispatch 3 "click")).map (fun r => (r.1.action, r.1.target, r.2.value?.isSome,
        r.2.itemCount)) = [(.swap, 4, true, 2)] ∧ sent.document.parent 4 = some 3 := by
    decide +kernel
  obtain ⟨hprojected, hparent⟩ := hcase
  obtain ⟨⟨b, fetched⟩, hresults, hfirst⟩ := List.map_eq_singleton_iff.mp hprojected
  simp only [Prod.mk.injEq] at hfirst
  obtain ⟨haction, htarget, hdata, hitems⟩ := hfirst
  obtain ⟨v, rfl⟩ := exists_data_of_value? hdata
  obtain ⟨hcall, hlength, hcounted⟩ :=
    rendered_counts_copies html {} (.script script) {} {} [.start] (.dispatch 3 "click") [] [] b v hresults
  simp only [ending_nil] at hcall hlength hcounted
  have htwo : (renderItems v).length = 2 := by
    rw [← hitems]
    cases v <;> rfl
  have hjournal := hcounted.journal_eq
  rw [hlength, htwo, haction] at hjournal
  obtain ⟨copies, hcopies, g⟩ := hcounted.gains 3 (by rw [haction, htarget]; exact hparent)
  rw [hlength, htwo] at hcopies
  rw [← hcall] at hjournal g
  exact ⟨b, v, copies, hresults, hjournal, hcopies, g⟩

/-- On any page, after any calls, let two runs of a call end one after the other that swap the same target. The
second one puts nothing in, and its records count the items of its data all the same. -/
theorem swap_after_swap (html : String) (settings : Settings) (transport : Transport) (handlers : Handlers)
    (journal : Journal) (calls : List Call) (c : Call) (init sooner later : List (Binding × Fetched))
    (b b' : Binding) (v w : Value) :
    let e := (onPage html settings transport handlers journal).calling calls
    let earlier := (e.sent c).ending sooner
    let ended := earlier.complete b (.data v)
    let filled := (Document.parse html).filledCopies settings.nestedArrayAttribute b.template v
    e.results c = sooner ++ (b, .data v) :: later → sooner = init ++ [(b', .data w)] → b'.action = .swap →
      b.action = .swap → b.target = b'.target →
    filled.length = (renderItems v).length ∧ ended.journal = earlier.journal.emitAll
      [(b.template, .fetchSucceeded filled.length), (b.template, .rendered .swap filled.length)] ∧
    (filled.flatten ≠ [] → ¬ ∃ p copies, (p = b.target ∨ earlier.document.parent b.target = some p) ∧
      copies.length = filled.length ∧ Gains earlier.document p filled copies ended.document) := by
  intro e earlier ended filled hresults hsooner hswap' hswap htarget
  obtain ⟨r, ht, hp, hi⟩ := ready_calling html settings transport handlers journal calls
  obtain ⟨hb, -, hclean⟩ := r.spared_sooner ht hp hi hresults
  obtain ⟨hlength, hcounted⟩ := r.counted ht hp hi hresults
  have hparent := r.parent_after_swap ht hp hi hresults hsooner hswap' htarget
  have hlive : earlier.document.isLive b.target = true :=
    hclean.1.wellFormed.pinned_live ((hclean.2 _).mpr ⟨b, hb, by simp [Binding.nodes]⟩)
  refine ⟨hlength, ?_, hcounted.not_gains hclean.1.wellFormed hlive hswap hparent⟩
  rw [← hswap]
  exact hcounted.journal_eq

/-- Two templates swap the same paragraph. The run that ends last finds it without parent and puts nothing in, and
its records tell of a copy. -/
theorem swap_of_detached_counts :
    let declared := "<template hx-endpoint=/d hx-event=onclick hx-target=p hx-event-target=body hx-action=swap>b</template>"
    let html := "<p>a</p>" ++ declared ++ declared
    let script : Script := ({} : Script).push "GET" "/d" ⟨.ok ⟨200, "1"⟩, 0⟩
    let e := (onPage html {} (.script script) {} {}).calling [.start]
    ∃ first v last w, e.results (.dispatch 3 "click") = [(first, .data v), (last, .data w)] ∧
      let earlier := (e.sent (.dispatch 3 "click")).ending [(first, .data v)]
      let ended := earlier.complete last (.data w)
      let filled := (Document.parse html).filledCopies "data-nested-array" last.template w
      ended.journal = earlier.journal.emitAll
        [(last.template, .fetchSucceeded 1), (last.template, .rendered .swap 1)] ∧
      ¬ ∃ p copies, (p = last.target ∨ earlier.document.parent last.target = some p) ∧ copies.length = 1 ∧
        Gains earlier.document p filled copies ended.document := by
  intro declared html script e
  have hcase : (e.replies (.dispatch 3 "click")).map (fun r => (r.1.template, r.1.action, r.1.target, r.2.delay,
        (fetched r).value?.isSome, (fetched r).itemCount)) =
        [(7, .swap, 4, 0, true, 1), (10, .swap, 4, 0, true, 1)] ∧
      (Document.parse html).content? 10 = some 9 ∧ ((Document.parse html).tree 9).children.length = 1 := by
    decide +kernel
  obtain ⟨hreplies, hcontent, hnodes⟩ := hcase
  obtain ⟨x, rest, hx, hfirst, hrest⟩ := List.map_eq_cons_iff.mp hreplies
  obtain ⟨y, rfl, hlast⟩ := List.map_eq_singleton_iff.mp hrest
  simp only [Prod.mk.injEq] at hfirst hlast
  obtain ⟨-, hswap, htarget, hdelay, hdata, -⟩ := hfirst
  obtain ⟨htemplate', hswap', htarget', hdelay', hdata', hitems⟩ := hlast
  obtain ⟨v, hv⟩ := exists_data_of_value? hdata
  obtain ⟨w, hw⟩ := exists_data_of_value? hdata'
  have harriving : (e.replies (.dispatch 3 "click")).Pairwise fun x y => x.2.delay ≤ y.2.delay := by
    simp [hx, hdelay, hdelay']
  have hresults : e.results (.dispatch 3 "click") =
      (e.replies (.dispatch 3 "click")).map fun r => (r.1, fetched r) := results_of_arriving harriving
  rw [hx, List.map_cons, List.map_singleton, hv, hw] at hresults
  obtain ⟨hlength, hjournal, hnone⟩ := swap_after_swap html {} (.script script) {} {} [.start]
    (.dispatch 3 "click") [] [(x.1, .data v)] [] y.1 x.1 w v hresults rfl hswap hswap' (htarget'.trans htarget.symm)
  have hone : (renderItems w).length = 1 := by
    rw [← hitems, hw]
    cases w <;> rfl
  rw [hlength, hone] at hjournal hnone
  refine ⟨x.1, v, y.1, w, hresults, hjournal, hnone fun hnil => ?_⟩
  -- The copy has a node, as the template's content has one.
  rw [hone, List.length_eq_one_iff] at hlength
  obtain ⟨copy, hcopy⟩ := hlength
  rw [hcopy, List.flatten_singleton] at hnil
  rw [← htemplate'] at hcontent
  have hnode := length_of_mem_filledCopies hcontent (by rw [hcopy]; exact List.mem_singleton_self copy)
  rw [hnil, hnodes] at hnode
  cases hnode

end Engine

end Hypertemplate
