import Hypertemplate.Proofs.Document.Edits
import Hypertemplate.Template.Render

/-!
# Pinned nodes keep their places

`Undisturbed i d d'`: the document went from `d` to `d'` by elementary changes, none of which gave the place
`i` back or took it for a new node. Every operation does this to a place that is live, pinned and not among
those that were given back (`Kept`), whatever its arguments are and however broken the links of the document
may be. So the node at such a place is the same node from then on.
-/

namespace Hypertemplate.Document

open Json

variable {d d' d'' : Document} {i j : NodeId}

/-- A place with a node in it. -/
structure InUse (d : Document) (i : NodeId) : Prop where
  live : d.isLive i = true
  not_free : i ∉ d.free

/-- A place that no operation gives back or takes. -/
structure Kept (d : Document) (i : NodeId) : Prop extends d.InUse i where
  pinned : i ∈ d.pinned

theorem Sound.inUse (h : d.Sound) (hi : d.isLive i = true) : d.InUse i :=
  ⟨hi, fun hf => by simp [(h.mem_free_iff.mp hf).2] at hi⟩

/-- Elementary changes that leave the node at `i` where it is. -/
inductive Undisturbed (i : NodeId) (d : Document) : Document → Prop
  | refl : Undisturbed i d d
  | modify {d' : Document} (u : Undisturbed i d d') (j : NodeId) (f : Node → Node)
      (hf : ∀ n, (f n).live = n.live ∧ (f n).kind.shape = n.kind.shape) :
      Undisturbed i d (d'.modifyNode j f)
  | allocate {d' : Document} (u : Undisturbed i d d') (k : Kind) (hne : (d'.allocate k).1 ≠ i) :
      Undisturbed i d (d'.allocate k).2
  | vacate {d' : Document} (u : Undisturbed i d d') (j : NodeId) (hne : j ≠ i) :
      Undisturbed i d (d'.vacate j)
  | pin {d' : Document} (u : Undisturbed i d d') (j : NodeId) : Undisturbed i d (d'.pin j)
  | setDoctype {d' : Document} (u : Undisturbed i d d') (name : String) :
      Undisturbed i d (d'.setDoctype name)

theorem Undisturbed.trans (u : Undisturbed i d d') (u' : Undisturbed i d' d'') :
    Undisturbed i d d'' := by
  induction u' with
  | refl => exact u
  | modify _ j f hf ih => exact ih.modify j f hf
  | allocate _ k hne ih => exact ih.allocate k hne
  | vacate _ j hne ih => exact ih.vacate j hne
  | pin _ j ih => exact ih.pin j
  | setDoctype _ name ih => exact ih.setDoctype name

/-! ## What an elementary change does to a kept place -/

theorem InUse.allocate_ne (h : d.InUse i) (k : Kind) : (d.allocate k).1 ≠ i := by
  unfold allocate
  split
  · next j rest hf =>
    rintro rfl
    exact h.not_free (by simp [hf])
  · exact Nat.ne_of_gt (lt_size_of_isLive h.live)

theorem node_allocate_of_ne (hi : d.isLive i = true) {k : Kind} (hne : (d.allocate k).1 ≠ i) :
    (d.allocate k).2.node i = d.node i := by
  unfold allocate at hne ⊢
  split
  · next j rest hf =>
    rw [hf] at hne
    exact node_setNode_of_ne (d := { d with free := rest }) (Ne.symm hne) _
  · have hlt := lt_size_of_isLive hi
    simp [node, Array.getD_eq_getD_getElem?, Array.getElem?_push, Nat.ne_of_lt hlt]

theorem not_mem_free_allocate (hi : i ∉ d.free) (k : Kind) : i ∉ (d.allocate k).2.free := by
  unfold allocate
  split
  · next j rest hf =>
    intro hmem
    exact hi (by rw [hf]; exact List.mem_cons_of_mem _ hmem)
  · exact hi

/-- The node at a place in use keeps the shape of its kind. -/
theorem Undisturbed.inUse (u : Undisturbed i d d') (h : d.InUse i) :
    d'.InUse i ∧ (d'.kind i).shape = (d.kind i).shape := by
  induction u with
  | refl => exact ⟨h, rfl⟩
  | @modify d' _ j f hf ih =>
    obtain ⟨hi, hs⟩ := ih
    have hnode : (d'.modifyNode j f).isLive i = d'.isLive i ∧
        ((d'.modifyNode j f).kind i).shape = (d'.kind i).shape := by
      rw [isLive_eq, isLive_eq, kind_eq, kind_eq]
      by_cases hj : i = j
      · subst hj
        rw [node_modifyNode (Or.inl hi.live), if_pos rfl]
        exact hf _
      · rw [modifyNode, node_setNode_of_ne hj]
        exact ⟨rfl, rfl⟩
    exact ⟨⟨hnode.1.trans hi.live, hi.not_free⟩, hnode.2.trans hs⟩
  | @allocate d' _ k hne ih =>
    obtain ⟨hi, hs⟩ := ih
    have hnode := node_allocate_of_ne hi.live hne
    refine ⟨⟨?_, not_mem_free_allocate hi.not_free k⟩, ?_⟩
    · rw [isLive_eq, hnode]
      exact hi.live
    · rw [kind_eq, hnode]
      exact hs
  | @vacate d' _ j hne ih =>
    obtain ⟨hi, hs⟩ := ih
    have hnode : (d'.vacate j).node i = d'.node i := node_setNode_of_ne (Ne.symm hne) _
    refine ⟨⟨?_, fun hmem => ?_⟩, ?_⟩
    · rw [isLive_eq, hnode]
      exact hi.live
    · rcases List.mem_cons.mp hmem with he | hmem
      · exact hne he.symm
      · exact hi.not_free hmem
    · rw [kind_eq, hnode]
      exact hs
  | pin _ j ih =>
    unfold Document.pin
    split
    · exact ih
    · exact ⟨⟨ih.1.live, ih.1.not_free⟩, ih.2⟩
  | setDoctype _ name ih => exact ⟨⟨ih.1.live, ih.1.not_free⟩, ih.2⟩

theorem Undisturbed.pinned (u : Undisturbed i d d') (h : i ∈ d.pinned) : i ∈ d'.pinned := by
  induction u with
  | refl => exact h
  | modify _ _ _ _ ih => exact ih
  | allocate _ k _ ih => rwa [pinned_allocate]
  | vacate _ _ _ ih => exact ih
  | pin _ j ih =>
    unfold Document.pin
    split
    · exact ih
    · exact List.mem_cons_of_mem _ ih
  | setDoctype _ _ ih => exact ih

theorem Undisturbed.kept (u : Undisturbed i d d') (h : d.Kept i) : d'.Kept i :=
  { (u.inUse h.toInUse).1 with pinned := u.pinned h.pinned }

/-! ## Operations -/

/-- An operation that leaves a kept place alone. -/
def Spares (i : NodeId) (d d' : Document) : Prop := d.Kept i → Undisturbed i d d'

/-- An operation that makes a node and leaves a kept place alone. -/
def Makes (i : NodeId) (d : Document) (made : NodeId × Document) : Prop :=
  d.Kept i → made.1 ≠ i ∧ Undisturbed i d made.2

theorem Spares.refl (i : NodeId) (d : Document) : Spares i d d := fun _ => .refl

theorem Spares.trans (s : Spares i d d') (s' : Spares i d' d'') : Spares i d d'' := fun h =>
  (s h).trans (s' ((s h).kept h))

theorem Makes.spares {made : NodeId × Document} (m : Makes i d made) : Spares i d made.2 := fun h =>
  (m h).2

theorem Spares.makes {made : NodeId × Document} (s : Spares i d d') (m : Makes i d' made) :
    Makes i d made := fun h =>
  ⟨(m ((s h).kept h)).1, (s h).trans (m ((s h).kept h)).2⟩

theorem Makes.then {made : NodeId × Document} (m : Makes i d made) (s : Spares i made.2 d') :
    Makes i d (made.1, d') := fun h => ⟨(m h).1, m.spares.trans s h⟩

theorem spares_foldl {α : Type} {step : Document → α → Document} (as : List α)
    (hstep : ∀ d, ∀ a ∈ as, Spares i d (step d a)) : ∀ d, Spares i d (as.foldl step d) := by
  induction as with
  | nil => exact Spares.refl i
  | cons a rest ih =>
    intro d
    exact (hstep d a (by simp)).trans (ih (fun d b hb => hstep d b (by simp [hb])) _)

/-! ### Labels and links -/

theorem spares_modifyNode (d : Document) (j : NodeId) {f : Node → Node}
    (hf : ∀ n, (f n).live = n.live ∧ (f n).kind.shape = n.kind.shape) :
    Spares i d (d.modifyNode j f) := fun _ => Undisturbed.refl.modify j f hf

theorem spares_setParent (d : Document) (j : NodeId) (p : Option NodeId) :
    Spares i d (d.setParent j p) :=
  spares_modifyNode d j fun _ => ⟨rfl, rfl⟩

theorem spares_setChildren (d : Document) (j : NodeId) (cs : List NodeId) :
    Spares i d (d.setChildren j cs) :=
  spares_modifyNode d j fun _ => ⟨rfl, rfl⟩

theorem spares_setParents (js : List NodeId) (p : Option NodeId) (d : Document) :
    Spares i d (d.setParents js p) :=
  spares_foldl js (fun d j _ => spares_setParent d j p) d

theorem spares_modifyElement (d : Document) (j : NodeId) {f : ElementData → ElementData}
    (hf : ∀ e, (f e).name = e.name ∧ (f e).content = e.content) :
    Spares i d (d.modifyElement j f) := by
  refine spares_modifyNode d j fun n => ?_
  obtain ⟨k, parent, children, live⟩ := n
  cases k with
  | element e => exact ⟨rfl, by simp [Kind.shape, hf]⟩
  | _ => exact ⟨rfl, rfl⟩

theorem spares_setText (d : Document) (j : NodeId) (t : String) : Spares i d (d.setText j t) := by
  refine spares_modifyNode d j fun n => ?_
  obtain ⟨k, parent, children, live⟩ := n
  cases k <;> exact ⟨rfl, rfl⟩

theorem spares_setValue (d : Document) (j : NodeId) (v : String) : Spares i d (d.setValue j v) := by
  refine spares_modifyElement d j fun e => ?_
  split <;> exact ⟨rfl, rfl⟩

theorem spares_detach (d : Document) (j : NodeId) : Spares i d (d.detach j) := by
  unfold detach
  split
  · exact Spares.refl i d
  · exact (spares_setParent d j none).trans (spares_modifyNode _ _ fun _ => ⟨rfl, rfl⟩)

theorem spares_clearChildren (d : Document) (j : NodeId) : Spares i d (d.clearChildren j).2 :=
  (spares_setChildren d j []).trans (spares_setParents _ _ _)

theorem spares_takeInsertables (d : Document) (j : NodeId) : Spares i d (d.takeInsertables j).2 := by
  unfold takeInsertables
  split
  · exact spares_clearChildren d j
  · exact spares_detach d j

theorem spares_adopt (d : Document) (p c : NodeId) : Spares i d (d.adopt p c) :=
  (spares_setParent d c _).trans (spares_modifyNode _ _ fun _ => ⟨rfl, rfl⟩)

theorem spares_appendChild (d : Document) (p c : NodeId) : Spares i d (d.appendChild p c) :=
  (spares_takeInsertables d c).trans (spares_foldl _ (fun d j _ => spares_adopt d p j) _)

theorem spares_replaceWith (d : Document) (j r : NodeId) : Spares i d (d.replaceWith j r) := by
  cases hp : d.parent j with
  | none =>
    rw [replaceWith_of_parent_eq_none hp]
    exact Spares.refl i d
  | some p =>
    rw [replaceWith_eq hp]
    split
    · exact (((spares_takeInsertables d r).trans (spares_setParents _ _ _)).trans
        (spares_setChildren _ _ _)).trans (spares_setParent _ _ _)
    · exact spares_takeInsertables d r

/-! ### New nodes -/

theorem makes_allocate (d : Document) (k : Kind) : Makes i d (d.allocate k) := fun h =>
  ⟨h.toInUse.allocate_ne k, Undisturbed.refl.allocate k (h.toInUse.allocate_ne k)⟩

theorem makes_createElement (d : Document) (name : String) : Makes i d (d.createElement name) := by
  by_cases hn : name.map Char.toLower = "template"
  · rw [createElement_template hn]
    exact (makes_allocate d .fragment).spares.makes (makes_allocate _ _)
  · rw [createElement_other hn]
    exact makes_allocate d _

theorem spares_copyKind {copy : Document → NodeId → NodeId × Document}
    (hcopy : ∀ d c, Makes i d (copy d c)) (d : Document) (k : Kind) :
    Spares i d (copyKind copy d k).2 := by
  unfold copyKind
  split
  · split
    · exact (hcopy d _).spares
    · exact Spares.refl i d
  · exact Spares.refl i d

theorem makes_copyDeep (n : Nat) : ∀ (d : Document) (j : NodeId), Makes i d (copyDeep n d j) := by
  induction n with
  | zero => exact fun d j => makes_allocate d _
  | succ n ih =>
    intro d j
    have hkind := spares_copyKind ih d (d.kind j)
    refine (hkind.makes (makes_allocate _ _)).then ?_
    exact spares_foldl _ (fun d c _ => (ih d c).spares.trans (spares_adopt _ _ _)) _

theorem makes_cloneNode (d : Document) (j : NodeId) (deep : Bool) :
    Makes i d (d.cloneNode j deep) := by
  cases deep with
  | true => exact makes_copyDeep _ d j
  | false =>
    have hkind := spares_copyKind (makes_copyDeep (i := i) (d.nodes.size + 1)) d (d.kind j)
    exact hkind.makes (makes_allocate _ _)

/-! ### Giving back -/

/-- The walk passes over a pinned node. -/
theorem spares_releaseAll (d : Document) (pending : List NodeId) :
    Spares i d (d.releaseAll pending) := by
  fun_induction releaseAll d pending with
  | case1 d => exact Spares.refl i d
  | case2 d j rest _ _ ih => exact (spares_setParent d j none).trans ih
  | case3 d j rest _ hj ih =>
    intro h
    have hne : j ≠ i := by
      rintro rfl
      exact hj (by simpa [isPinned] using h.pinned)
    have u : Undisturbed i d (d.vacate j) := Undisturbed.refl.vacate j hne
    exact u.trans (ih (u.kept h))
  | case4 d j rest _ ih => exact ih

theorem spares_release (d : Document) (j : NodeId) : Spares i d (d.release j) := by
  unfold release
  split
  · exact Spares.refl i d
  · exact (spares_detach d j).trans (spares_releaseAll _ _)

/-! ### Edits and renderings -/

/-- No edit gives a kept place back or takes it for a new node. -/
theorem spares_perform (d : Document) (e : Edit) :
    d.Kept i → (d.perform e).1 ≠ some i ∧ Undisturbed i d (d.perform e).2 := by
  have hmade : ∀ {made : NodeId × Document}, Makes i d made →
      d.Kept i → (made.map some id).1 ≠ some i ∧ Undisturbed i d (made.map some id).2 := fun m h =>
    ⟨fun he => (m h).1 (Option.some.inj he), (m h).2⟩
  have hnone : ∀ {d' : Document}, Spares i d d' →
      d.Kept i → (none : Option NodeId) ≠ some i ∧ Undisturbed i d d' := fun s h =>
    ⟨nofun, s h⟩
  cases e with
  | createElement name => exact hmade (makes_createElement d name)
  | createText text => exact hmade (makes_allocate d _)
  | createComment text => exact hmade (makes_allocate d _)
  | createFragment => exact hmade (makes_allocate d _)
  | append parent child => exact hnone (spares_appendChild d parent child)
  | replace node replacement => exact hnone (spares_replaceWith d node replacement)
  | detach node => exact hnone (spares_detach d node)
  | clear node => exact hnone (spares_clearChildren d node)
  | clone node deep => exact hmade (makes_cloneNode d node deep)
  | setText node text => exact hnone (spares_setText d node text)
  | setAttribute node name value =>
    exact hnone (spares_modifyElement d node fun _ => ⟨rfl, rfl⟩)
  | removeAttribute node name => exact hnone (spares_modifyElement d node fun _ => ⟨rfl, rfl⟩)
  | setValue node value => exact hnone (spares_setValue d node value)
  | setDoctype name => exact hnone fun _ => Undisturbed.refl.setDoctype name
  | pin node => exact hnone fun _ => Undisturbed.refl.pin node
  | release node => exact hnone (spares_release d node)

theorem spares_substituteText (d : Document) (item : Value) (j : NodeId) :
    Spares i d (d.substituteText item j) := by
  unfold substituteText
  split
  · exact spares_setText d j _
  · exact Spares.refl i d

theorem spares_repeatElement {fill : Document → NodeId → Value → Document}
    (hfill : ∀ d c v, Spares i d (fill d c v)) (d : Document) (j : NodeId) (entries : List Value) :
    Spares i d (d.repeatElement fill j entries) := by
  have hentry : ∀ (c : NodeId) (d : Document) (entry : Value), Spares i d
      ((fill (d.cloneNode j true).2 (d.cloneNode j true).1 entry).appendChild c
        (d.cloneNode j true).1) := fun c d entry =>
    ((makes_cloneNode d j true).spares.trans (hfill _ _ entry)).trans (spares_appendChild _ _ _)
  have hentries := (makes_createElement d "div").spares.trans
    (spares_foldl entries (fun e entry _ => hentry (d.createElement "div").1 e entry) _)
  exact (hentries.trans (spares_replaceWith _ j (d.createElement "div").1)).trans (spares_release _ j)

theorem spares_fillWithin (marker : String) (levels : Nat) :
    ∀ (d : Document) (j : NodeId) (item : Value), Spares i d (fillWithin marker levels d j item) := by
  induction levels with
  | zero => exact fun d j item => spares_foldl _ (fun d t _ => spares_substituteText d item t) d
  | succ levels ih =>
    intro d j item
    exact (spares_foldl _ (fun d t _ => spares_substituteText d item t) d).trans
      (spares_foldl _ (fun d r _ => spares_repeatElement ih d r.1 r.2) _)

theorem spares_renderItem (d : Document) (marker : String) (content fragment : NodeId) (item : Value) :
    Spares i d
      ((((d.cloneNode content true).2.fill marker (d.cloneNode content true).1 item).appendChild
        fragment (d.cloneNode content true).1).release (d.cloneNode content true).1) :=
  (((makes_cloneNode d content true).spares.trans (spares_fillWithin marker _ _ _ item)).trans
    (spares_appendChild _ _ _)).trans (spares_release _ _)

theorem spares_applyAction (d : Document) (action : Action) (target fragment : NodeId) :
    Spares i d (d.applyAction action target fragment) := by
  cases action with
  | append => exact (spares_appendChild d target fragment).trans (spares_release _ _)
  | swap =>
    unfold applyAction
    dsimp only
    split
    · exact ((spares_replaceWith d target fragment).trans (spares_release _ _)).trans
        (spares_release _ _)
    · exact spares_release d fragment
  | update =>
    exact (((spares_clearChildren d target).trans
      (spares_foldl _ (fun d j _ => spares_release d j) _)).trans
      (spares_appendChild _ _ _)).trans (spares_release _ _)

/-- No rendering gives a kept place back or takes it for a new node. -/
theorem spares_render (d : Document) (marker : String) (template : NodeId) (data : Value)
    (target : NodeId) (action : Action) :
    Spares i d (d.render marker template data target action).2 := by
  unfold render renderFragment
  cases d.content? template with
  | none => exact Spares.refl i d
  | some content =>
    exact ((makes_allocate d .fragment).spares.trans
      (spares_foldl _ (fun d item _ => spares_renderItem d marker content _ item) _)).trans
      (spares_applyAction _ action target _)

end Hypertemplate.Document
