import Hypertemplate.Proofs.Document.Loops
import Hypertemplate.Proofs.Document.Table
import Hypertemplate.Proofs.Document.Values
import Hypertemplate.Proofs.Document.Walks
import Hypertemplate.Proofs.Html.Settle

/-!
# Walks down, walks up and preorder

The walk downwards keeps a list of the nodes that it goes on from, the walk upwards follows parents, and the preorder
of a node follows its children. In a sound document the three tell the same (`walks_agree`): the walk downwards ends
and meets the preorder of the node but for the node itself, and it meets exactly the other nodes whose walks upwards
come to the node. So the nodes that are connected are the root and the nodes below it, and the text of a node is made of
the texts that the walk meets.
-/

namespace Hypertemplate

/-- The kinds of nodes that may have children. -/
def Kind.isInner : Kind → Bool
  | .document | .fragment | .element _ => true
  | .text _ | .comment _ => false

namespace Document

variable {d : Document} {a i : NodeId} {n : Nat}

/-! ## Downwards -/

/-- The nodes that hang on a node are in its preorder. -/
theorem Hangs.mem_listing (hi : d.Hangs a i) (h : d.Sound) : i ∈ d.listing a := by
  induction hi using Relation.ReflTransGen.head_induction_on with
  | refl =>
    rw [h.listing_eq]
    exact List.mem_cons_self
  | head hc _ ih =>
    rw [h.listing_eq]
    exact List.mem_cons_of_mem _ (List.mem_flatMap.mpr ⟨_, hc, ih⟩)

theorem Sound.mem_descendants_iff (h : d.Sound) : i ∈ d.descendants a ↔ i ≠ a ∧ a ∈ d.ancestors i := by
  rw [mem_ancestors_iff h]
  constructor
  · exact fun hi => ⟨ne_of_mem_descendants h hi, hangs_of_mem_descendants hi⟩
  · rintro ⟨hne, hi⟩
    have hmem := hi.mem_listing h
    rw [h.listing_eq_cons] at hmem
    exact (List.mem_cons.mp hmem).resolve_left hne

theorem length_descendants_le (h : d.Sound) (i : NodeId) : (d.descendants i).length ≤ d.nodes.size := by
  refine length_le_of_nodup (nodup_descendants h i) fun j hj => ?_
  obtain ⟨p, hp, -⟩ := (hangs_of_mem_descendants hj).exists_parent h (ne_of_mem_descendants h hj)
  exact lt_size_of_parent hp

/-- Where a walk downwards stands: the nodes that it met, and the nodes that it goes on from, the next one first. -/
structure Walk where
  met : List NodeId
  pending : List NodeId

/-- One turn of the walk: the next node is met, and its children come next. -/
def Walk.turn? (d : Document) : Walk → Option Walk
  | ⟨_, []⟩ => none
  | ⟨met, i :: rest⟩ => some ⟨met ++ [i], d.children i ++ rest⟩

theorem Sound.walk_ends (h : d.Sound) (n : Nat) : ∀ {met is : List NodeId},
    (is.flatMap d.listing).length = n → EndsAfter (Walk.turn? d) n ⟨met, is⟩ ⟨met ++ is.flatMap d.listing, []⟩ := by
  -- The preorders of the nodes on the list are what is still to be met; a turn takes one node away from them.
  induction n with
  | zero =>
    intro met is hn
    cases is with
    | nil =>
      rw [List.flatMap_nil, List.append_nil]
      exact .zero rfl
    | cons i rest => simp [h.flatMap_listing_cons] at hn
  | succ n ih =>
    intro met is hn
    cases is with
    | nil => cases hn
    | cons i rest =>
      rw [h.flatMap_listing_cons, List.length_cons] at hn
      rw [h.flatMap_listing_cons, List.append_cons]
      exact .succ rfl (ih (Nat.succ.inj hn))

/-! ## Upwards -/

theorem Rising.ancestors_eq (h : d.Rising) (i : NodeId) :
    d.ancestors i = i :: ((d.parent i).map d.ancestors).getD [] := by
  refine List.ext_getElem? fun k => ?_
  rw [h.getElem?_ancestors]
  cases k with
  | zero => rfl
  | succ k =>
    rw [above?, List.getElem?_cons_succ]
    cases d.parent i with
    | none => rfl
    | some p => exact (h.getElem?_ancestors k p).symm

/-- Where a walk upwards stands: the nodes that it met, and the last one of them. -/
structure Ascent where
  met : List NodeId
  last : NodeId

/-- One turn of the walk: the parent of the last node is met. -/
def Ascent.turn? (d : Document) (s : Ascent) : Option Ascent :=
  (d.parent s.last).map fun p => ⟨s.met ++ [p], p⟩

theorem Rising.ascent_ends (h : d.Rising) (n : Nat) : ∀ {met : List NodeId} {i : NodeId},
    (d.ancestors i).length = n + 1 →
      ∃ top, EndsAfter (Ascent.turn? d) n ⟨met ++ [i], i⟩ ⟨met ++ d.ancestors i, top⟩ := by
  -- One turn moves the first node above `i` from the walk that is left to `met`.
  induction n with
  | zero =>
    intro met i hn
    rw [h.ancestors_eq] at hn ⊢
    cases hp : d.parent i with
    | none => exact ⟨i, .zero (by simp [Ascent.turn?, hp])⟩
    | some p => simp [hp, h.ancestors_eq p] at hn
  | succ n ih =>
    intro met i hn
    rw [h.ancestors_eq] at hn ⊢
    cases hp : d.parent i with
    | none => simp [hp] at hn
    | some p =>
      obtain ⟨top, htop⟩ := @ih (met ++ [i]) p (by simpa [hp] using hn)
      have hturn : Ascent.turn? d ⟨met ++ [i], i⟩ = some ⟨met ++ [i] ++ [p], p⟩ := by simp [Ascent.turn?, hp]
      exact ⟨top, .succ hturn (by simpa using htop)⟩

theorem isConnected_iff_mem_descendants (h : d.Sound) (hr : d.parent root = none) :
    d.isConnected i = true ↔ i = root ∨ i ∈ d.descendants root := by
  rw [h.rising.isConnected_iff, ← h.rising.mem_ancestors, h.mem_descendants_iff]
  by_cases hi : i = root
  · have hself : root ∈ d.ancestors root := (mem_ancestors_iff h).mpr Hangs.refl
    simp [hi, hself, hr]
  · simp [hi, hr]

/-! ## Texts -/

/-- A node's own text. -/
def ownText (d : Document) (i : NodeId) : String := (d.text? i).getD ""

theorem join_map_flatMap {f : NodeId → List NodeId} {g : NodeId → String} (is : List NodeId) :
    String.join ((is.flatMap f).map g) = String.join (is.map fun i => String.join ((f i).map g)) := by
  induction is with
  | nil => rfl
  | cons i is ih => rw [List.flatMap_cons, List.map_append, String.join_append, ih, List.map_cons, String.join_cons]

/-- If only the nodes have children that may, then the text of a tree is made of the texts of the preorder. -/
theorem Sound.text_tree (h : d.Sound)
    (hinner : ∀ i, d.children i ≠ [] → (d.kind i).isInner = true) (i : NodeId) :
    (d.tree i).text = String.join ((d.listing i).map d.ownText) := by
  refine h.induction (motive := fun i => (d.tree i).text = String.join ((d.listing i).map d.ownText)) i fun p ih => ?_
  have hbelow : String.join ((d.children p).map fun c => String.join ((d.listing c).map d.ownText)) =
      Tree.textList ((d.children p).map d.tree) :=
    join_textBelow fun c hc => (ih c (owns_iff.mpr (Or.inl hc))).symm
  have hleaf : (d.kind p).isInner = false → Tree.textList ((d.children p).map d.tree) = "" := by
    intro hk
    have hnil : d.children p = [] := by
      by_contra hne
      rw [hinner p hne] at hk
      cases hk
    rw [hnil]
    rfl
  rw [h.listing_eq, List.map_cons, String.join_cons, join_map_flatMap, hbelow, h.tree_eq, ownText, text?]
  -- A text or a comment has nothing below it, and other nodes have no text of their own.
  cases hk : d.kind p with
  | document | fragment | element e => exact String.empty_append.symm
  | text t =>
    rw [hleaf (by rw [hk]; rfl)]
    exact String.append_empty.symm
  | comment t =>
    rw [hleaf (by rw [hk]; rfl)]
    rfl

/-- The text of a node that may have children is made of the texts of the nodes below it. -/
theorem Sound.textContent_eq_join (h : d.Sound)
    (hinner : ∀ i, d.children i ≠ [] → (d.kind i).isInner = true) (ha : (d.kind a).isInner = true) :
    d.textContent a = String.join ((d.descendants a).map d.ownText) := by
  rw [h.textContent_eq, h.text_tree hinner, h.listing_eq_cons, List.map_cons, String.join_cons, ownText, text?]
  cases hk : d.kind a with
  | document | fragment | element e => exact String.empty_append
  | text t | comment t =>
    rw [hk] at ha
    cases ha

/-- The walk downwards from a node ends after one turn for each node below it. -/
theorem Sound.descent_ends (h : d.Sound) (a : NodeId) :
    EndsAfter (Walk.turn? d) (d.descendants a).length ⟨[], d.children a⟩ ⟨d.descendants a, []⟩ := by
  rw [h.descendants_eq]
  exact h.walk_ends _ rfl

theorem Sound.preorder_eq (h : d.Sound) (hn : d.nodes.size ≤ n) (a : NodeId) :
    d.preorder n a = a :: d.descendants a := by
  rw [preorder_eq_listing h (Nat.le_trans (rank_le_size _ a) hn), h.listing_eq_cons]

/-! ## The walks agree -/

/-- The walk downwards from a node ends after one turn for each node below it, and it meets the preorder of the node but
for the node itself, without duplicates. The walk upwards from a node ends after one turn for each other node that it
meets. A node is met on the way down from another one if and only if the other one is met on the way up from it. -/
theorem walks_agree (h : d.Sound) :
    (∀ a, EndsAfter (Walk.turn? d) (d.descendants a).length ⟨[], d.children a⟩ ⟨d.descendants a, []⟩ ∧
      (∀ depth, d.nodes.size ≤ depth → d.preorder depth a = a :: d.descendants a) ∧
      (d.descendants a).Nodup) ∧
    (∀ i, ∃ top, EndsAfter (Ascent.turn? d) ((d.ancestors i).length - 1) ⟨[i], i⟩ ⟨d.ancestors i, top⟩) ∧
    (∀ a i, i ∈ d.descendants a ↔ i ≠ a ∧ a ∈ d.ancestors i) ∧
    (d.parent root = none → ∀ i, d.isConnected i = true ↔ i = root ∨ i ∈ d.descendants root) ∧
    ((∀ i, d.children i ≠ [] → (d.kind i).isInner = true) → ∀ a, (d.kind a).isInner = true →
      d.textContent a = String.join ((d.descendants a).map fun i => (d.text? i).getD "")) := by
  refine ⟨fun a => ⟨h.descent_ends a, fun depth hdepth => h.preorder_eq hdepth a, nodup_descendants h a⟩,
    fun i => ?_, fun a i => h.mem_descendants_iff, fun hr i => isConnected_iff_mem_descendants h hr,
    fun hinner a ha => h.textContent_eq_join hinner ha⟩
  have hpos : 0 < (d.ancestors i).length := by simp [h.rising.ancestors_eq i]
  exact @Rising.ascent_ends d h.rising _ [] i (by omega)

/-- A paragraph with a part in it, a comment and a text. -/
theorem walks_agree_paragraph :
    let d := parse "<p>a<b>c</b></p><!--e-->f"
    d.Sound ∧ d.parent root = none ∧ (∀ i, d.children i ≠ [] → (d.kind i).isInner = true) ∧
      (d.kind 3).isInner = true ∧ d.descendants 3 = [4, 5, 6, 7, 8, 9] ∧ 3 ∈ d.ancestors 7 ∧
      d.isConnected 7 = true ∧ d.textContent 3 = "acf" := by
  intro d
  have h : d.Sound := (wellFormed_parse _).sound
  have hr : d.parent root = none := by decide +kernel
  have hinner : ∀ i, d.children i ≠ [] → (d.kind i).isInner = true := by
    intro i hi
    obtain ⟨c, hc⟩ := List.exists_mem_of_ne_nil _ hi
    have hall : ∀ i < d.nodes.size, d.children i ≠ [] → (d.kind i).isInner = true := by decide +kernel
    exact hall i (lt_size_of_mem_children hc) hi
  have hbody : (d.kind 3).isInner = true := by decide +kernel
  have hdown : d.descendants 3 = [4, 5, 6, 7, 8, 9] ∧ 7 ∈ d.descendants root := by decide +kernel
  obtain ⟨-, -, hmem, hconnected, htext⟩ := walks_agree h
  have hup : 3 ∈ d.ancestors 7 := ((hmem 3 7).mp (by rw [hdown.1]; decide)).2
  have hon : d.isConnected 7 = true := (hconnected hr 7).mpr (Or.inr hdown.2)
  refine ⟨h, hr, hinner, hbody, hdown.1, hup, hon, ?_⟩
  rw [htext hinner 3 hbody, hdown.1]
  decide +kernel

end Document

end Hypertemplate
