import Hypertemplate.Proofs.Document.Traversal
import Hypertemplate.Selector.Match

/-!
# Queries

A matcher tells whether an element matches a selector, and it may remember what it learns on the way. A query asks it
about one selector after the other. A single node is looked at with a fresh memory, while a search goes over the nodes
below a scope with one memory and stops when it found enough. If no answer depends on the memory (`Matcher.Steady`),
then they are one function (`queries_agree`): a search finds the first of the nodes that are found one by one, and a
list of selectors finds what its members find, in document order.
-/

namespace Hypertemplate

open Document Selector

/-- A matcher of selectors with a memory: whether an element of a document matches a selector, and what is remembered
after that. -/
structure Matcher (σ : Type) where
  fresh : σ
  judge : Document → ComplexSelector → NodeId → σ → Bool × σ

namespace Matcher

variable {σ : Type} {m : Matcher σ} {d : Document} {q : Query} {i scope : NodeId} {s : σ}

/-- Whether an element matches one of several selectors; after the first that it matches no other one is asked
about. -/
def judgeAny (m : Matcher σ) (d : Document) (i : NodeId) : List ComplexSelector → σ → Bool × σ
  | [], s => (false, s)
  | c :: rest, s =>
    if (m.judge d c i s).1 then (true, (m.judge d c i s).2)
    else judgeAny m d i rest (m.judge d c i s).2

/-- Whether a node is an element that a query finds, looked at with a fresh memory. -/
def finds (m : Matcher σ) (q : Query) (d : Document) (i : NodeId) : Bool :=
  d.isElement i && (m.judgeAny d i q.alternatives m.fresh).1

/-- The search goes over nodes until it found enough. Nodes that are no elements are passed over. -/
def searchFrom (m : Matcher σ) (q : Query) (d : Document) (limit : Nat) :
    (found : List NodeId) → σ → List NodeId → List NodeId
  | found, _, [] => found
  | found, s, i :: rest =>
    if limit ≤ found.length then found
    else if d.isElement i then
      searchFrom m q d limit (if (m.judgeAny d i q.alternatives s).1 then found ++ [i] else found)
        (m.judgeAny d i q.alternatives s).2 rest
    else searchFrom m q d limit found s rest

/-- The nodes below a scope that a query finds, at most `limit` of them. -/
def search (m : Matcher σ) (q : Query) (d : Document) (scope : NodeId) (limit : Nat) : List NodeId :=
  m.searchFrom q d limit [] m.fresh (d.descendants scope)

/-- What a matcher may remember of a document: nothing, or what was left after a question about an element. -/
inductive Remembers (m : Matcher σ) (d : Document) : σ → Prop where
  | fresh : Remembers m d m.fresh
  | judge {c : ComplexSelector} {i : NodeId} {s : σ} (hs : Remembers m d s) (hi : d.isElement i = true) :
      Remembers m d (m.judge d c i s).2

/-- What is remembered never changes an answer. -/
def Steady (m : Matcher σ) (d : Document) : Prop :=
  ∀ s, m.Remembers d s → ∀ c i, d.isElement i = true → (m.judge d c i s).1 = (m.judge d c i m.fresh).1

/-- With a fresh memory selectors are read as they are read here. -/
def Reads (m : Matcher σ) (d : Document) : Prop :=
  ∀ c i, d.isElement i = true → (m.judge d c i m.fresh).1 = c.accepts d 0 i

/-! ## One node -/

/-- A question about several selectors leaves what a matcher may remember, and its answer does not depend on what was
remembered before. -/
theorem judgeAny_eq (hm : m.Steady d) (hi : d.isElement i = true) (hs : m.Remembers d s) (cs : List ComplexSelector) :
    (m.judgeAny d i cs s).1 = cs.any (fun c => (m.judge d c i m.fresh).1) ∧
      m.Remembers d (m.judgeAny d i cs s).2 := by
  induction cs generalizing s with
  | nil => exact ⟨rfl, hs⟩
  | cons c rest ih =>
    have hnext : m.Remembers d (m.judge d c i s).2 := hs.judge hi
    rw [judgeAny, List.any_cons, ← hm s hs c i hi]
    cases hc : (m.judge d c i s).1 with
    | true => exact ⟨rfl, hnext⟩
    | false => exact ih hnext

theorem finds_eq_any (hm : m.Steady d) (q : Query) (i : NodeId) :
    m.finds q d i = (d.isElement i && q.alternatives.any fun c => (m.judge d c i m.fresh).1) := by
  by_cases hi : d.isElement i = true
  · rw [finds, (judgeAny_eq hm hi .fresh q.alternatives).1]
  · simp [finds, hi]

/-- A list of selectors finds what one of its members finds. -/
theorem finds_eq_any_member (hm : m.Steady d) (q : Query) (i : NodeId) :
    m.finds q d i = q.alternatives.any fun c => m.finds { q with alternatives := [c] } d i := by
  rw [finds_eq_any hm]
  simp only [finds_eq_any hm, List.any_cons, List.any_nil, Bool.or_false]
  cases d.isElement i <;> simp

/-! ## Searches -/

/-- What a search finds is looked for one by one. -/
theorem searchFrom_eq (hm : m.Steady d) (q : Query) (limit : Nat) (is : List NodeId) :
    ∀ (found : List NodeId) {s : σ}, m.Remembers d s →
      m.searchFrom q d limit found s is = found ++ (is.filter (m.finds q d)).take (limit - found.length) := by
  induction is with
  | nil =>
    intro found s _
    simp [searchFrom]
  | cons i rest ih =>
    intro found s hs
    rw [searchFrom]
    by_cases henough : limit ≤ found.length
    · rw [if_pos henough, Nat.sub_eq_zero_of_le henough, List.take_zero, List.append_nil]
    rw [if_neg henough]
    by_cases hi : d.isElement i = true
    · obtain ⟨hanswer, hnext⟩ := judgeAny_eq hm hi hs q.alternatives
      have hfinds : m.finds q d i = (m.judgeAny d i q.alternatives s).1 := by
        rw [finds_eq_any hm, hi, hanswer, Bool.true_and]
      obtain ⟨k, hk⟩ : ∃ k, limit - found.length = k + 1 :=
        Nat.exists_eq_add_one_of_ne_zero (by omega)
      rw [if_pos hi, ih _ hnext, ← hfinds, List.filter_cons]
      -- A node that is found takes one of the places that are left.
      split
      · have hrest : limit - (found ++ [i]).length = k := by
          rw [List.length_append, List.length_singleton]
          omega
        rw [hk, hrest, List.take_succ_cons, List.append_assoc, List.singleton_append]
      · rfl
    · have hfinds : m.finds q d i = false := by simp [finds, hi]
      rw [if_neg hi, ih _ hs, List.filter_cons, hfinds]
      rfl

theorem search_eq (hm : m.Steady d) (q : Query) (scope : NodeId) (limit : Nat) :
    m.search q d scope limit = ((d.descendants scope).filter (m.finds q d)).take limit :=
  searchFrom_eq hm q limit _ [] .fresh

/-- A search with a limit that the table does not exceed finds all. -/
theorem search_eq_filter (h : d.Sound) (hm : m.Steady d) (q : Query) (scope : NodeId) {limit : Nat}
    (hlimit : d.nodes.size ≤ limit) : m.search q d scope limit = (d.descendants scope).filter (m.finds q d) := by
  rw [search_eq hm, List.take_of_length_le]
  exact Nat.le_trans (List.length_filter_le _ _) (Nat.le_trans (length_descendants_le h scope) hlimit)

/-- The selectors that a query tries in turn. -/
theorem anyAccepts_eq_any (d : Document) (start : NodeId) (cs : List ComplexSelector) (i : NodeId) :
    anyAccepts d start cs i = cs.any fun c => c.accepts d start i := by
  induction cs with
  | nil => rw [anyAccepts, List.any_nil]
  | cons c rest ih => rw [anyAccepts, ih, List.any_cons]

theorem finds_eq_of_reads (hm : m.Steady d) (hr : m.Reads d) (q : Query) : m.finds q d = q.finds d := by
  funext i
  rw [finds_eq_any hm, Query.finds, anyAccepts_eq_any]
  by_cases hi : d.isElement i = true
  · simp only [hi, hr _ i hi]
  · simp [hi]

/-- A search finds the first of the elements below the scope that are found one by one, as many as it is allowed to.
Without a limit it finds all of them, each once and in document order, and a query for one gives the first of them. What
a list of selectors finds is what its members find, in document order. If selectors are read as they are read here, then
these are the queries of this library. -/
theorem queries_agree (h : d.Sound) (hm : m.Steady d) (q : Query) (scope : NodeId) :
    (∀ limit, m.search q d scope limit = ((d.descendants scope).filter (m.finds q d)).take limit) ∧
    (∀ limit, d.nodes.size ≤ limit →
      (∀ i, i ∈ m.search q d scope limit ↔
        i ∈ d.descendants scope ∧ d.isElement i = true ∧ m.finds q d i = true) ∧
      (m.search q d scope limit).Nodup ∧ (m.search q d scope limit).Sublist (d.descendants scope) ∧
      (m.search q d scope 1).head? = (m.search q d scope limit).head? ∧
      m.search q d scope limit = (d.descendants scope).filter fun i => q.alternatives.any fun c =>
        decide (i ∈ m.search { q with alternatives := [c] } d scope limit)) ∧
    (m.Reads d → m.finds q d = q.finds d ∧
      (∀ limit, d.nodes.size ≤ limit → m.search q d scope limit = q.allBelow d scope) ∧
      (m.search q d scope 1).head? = q.firstBelow? d scope) := by
  refine ⟨search_eq hm q scope, fun limit hlimit => ?_, fun hr => ⟨finds_eq_of_reads hm hr q, ?_, ?_⟩⟩
  · have hall : ∀ q, m.search q d scope limit = (d.descendants scope).filter (m.finds q d) := fun q =>
      search_eq_filter h hm q scope hlimit
    refine ⟨fun i => ?_, ?_, ?_, ?_, ?_⟩
    · rw [hall, List.mem_filter]
      simp only [finds, Bool.and_eq_true]
      tauto
    · rw [hall]
      exact (nodup_descendants h scope).filter _
    · rw [hall]
      exact List.filter_sublist
    · rw [search_eq hm, hall, List.head?_take, if_neg Nat.one_ne_zero]
    · rw [hall]
      refine List.filter_congr fun i hi => ?_
      rw [finds_eq_any_member hm]
      simp [hall, List.mem_filter, hi]
  · intro limit hlimit
    rw [search_eq_filter h hm q scope hlimit, finds_eq_of_reads hm hr, Query.allBelow]
  · rw [search_eq hm, List.head?_take, if_neg Nat.one_ne_zero, finds_eq_of_reads hm hr, Query.firstBelow?,
      List.head?_filter]

/-! ## Places that are remembered -/

/-- A matcher that counts the siblings of an element only once, for a selector that asks for nothing but a position. -/
def remembering : Matcher (List ((NodeId × Bool × Bool) × Nat)) where
  fresh := []
  judge d c i s :=
    match c with
    | .compound [.position p] =>
      match s.lookup (i, p.fromEnd, p.sameName) with
      | some n => (p.counts n, s)
      | none =>
        let n := indexOf d i p.fromEnd p.sameName
        (p.counts n, ((i, p.fromEnd, p.sameName), n) :: s)
    | c => (c.accepts d 0 i, s)

/-- The places that are remembered are the places of the elements. -/
def Placed (d : Document) (s : List ((NodeId × Bool × Bool) × Nat)) : Prop :=
  ∀ e ∈ s, e.2 = indexOf d e.1.1 e.1.2.1 e.1.2.2

theorem judge_remembering {s : List ((NodeId × Bool × Bool) × Nat)} (hs : Placed d s) (c : ComplexSelector)
    (i : NodeId) : (remembering.judge d c i s).1 = c.accepts d 0 i ∧ Placed d (remembering.judge d c i s).2 := by
  simp only [remembering]
  split
  · next p =>
    have haccepts : ComplexSelector.accepts d 0 (.compound [.position p]) i =
        p.counts (indexOf d i p.fromEnd p.sameName) := by
      simp [ComplexSelector.accepts, allAccept, Simple.accepts]
    rw [haccepts]
    split
    · next n hn =>
      obtain ⟨before, after, hsplit, -⟩ := List.lookup_eq_some_iff.mp hn
      have hplace : n = indexOf d i p.fromEnd p.sameName :=
        hs ((i, p.fromEnd, p.sameName), n) (by simp [hsplit])
      exact ⟨congrArg p.counts hplace, hs⟩
    · refine ⟨rfl, fun e he => ?_⟩
      rcases List.mem_cons.mp he with rfl | he
      · rfl
      · exact hs e he
  · exact ⟨rfl, hs⟩

theorem placed_of_remembers {s : List ((NodeId × Bool × Bool) × Nat)} (hs : remembering.Remembers d s) :
    Placed d s := by
  induction hs with
  | fresh => exact fun _ he => absurd he List.not_mem_nil
  | judge _ _ ih => exact (judge_remembering ih _ _).2

theorem reads_remembering (d : Document) : remembering.Reads d := fun c i _ =>
  (judge_remembering (placed_of_remembers .fresh) c i).1

theorem steady_remembering (d : Document) : remembering.Steady d := fun _ hs c i hi => by
  rw [(judge_remembering (placed_of_remembers hs) c i).1, reads_remembering d c i hi]

/-- Bold parts and second children in a list, found by a matcher that remembers places. -/
theorem queries_agree_remembered :
    let d := parse "<ul><li>a<b>c</b></li><li>d<i>e</i><b>f</b></li></ul>"
    d.Sound ∧ remembering.Steady d ∧ remembering.Reads d ∧ d.nodes.size ≤ 20 ∧
      ∃ q, (Query.parse "b, :nth-child(2)").toOption = some q ∧
        remembering.search q d 4 20 = [7, 9, 13] ∧ (remembering.search q d 4 1).head? = some 7 := by
  intro d
  have h : d.Sound := (wellFormed_parse _).sound
  have hsize : d.nodes.size ≤ 20 := by decide +kernel
  have hparsed : (Query.parse "b, :nth-child(2)").toOption.map (fun q => (q.allBelow d 4, q.firstBelow? d 4)) =
      some ([7, 9, 13], some 7) := by decide +kernel
  obtain ⟨q, hq, hfound⟩ := Option.map_eq_some_iff.mp hparsed
  obtain ⟨hall, hfirst⟩ := Prod.mk.inj hfound
  obtain ⟨-, hsearch, hhead⟩ := (queries_agree h (steady_remembering d) q 4).2.2 (reads_remembering d)
  exact ⟨h, steady_remembering d, reads_remembering d, hsize, q, hq, (hsearch 20 hsize).trans hall, hhead.trans hfirst⟩

end Matcher

end Hypertemplate
