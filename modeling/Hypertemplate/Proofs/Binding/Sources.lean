import Hypertemplate.Fetch.Request
import Hypertemplate.Html.Parse
import Hypertemplate.Proofs.Text.Pieces

/-!
# Lists of data sources

A list of data sources is cut at every comma. A selector may hold commas that do not end it, between brackets, in a
string or behind a backslash, so a list of selectors comes back as it was written exactly if none of them holds a comma
at all (`dataSourcesOf_join_eq_iff`). What is left of a selector that is torn apart may be a selector of something else
(`torn_selector_finds_other`).
-/

namespace Hypertemplate

open Text Selector

variable {s text : String} {sources : List String}

/-! ## Single selectors -/

/-- A text that is read as one selector. -/
def IsSelector (s : String) : Prop := ∃ q, Query.parse s = .ok q ∧ q.alternatives.length = 1

instance (s : String) : Decidable (IsSelector s) :=
  decidable_of_iff ((Query.parse s).toOption.any (·.alternatives.length == 1) = true) <| by
    unfold IsSelector
    cases Query.parse s with
    | error p => simp [Except.toOption]
    | ok q => simp [Except.toOption]

theorem length_of_mapM_eq_ok {ε α β : Type} {f : α → Except ε β} : ∀ {xs : List α} {ys : List β},
    xs.mapM f = .ok ys → ys.length = xs.length := by
  intro xs
  induction xs with
  | nil =>
    intro ys h
    cases h
    rfl
  | cons x rest ih =>
    intro ys h
    rw [List.mapM_cons] at h
    cases hx : f x with
    | error e =>
      rw [hx] at h
      cases h
    | ok y =>
      rw [hx] at h
      cases hrest : rest.mapM f with
      | error e =>
        rw [hrest] at h
        cases h
      | ok zs =>
        rw [hrest] at h
        cases h
        rw [List.length_cons, List.length_cons, ih hrest]

theorem run_listOf_of_ok {read : List Piece → Except Problem ComplexSelector} {ps : List Piece}
    {xs : List ComplexSelector} (h : (alternatives ps).mapM read = .ok xs) : (listOf read).run ps = .ok xs [] := by
  simp only [listOf, EStateM.run_bind, EStateM.run_get, h]
  rfl

theorem run_listOf_of_error {read : List Piece → Except Problem ComplexSelector} {ps : List Piece} {p : Problem}
    (h : (alternatives ps).mapM read = .error p) : (listOf read).run ps = .error p ps := by
  simp only [listOf, EStateM.run_bind, EStateM.run_get, h]
  rfl

/-- A list of selectors has one alternative more than it has commas outside of brackets. -/
theorem length_alternatives_of_parse {q : Query} (h : Query.parse s = .ok q) :
    q.alternatives.length = (pieces (tokens s)).countP (·.token == .comma) + 1 := by
  rw [← length_splitBy]
  unfold Query.parse at h
  cases hread : (alternatives (pieces (tokens s))).mapM
      (strictAlternative (complex (nestedReaders (tokens s).length) {})) with
  | error p =>
    simp only [run_listOf_of_error hread] at h
    cases h
  | ok xs =>
    simp only [run_listOf_of_ok hread] at h
    cases h
    exact length_of_mapM_eq_ok hread

/-- A single selector has no comma outside of brackets. -/
theorem IsSelector.not_comma (h : IsSelector s) : ∀ p ∈ pieces (tokens s), p.token ≠ .comma := by
  obtain ⟨q, hq, hone⟩ := h
  rw [length_alternatives_of_parse hq] at hone
  have hnone : (pieces (tokens s)).countP (·.token == .comma) = 0 := by omega
  intro p hp hcomma
  exact List.countP_eq_zero.mp hnone p hp (by simp [hcomma])

theorem IsSelector.ne_empty (h : IsSelector s) : s ≠ "" := by
  rintro rfl
  exact absurd h (by decide +kernel)

/-! ## Cutting lists -/

theorem dataSourcesOf_comma (a b : String) :
    dataSourcesOf (a ++ "," ++ b) = dataSourcesOf a ++ dataSourcesOf b := by
  rw [dataSourcesOf, splitOnChar_append (by rfl), List.map_append, List.filter_append]
  rfl

theorem dataSourcesOf_blank (b : String) : dataSourcesOf (" " ++ b) = dataSourcesOf b := by
  have htext : (" " ++ b).toList = ' ' :: b.toList := by simp
  obtain ⟨piece, rest, hb, hsplit⟩ := splitBy_cons_of_neg (p := (· == ',')) (x := ' ') (by decide) b.toList
  rw [dataSourcesOf, splitOnChar, htext, hsplit, dataSourcesOf, splitOnChar, hb]
  simp only [List.map_cons, trim, String.toList_ofList, trimChars_cons_of_isBlank (c := ' ') (by decide)]

/-- A list of data sources that are joined is cut as each of them is. -/
theorem dataSourcesOf_intercalate (sources : List String) :
    dataSourcesOf (", ".intercalate sources) = sources.flatMap dataSourcesOf := by
  induction sources with
  | nil => rfl
  | cons a rest ih =>
    cases rest with
    | nil => simp
    | cons b rest =>
      have hjoin : ∀ t : String, a ++ ", " ++ t = a ++ "," ++ (" " ++ t) := by
        intro t
        rw [show (", " : String) = "," ++ " " from rfl]
        simp only [String.append_assoc]
      rw [String.intercalate_cons_cons, hjoin, dataSourcesOf_comma, dataSourcesOf_blank, List.flatMap_cons, ih]

theorem dataSourcesOf_eq_singleton (htrim : trim s = s) (hne : s ≠ "") (hcomma : ',' ∉ s.toList) :
    dataSourcesOf s = [s] := by
  simp [dataSourcesOf, splitOnChar_of_not_mem hcomma, htrim, hne]

theorem comma_not_mem_of_mem_dataSourcesOf (h : s ∈ dataSourcesOf text) : ',' ∉ s.toList := by
  obtain ⟨h, -⟩ := List.mem_filter.mp h
  obtain ⟨piece, hpiece, rfl⟩ := List.mem_map.mp h
  obtain ⟨cs, hcs, rfl⟩ := List.mem_map.mp hpiece
  intro hcomma
  rw [trim, String.toList_ofList, String.toList_ofList] at hcomma
  exact absurd (eq_false_of_mem_splitBy hcs _ (mem_of_mem_trimChars hcomma)) (by decide)

/-! ## Lists of selectors -/

theorem flatMap_dataSourcesOf_eq_iff (hsources : ∀ s ∈ sources, trim s = s ∧ s ≠ "") :
    sources.flatMap dataSourcesOf = sources ↔ ∀ s ∈ sources, ',' ∉ s.toList := by
  constructor
  · intro h s hs
    rw [← h] at hs
    obtain ⟨text, -, hs⟩ := List.mem_flatMap.mp hs
    exact comma_not_mem_of_mem_dataSourcesOf hs
  · intro h
    induction sources with
    | nil => rfl
    | cons s rest ih =>
      obtain ⟨htrim, hne⟩ := hsources s List.mem_cons_self
      rw [List.flatMap_cons, dataSourcesOf_eq_singleton htrim hne (h s List.mem_cons_self),
        ih (fun s hs => hsources s (List.mem_cons_of_mem _ hs)) fun s hs => h s (List.mem_cons_of_mem _ hs)]
      rfl

/-- A blank list names no source. -/
theorem dataSourcesOf_of_allBlank (h : allBlank text = true) : dataSourcesOf text = [] := by
  have hcomma : ',' ∉ text.toList := fun hc => absurd (List.all_eq_true.mp h _ hc) (by decide)
  simp [dataSourcesOf, splitOnChar_of_not_mem hcomma, allBlank_iff_trim.mp h]

/-- The data sources of a binding are those that the attribute lists, if it lists any. -/
theorem dataSources_of_attribute {d : Document} {names : AttributeNames} {template : NodeId} {b : Binding}
    (hb : d.binding? names template = some b) (htext : d.attribute? template names.dataSources = some text) :
    b.dataSources = if dataSourcesOf text = [] then none else some (dataSourcesOf text) := by
  obtain ⟨endpoint, -, rfl⟩ := Option.map_eq_some_iff.mp hb
  simp only [Document.declared, htext, Declared.ofValue]
  cases hblank : allBlank text with
  | true => simp [Declared.value?, dataSourcesOf_of_allBlank hblank]
  | false =>
    by_cases hnone : dataSourcesOf text = []
    · simp [Declared.value?, hnone]
    · simp [Declared.value?, Option.filter, hnone]

/-- Selectors without blanks around them, each of which is a single one and so has no comma outside of brackets, are
joined with commas. Cutting this list gives what cutting each of them gives, and it gives them back as they were
exactly if none of them holds a comma, in a string, between brackets or behind a backslash either. The same goes for
the data sources of a binding whose attribute is this list. -/
theorem dataSourcesOf_join_eq_iff (hne : sources ≠ [])
    (hsources : ∀ s ∈ sources, trim s = s ∧ IsSelector s) :
    (∀ s ∈ sources, ∀ p ∈ pieces (tokens s), p.token ≠ .comma) ∧
    dataSourcesOf (", ".intercalate sources) = sources.flatMap dataSourcesOf ∧
    (dataSourcesOf (", ".intercalate sources) = sources ↔ ∀ s ∈ sources, ',' ∉ s.toList) ∧
    ∀ (d : Document) names template b, d.binding? names template = some b →
      d.attribute? template names.dataSources = some (", ".intercalate sources) →
      (b.dataSources = some sources ↔ ∀ s ∈ sources, ',' ∉ s.toList) := by
  have hiff : dataSourcesOf (", ".intercalate sources) = sources ↔ ∀ s ∈ sources, ',' ∉ s.toList := by
    rw [dataSourcesOf_intercalate]
    exact flatMap_dataSourcesOf_eq_iff fun s hs => ⟨(hsources s hs).1, (hsources s hs).2.ne_empty⟩
  refine ⟨fun s hs => (hsources s hs).2.not_comma, dataSourcesOf_intercalate sources, hiff,
    fun d names template b hb htext => ?_⟩
  rw [dataSources_of_attribute hb htext, ← hiff]
  split
  · next hnone => simp [hnone, hne.symm]
  · exact Option.some_inj

/-- Two selectors of which one has a comma in a string. -/
theorem dataSourcesOf_join_eq_iff_string :
    let sources := ["#q", "[data-k=\"a,b\"]"]
    (∀ s ∈ sources, trim s = s ∧ IsSelector s) ∧ dataSourcesOf (", ".intercalate sources) ≠ sources ∧
      dataSourcesOf (", ".intercalate ["#q"]) = ["#q"] := by
  intro sources
  have hsources : ∀ s ∈ sources, trim s = s ∧ IsSelector s := by decide +kernel
  have hq : ∀ s ∈ ["#q"], trim s = s ∧ IsSelector s := by decide +kernel
  obtain ⟨-, -, hiff, -⟩ := dataSourcesOf_join_eq_iff (by decide) hsources
  obtain ⟨-, -, hiff', -⟩ := dataSourcesOf_join_eq_iff (by decide) hq
  refine ⟨hsources, fun h => ?_, hiff'.mpr (by decide)⟩
  exact hiff.mp h "[data-k=\"a,b\"]" (by simp [sources]) (by decide)

/-- A selector with a comma in a string, alone in a list of data sources, is torn apart there: it finds the second
element, but its first part, where the string and the bracket are open to the end, finds the first element. -/
theorem torn_selector_finds_other :
    let s := "[data-k=\"a,b\"]"
    let d := Document.parse "<i data-k=a>x</i><i data-k='a,b'>y</i>"
    trim s = s ∧ IsSelector s ∧ dataSourcesOf (", ".intercalate [s]) = ["[data-k=\"a", "b\"]"] ∧
      d.payload? (some [s]) = some (.object [(s, .string "y")]) ∧
      d.payload? (some (dataSourcesOf (", ".intercalate [s]))) =
        some (.object [("[data-k=\"a", .string "x")]) := by
  intro s d
  have htorn : trim s = s ∧ IsSelector s ∧ dataSourcesOf (", ".intercalate [s]) = ["[data-k=\"a", "b\"]"] := by
    decide +kernel
  have hsent : (d.find? s).map d.sentText = some "y" ∧ (d.find? "[data-k=\"a").map d.sentText = some "x" ∧
      (d.find? "b\"]").map d.sentText = none := by
    decide +kernel
  have hkeys : payloadKey s = s ∧ payloadKey "[data-k=\"a" = "[data-k=\"a" := by decide +kernel
  have hfield : ∀ source, (d.find? source).map (fun i => (payloadKey source, Json.Value.string (d.sentText i))) =
      ((d.find? source).map d.sentText).map fun sent => (payloadKey source, .string sent) := by
    intro source
    rw [Option.map_map]
    rfl
  obtain ⟨htrim, hselector, hsources⟩ := htorn
  refine ⟨htrim, hselector, hsources, ?_, ?_⟩
  · simp only [Document.payload?, Document.payloadFields, Option.map_some, List.filterMap_cons, List.filterMap_nil,
      hfield, hsent, hkeys]
    rfl
  · simp only [hsources, Document.payload?, Document.payloadFields, Option.map_some, Option.map_none,
      List.filterMap_cons, List.filterMap_nil, hfield, hsent, hkeys]
    rfl

end Hypertemplate
