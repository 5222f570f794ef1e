import Hypertemplate.Binding.Diagnose
import Hypertemplate.Html.Parse

/-!
# Diagnostics against bindings

Diagnostics and bindings are two readings of the same attributes. `silent_iff` compares them: nothing is said
about an attribute exactly if it is absent, if the binding goes by what it declares (`Honours`), or if it is a
list of data sources that is not blank and names none. The last case is a gap: such a list counts as absent
and goes unreported (`lone_comma_unreported`).
-/

namespace Hypertemplate

open Hypertemplate.Text

/-- The attributes of a binding that a template may leave out. -/
inductive Field where
  | dataSources
  | method
  | event
  | error
  | target
  | eventTarget
  | action
  deriving DecidableEq, Repr

variable {d : Document} {template : NodeId} {names : AttributeNames} {b : Binding} {f g : Field}
  {x : Diagnostic} {value lead : String}

namespace Field

/-- The name that an attribute has among given ones. -/
def nameIn (names : AttributeNames) : Field → String
  | dataSources => names.dataSources
  | method => names.method
  | event => names.event
  | error => names.error
  | target => names.target
  | eventTarget => names.eventTarget
  | action => names.action

/-- The part of a name that follows the common beginning. -/
def tail : Field → String
  | dataSources => "data-sources"
  | method => "method"
  | event => "event"
  | error => "error"
  | target => "target"
  | eventTarget => "event-target"
  | action => "action"

theorem nameIn_startingWith (lead : String) (f : Field) :
    f.nameIn (.startingWith lead) = lowerAscii lead ++ lowerAscii f.tail := by
  cases f <;> simp [nameIn, tail, AttributeNames.startingWith, lowerAscii]

theorem lowerAscii_tail_inj (h : lowerAscii f.tail = lowerAscii g.tail) : f = g := by
  cases f <;> cases g <;> first | rfl | exact absurd h (by decide)

/-- Different attributes have different names, whatever their common beginning is. -/
theorem nameIn_inj (h : f.nameIn (.startingWith lead) = g.nameIn (.startingWith lead)) : f = g := by
  rw [nameIn_startingWith, nameIn_startingWith] at h
  exact lowerAscii_tail_inj (String.append_right_inj _ |>.mp h)

theorem mem_optional (names : AttributeNames) (f : Field) : f.nameIn names ∈ names.optional := by
  cases f <;> simp [nameIn, AttributeNames.optional]

end Field

/-! ## What diagnostics are about -/

/-- A diagnostic is about an attribute: it names it, or says what is wrong with its value. -/
def Diagnostic.Concerns (names : AttributeNames) (f : Field) : Diagnostic → Prop
  | .emptyAttribute name => name = f.nameIn names
  | .invalidSelector name _ _ => name = f.nameIn names
  | .unmatchedSelector name _ => name = f.nameIn names
  | .unknownAction _ => f = .action
  | .invalidMethod _ => f = .method
  | .unusableEvent _ => f = .event
  | .emptyEndpoint => False

namespace Document

/-- The diagnostics for the value of an attribute. -/
def valueDiagnostics (d : Document) (names : AttributeNames) (template : NodeId) :
    Field → List Diagnostic
  | .dataSources => d.sourceDiagnostics names template
  | .method => d.methodDiagnostics names template
  | .event => d.eventDiagnostics names template
  | .error => []
  | .target => d.targetDiagnostics template names.target
  | .eventTarget => d.targetDiagnostics template names.eventTarget
  | .action => d.actionDiagnostics names template

theorem mem_diagnose_iff : x ∈ d.diagnose names template ↔
    x ∈ d.endpointDiagnostics names template ∨ x ∈ d.blankDiagnostics names template ∨
      ∃ f, x ∈ d.valueDiagnostics names template f := by
  simp only [diagnose, List.mem_append]
  constructor
  · rintro (((((((h | h) | h) | h) | h) | h) | h) | h)
    · exact Or.inl h
    · exact Or.inr (Or.inl h)
    · exact Or.inr (Or.inr ⟨.method, h⟩)
    · exact Or.inr (Or.inr ⟨.event, h⟩)
    · exact Or.inr (Or.inr ⟨.target, h⟩)
    · exact Or.inr (Or.inr ⟨.eventTarget, h⟩)
    · exact Or.inr (Or.inr ⟨.dataSources, h⟩)
    · exact Or.inr (Or.inr ⟨.action, h⟩)
  · rintro (h | h | ⟨f, h⟩)
    · simp [h]
    · simp [h]
    · cases f <;> simp_all [valueDiagnostics]

theorem concerns_of_mem_selectorDiagnostics {name selector : String}
    (h : x ∈ d.selectorDiagnostics name selector) : x.Concerns names f ↔ name = f.nameIn names := by
  unfold selectorDiagnostics at h
  split at h
  · rw [List.mem_singleton.mp h]
    rfl
  · split at h
    · cases h
    · rw [List.mem_singleton.mp h]
      rfl

theorem concerns_of_mem_targetDiagnostics {name : String} (h : x ∈ d.targetDiagnostics template name) :
    x.Concerns names f ↔ name = f.nameIn names := by
  unfold targetDiagnostics at h
  split at h
  · exact concerns_of_mem_selectorDiagnostics h
  · cases h

/-- A diagnostic for the value of one attribute is not about another one. -/
theorem concerns_of_mem_valueDiagnostics
    (h : x ∈ d.valueDiagnostics (.startingWith lead) template g) :
    x.Concerns (.startingWith lead) f ↔ f = g := by
  have hname : g.nameIn (.startingWith lead) = f.nameIn (.startingWith lead) ↔ f = g :=
    ⟨fun he => (Field.nameIn_inj he).symm, fun he => by rw [he]⟩
  cases g with
  | dataSources =>
    simp only [valueDiagnostics, sourceDiagnostics] at h
    split at h
    · obtain ⟨s, -, hs⟩ := List.mem_flatMap.mp h
      exact (concerns_of_mem_selectorDiagnostics hs).trans hname
    · cases h
  | method =>
    simp only [valueDiagnostics, methodDiagnostics] at h
    split at h
    · split at h
      · cases h
      · rw [List.mem_singleton.mp h]
        rfl
    · cases h
  | event =>
    simp only [valueDiagnostics, eventDiagnostics] at h
    split at h
    · split at h
      · rw [List.mem_singleton.mp h]
        rfl
      · cases h
    · cases h
  | error => cases h
  | target => exact (concerns_of_mem_targetDiagnostics h).trans hname
  | eventTarget => exact (concerns_of_mem_targetDiagnostics h).trans hname
  | action =>
    simp only [valueDiagnostics, actionDiagnostics] at h
    split at h
    · split at h
      · cases h
      · rw [List.mem_singleton.mp h]
        rfl
    · cases h

/-- Nothing is said about an attribute if it is not blank and nothing is wrong with its value. -/
theorem silent_iff_valueDiagnostics :
    (∀ x ∈ d.diagnose (.startingWith lead) template, ¬ x.Concerns (.startingWith lead) f) ↔
      d.declared template (f.nameIn (.startingWith lead)) ≠ .blank ∧
        d.valueDiagnostics (.startingWith lead) template f = [] := by
  constructor
  · intro h
    constructor
    · intro hblank
      have hmem : Diagnostic.emptyAttribute (f.nameIn (.startingWith lead)) ∈
          d.blankDiagnostics (.startingWith lead) template := by
        refine List.mem_map.mpr ⟨_, List.mem_filter.mpr ⟨Field.mem_optional _ f, ?_⟩, rfl⟩
        simpa using hblank
      exact h _ (mem_diagnose_iff.mpr (Or.inr (Or.inl hmem))) rfl
    · refine List.eq_nil_iff_forall_not_mem.mpr fun x hx => ?_
      exact h x (mem_diagnose_iff.mpr (Or.inr (Or.inr ⟨f, hx⟩)))
        ((concerns_of_mem_valueDiagnostics hx).mpr rfl)
  · rintro ⟨hblank, hvalue⟩ x hx hc
    rcases mem_diagnose_iff.mp hx with hx | hx | ⟨g, hx⟩
    · unfold endpointDiagnostics at hx
      split at hx
      · rw [List.mem_singleton.mp hx] at hc
        exact hc
      · cases hx
    · obtain ⟨name, hname, rfl⟩ := List.mem_map.mp hx
      have hdeclared := (List.mem_filter.mp hname).2
      rw [show name = f.nameIn (.startingWith lead) from hc] at hdeclared
      exact hblank (by simpa using hdeclared)
    · rw [← (concerns_of_mem_valueDiagnostics hx).mp hc, hvalue] at hx
      cases hx

/-! ## What bindings go by -/

/-- The binding goes by what an attribute declares: it has at least one data source and finds each of them, its
method is a token, its event has a name, its handler is named, its targets are those that the selectors find
first, and its action is the one that is named. -/
def Honours (d : Document) (b : Binding) (value : String) : Field → Prop
  | .dataSources => b.dataSources = some (dataSourcesOf value) ∧ dataSourcesOf value ≠ [] ∧
      ∀ s ∈ dataSourcesOf value, (d.find? s).isSome = true
  | .method => b.method = upperAscii (trim value) ∧ isMethodToken (trim value) = true
  | .event => b.event = trim value ∧ (trim value = loadEvent ∨ 3 ≤ (trim value).length)
  | .error => b.errorHandler = some (trim value) ∧ allBlank value = false
  | .target => d.find? value = some b.target
  | .eventTarget => d.find? value = some b.eventTarget
  | .action => Action.ofText? value = some b.action

/-- A declared list of data sources that names none. -/
def NamesNoSource (d : Document) (names : AttributeNames) (template : NodeId) : Prop :=
  ∃ value, d.declared template names.dataSources = .given value ∧ dataSourcesOf value = []

theorem selectorDiagnostics_eq_nil_iff {name selector : String} :
    d.selectorDiagnostics name selector = [] ↔ (d.find? selector).isSome = true := by
  unfold selectorDiagnostics find? select
  cases Query.parse selector with
  | error p => simp
  | ok q => simp [Option.isSome_iff_ne_none]

theorem allBlank_of_declared {name : String} (h : d.declared template name = .given value) :
    allBlank value = false := by
  unfold declared Declared.ofValue at h
  split at h
  · cases h
  · split at h
    · cases h
    · next hblank =>
      cases h
      simpa using hblank

/-- A declared selector draws no diagnostic if the first node that it finds is taken. -/
theorem targetDiagnostics_eq_nil_iff {name : String} {default : NodeId}
    (h : d.declared template name = .given value) :
    d.targetDiagnostics template name = [] ↔
      d.find? value = some (((d.declared template name).value?.bind d.find?).getD default) := by
  unfold targetDiagnostics
  rw [h]
  dsimp only [Declared.value?, Option.bind_some]
  rw [selectorDiagnostics_eq_nil_iff]
  cases d.find? value with
  | none => simp
  | some i => simp

/-- A value that is not blank draws no diagnostic if the binding goes by it, or if it is a list of data sources
that names none. -/
theorem valueDiagnostics_eq_nil_iff (hb : d.binding? names template = some b)
    (hv : d.declared template (f.nameIn names) = .given value) :
    d.valueDiagnostics names template f = [] ↔
      d.Honours b value f ∨ (f = .dataSources ∧ dataSourcesOf value = []) := by
  obtain ⟨endpoint, -, rfl⟩ := Option.map_eq_some_iff.mp hb
  cases f with
  | dataSources =>
    rw [Field.nameIn] at hv
    simp only [valueDiagnostics, sourceDiagnostics, Honours, hv, Declared.value?, Option.map_some,
      List.flatMap_eq_nil_iff, selectorDiagnostics_eq_nil_iff, true_and]
    by_cases hs : dataSourcesOf value = []
    · simp [hs]
    · simp [hs, Option.filter]
  | method =>
    rw [Field.nameIn] at hv
    simp [valueDiagnostics, methodDiagnostics, Honours, hv, methodFor, Declared.value?]
  | event =>
    rw [Field.nameIn] at hv
    simp only [valueDiagnostics, eventDiagnostics, Honours, hv, Declared.value?]
    by_cases he : trim value = loadEvent
    · simp [he]
    · simp [he]
      omega
  | error =>
    rw [Field.nameIn] at hv
    simp [valueDiagnostics, Honours, hv, Declared.value?, allBlank_of_declared hv]
  | target =>
    rw [Field.nameIn] at hv
    simpa [Honours, valueDiagnostics] using targetDiagnostics_eq_nil_iff hv
  | eventTarget =>
    rw [Field.nameIn] at hv
    simpa [Honours, valueDiagnostics] using targetDiagnostics_eq_nil_iff hv
  | action =>
    rw [Field.nameIn] at hv
    simp only [valueDiagnostics, actionDiagnostics, Honours, hv, Declared.value?, Option.map_some,
      Option.getD_some, Action.ofText]
    cases Action.ofText? value with
    | none => simp
    | some a => simp

/-- Without a value nothing is wrong with it. -/
theorem valueDiagnostics_of_absent (h : d.declared template (f.nameIn names) = .absent) :
    d.valueDiagnostics names template f = [] := by
  cases f <;> rw [Field.nameIn] at h <;>
    simp [valueDiagnostics, sourceDiagnostics, methodDiagnostics, eventDiagnostics, targetDiagnostics,
      actionDiagnostics, h]

/-- Nothing is said about an optional attribute of a template with an endpoint exactly if the attribute is
absent, if the binding goes by what it declares, or if it is a list of data sources that names none. -/
theorem silent_iff (hb : d.binding? (.startingWith lead) template = some b) (f : Field) :
    (∀ x ∈ d.diagnose (.startingWith lead) template, ¬ x.Concerns (.startingWith lead) f) ↔
      d.declared template (f.nameIn (.startingWith lead)) = .absent ∨
      (∃ value, d.declared template (f.nameIn (.startingWith lead)) = .given value ∧
        d.Honours b value f) ∨
      (f = .dataSources ∧ d.NamesNoSource (.startingWith lead) template) := by
  rw [silent_iff_valueDiagnostics]
  -- Only a list of data sources has the third way out, and then it is the attribute at hand.
  have hgap : ∀ {value}, d.declared template (f.nameIn (.startingWith lead)) = .given value →
      ((f = .dataSources ∧ d.NamesNoSource (.startingWith lead) template) ↔
        (f = .dataSources ∧ dataSourcesOf value = [])) := by
    intro value hv
    refine and_congr_right fun hf => ?_
    subst hf
    rw [Field.nameIn] at hv
    simp [NamesNoSource, hv]
  cases hv : d.declared template (f.nameIn (.startingWith lead)) with
  | absent => simp [valueDiagnostics_of_absent hv]
  | blank =>
    have hno : ¬ (f = .dataSources ∧ d.NamesNoSource (.startingWith lead) template) := by
      rintro ⟨rfl, value, hvalue, -⟩
      rw [Field.nameIn, hvalue] at hv
      cases hv
    simp [hno]
  | given value =>
    rw [hgap hv, valueDiagnostics_eq_nil_iff hb hv]
    simp

/-- A template that sends a field with a method that is none: the method is reported, and the data sources, which
the binding goes by, are not. -/
theorem silent_iff_search :
    let field := ((empty.createElement "input").2.setAttribute 1 "id" "q").appendChild root 1
    let d := (((field.createElement "template").2.setAttribute 3 "hx-endpoint" "/a").setAttribute
      3 "hx-data-sources" "#q").setAttribute 3 "hx-method" "A B"
    let names := AttributeNames.startingWith "hx-"
    let b : Binding :=
      { template := 3, endpoint := "/a", method := "A B", dataSources := some ["#q"], event := "onload",
        errorHandler := none, target := 0, eventTarget := 0, action := .update }
    d.binding? names 3 = some b ∧
      (∀ x ∈ d.diagnose names 3, ¬ x.Concerns names .dataSources) ∧
      ¬ ∀ x ∈ d.diagnose names 3, ¬ x.Concerns names .method := by
  intro field d names b
  have hb : d.binding? names 3 = some b := by decide +kernel
  have hsources : d.declared 3 names.dataSources = .given "#q" := by decide +kernel
  have hmethod : d.declared 3 names.method = .given "A B" := by decide +kernel
  refine ⟨hb, (silent_iff hb .dataSources).mpr (Or.inr (Or.inl ⟨"#q", hsources, ?_⟩)), fun h => ?_⟩
  · exact ⟨by decide +kernel, by decide +kernel, by decide +kernel⟩
  · rcases (silent_iff hb .method).mp h with h | ⟨value, h, -, ht⟩ | ⟨h, -⟩
    · rw [Field.nameIn, hmethod] at h
      cases h
    · rw [Field.nameIn, hmethod, Declared.given.injEq] at h
      rw [← h] at ht
      exact absurd ht (by decide +kernel)
    · cases h

/-- A list of data sources with nothing but a comma in it is declared and counts as absent, and nothing is said
about the template. -/
theorem lone_comma_unreported :
    let d := parse "<template hx-endpoint=/a hx-data-sources=','></template>"
    let names := AttributeNames.startingWith "hx-"
    ∃ b, d.binding? names 4 = some b ∧ d.declared 4 names.dataSources = .given "," ∧
      b.dataSources = none ∧ d.diagnose names 4 = [] := by
  intro d names
  have hb : (d.binding? names 4).map (·.dataSources) = some none ∧
      d.declared 4 names.dataSources = .given "," ∧ d.diagnose names 4 = [] := by decide +kernel
  obtain ⟨b, hb', hsources⟩ := Option.map_eq_some_iff.mp hb.1
  exact ⟨b, hb', hb.2.1, hsources, hb.2.2⟩

end Document

end Hypertemplate
