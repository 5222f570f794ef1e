import Hypertemplate.Engine.Run
import Hypertemplate.Html.Parse
import Hypertemplate.Proofs.Document.Controls
import Hypertemplate.Proofs.Json.Fields

/-!
# From data sources to the body of a request

The payload of a binding has one field for each key that one of its data sources fills, and the last of the sources
with this key that find an element says with what: the value of a form control, or else a text
(`mem_payloadOf_iff`). The payload travels as the body of the
request unless the method is `GET`, which is the method only if it is declared or there are no data sources
(`body_from_sources`).
-/

namespace Hypertemplate

open Text Json

namespace Document

variable {d : Document} {sources : List String} {key : String} {v : Value}

/-! ## The payload -/

/-- A source is a selector, and the first element that it finds in a document is `i`. -/
def FirstFound (d : Document) (source : String) (i : NodeId) : Prop :=
  ∃ q, Query.parse source = .ok q ∧ (q.allBelow d root).head? = some i

theorem find?_eq_some_iff {source : String} {i : NodeId} : d.find? source = some i ↔ d.FirstFound source i := by
  rw [find?, select, FirstFound]
  cases Query.parse source with
  | error p => simp
  | ok q => simp [Query.allBelow, Query.firstBelow?]

/-- What an element contributes to a payload: its value if it is a form control, else the text in it. -/
inductive Sends (d : Document) (i : NodeId) : String → Prop
  | value {s : String} (h : d.FormValue i s) : Sends d i s
  | text (h : ¬ d.Control i) : Sends d i (d.textContent i)

theorem sends_iff {i : NodeId} {s : String} : d.Sends i s ↔ d.sentText i = s := by
  rw [sentText]
  constructor
  · rintro (h | h)
    · rw [formValue_iff.mp h, Option.getD_some]
    · rw [value?_eq_none_iff.mpr h, Option.getD_none]
  · rintro rfl
    cases hvalue : d.value? i with
    | some s => exact .value (formValue_iff.mpr hvalue)
    | none => exact .text (value?_eq_none_iff.mp hvalue)

/-- What data sources put under a key: what the first element contributes that is found by the last of the sources
with this key that find any. -/
def Supplies (d : Document) (sources : List String) (key : String) (v : Value) : Prop :=
  ∃ before source after i s, sources = before ++ source :: after ∧ payloadKey source = key ∧ d.FirstFound source i ∧
    d.Sends i s ∧ v = .string s ∧ ∀ other ∈ after, payloadKey other = key → ∀ j, ¬ d.FirstFound other j

/-- The field that a data source fills. -/
def fieldOf? (d : Document) (source : String) : Option (String × Value) :=
  (d.find? source).map fun i => (payloadKey source, .string (d.sentText i))

theorem fieldOf?_eq_some_iff {source : String} : d.fieldOf? source = some (key, v) ↔
    payloadKey source = key ∧ ∃ i, d.FirstFound source i ∧ v = .string (d.sentText i) := by
  rw [fieldOf?, Option.map_eq_some_iff]
  simp only [find?_eq_some_iff, Prod.mk.injEq, eq_comm (b := v)]
  grind

/-- The fields of the payload of data sources. -/
def payloadOf (d : Document) (sources : List String) : List (String × Value) := fieldsOf (sources.filterMap d.fieldOf?)

theorem payload?_eq (d : Document) (sources : Option (List String)) :
    d.payload? sources = sources.map fun ss => .object (d.payloadOf ss) := rfl

theorem mem_payloadOf_iff : (key, v) ∈ d.payloadOf sources ↔ d.Supplies sources key v := by
  rw [payloadOf, mem_fieldsOf_iff]
  constructor
  · rintro ⟨earlier, later, hfields, hlater⟩
    obtain ⟨before, rest, rfl, -, hrest⟩ := List.filterMap_eq_append_iff.mp hfields
    obtain ⟨skipped, source, after, rfl, -, hsource, rfl⟩ := List.filterMap_eq_cons_iff.mp hrest
    obtain ⟨hkey, i, hi, hv⟩ := fieldOf?_eq_some_iff.mp hsource
    refine ⟨before ++ skipped, source, after, i, _, (List.append_assoc ..).symm, hkey, hi, sends_iff.mpr rfl, hv,
      fun s hs hskey j hj => ?_⟩
    exact hlater _ (List.mem_filterMap.mpr ⟨s, hs, fieldOf?_eq_some_iff.mpr ⟨rfl, j, hj, rfl⟩⟩) hskey
  · rintro ⟨before, source, after, i, s, rfl, hkey, hi, hs, rfl, hafter⟩
    have hsource : d.fieldOf? source = some (key, .string s) :=
      fieldOf?_eq_some_iff.mpr ⟨hkey, i, hi, by rw [sends_iff.mp hs]⟩
    refine ⟨before.filterMap d.fieldOf?, after.filterMap d.fieldOf?, ?_, fun f hf hfkey => ?_⟩
    · rw [List.filterMap_append, List.filterMap_cons_some hsource]
    · obtain ⟨s, hs, hfield⟩ := List.mem_filterMap.mp hf
      obtain ⟨hskey, j, hj, -⟩ := fieldOf?_eq_some_iff.mp hfield
      exact hafter s hs (hskey.trans hfkey) j hj

/-- A key has a value exactly if one of the sources with this key finds an element. -/
theorem mem_keys_payloadOf_iff : key ∈ (d.payloadOf sources).map Prod.fst ↔
    ∃ source ∈ sources, payloadKey source = key ∧ ∃ i, d.FirstFound source i := by
  have hlast : (∃ v, (key, v) ∈ d.payloadOf sources) ↔
      ∃ source ∈ sources, payloadKey source = key ∧ ∃ i, d.FirstFound source i := by
    simp only [mem_payloadOf_iff]
    constructor
    · rintro ⟨v, before, source, after, i, s, rfl, hkey, hi, -⟩
      exact ⟨source, by simp, hkey, i, hi⟩
    · induction sources with
      | nil => simp
      | cons s rest ih =>
        intro hsource
        by_cases hrest : ∃ source ∈ rest, payloadKey source = key ∧ ∃ i, d.FirstFound source i
        · obtain ⟨v, before, source, after, i, sent, rfl, hfill⟩ := ih hrest
          exact ⟨v, s :: before, source, after, i, sent, rfl, hfill⟩
        · obtain ⟨source, hmem, hkey, i, hi⟩ := hsource
          rcases List.mem_cons.mp hmem with rfl | hmem
          · exact ⟨_, [], source, rest, i, _, rfl, hkey, hi, sends_iff.mpr rfl, rfl,
              fun s hs hskey j hj => hrest ⟨s, hs, hskey, j, hj⟩⟩
          · exact absurd ⟨source, hmem, hkey, i, hi⟩ hrest
  simpa using hlast

end Document

open Document

variable {d : Document} {names : AttributeNames} {template : NodeId} {b : Binding}

/-! ## The body -/

theorem eqIgnoringCase_get_iff (method : String) :
    eqIgnoringCase method "GET" = true ↔ lowerAscii method = "get" := beq_iff_eq

/-- A request has a body if there is a payload and the method is not `GET`. -/
theorem body_trigger (e : Engine) (b : Binding) : (e.trigger b).1.body =
    if lowerAscii b.method = "get" then none
    else b.dataSources.map fun sources => (Value.object (e.document.payloadOf sources)).text := by
  change (if eqIgnoringCase b.method "GET" = true then none
    else (e.document.payload? b.dataSources).map Value.text) = _
  rw [payload?_eq, Option.map_map]
  simp only [eqIgnoringCase_get_iff]
  rfl

/-- The method of a binding that declares none, or a blank one. -/
theorem method_of_undeclared (h : d.binding? names template = some b)
    (hmethod : ∀ method, d.attribute? template names.method = some method → allBlank method = true) :
    b.method = if b.dataSources.isSome then "POST" else "GET" := by
  obtain ⟨endpoint, -, rfl⟩ := Option.map_eq_some_iff.mp h
  have hdeclared : (d.declared template names.method).value? = none := by
    rw [declared]
    cases hm : d.attribute? template names.method with
    | none => rfl
    | some method => rw [Declared.ofValue, if_pos (hmethod method hm)]; rfl
  dsimp only
  rw [methodFor, hdeclared]

/-- A request has a body exactly if the binding has data sources and its method is not `GET`, in any letter case; if
no method is declared, or a blank one, exactly if the binding has data sources. The body is the text of an object
that has one field for each key that a source has which is a selector and finds an element. The last of these sources
fills it, with the value of the element that it finds first if that is a form control, else with the text in it. -/
theorem body_from_sources (h : d.binding? names template = some b) (e : Engine) :
    let request := (e.trigger b).1
    (request.body.isSome = true ↔ b.dataSources.isSome = true ∧ lowerAscii b.method ≠ "get") ∧
    ((∀ method, d.attribute? template names.method = some method → allBlank method = true) →
      (request.body.isSome = true ↔ b.dataSources.isSome = true)) ∧
    ∀ body, request.body = some body → ∃ sources payload, b.dataSources = some sources ∧
      body = (Value.object payload).text ∧ (payload.map Prod.fst).Nodup ∧
      (∀ key, key ∈ payload.map Prod.fst ↔
        ∃ source ∈ sources, payloadKey source = key ∧ ∃ i, e.document.FirstFound source i) ∧
      ∀ key v, (key, v) ∈ payload ↔ e.document.Supplies sources key v := by
  intro request
  have hbody : request.body.isSome = true ↔ b.dataSources.isSome = true ∧ lowerAscii b.method ≠ "get" := by
    rw [body_trigger]
    split
    · next hget => simp [hget]
    · next hget => simp [hget]
  refine ⟨hbody, fun hmethod => ?_, fun body hsome => ?_⟩
  · rw [hbody, method_of_undeclared h hmethod]
    refine ⟨And.left, fun hsources => ⟨hsources, ?_⟩⟩
    rw [if_pos hsources]
    decide
  · rw [body_trigger] at hsome
    split at hsome
    · cases hsome
    · obtain ⟨sources, hsources, rfl⟩ := Option.map_eq_some_iff.mp hsome
      exact ⟨sources, e.document.payloadOf sources, hsources, rfl, (sorted_fieldsOf _).nodup,
        fun _ => mem_keys_payloadOf_iff, fun _ _ => mem_payloadOf_iff⟩

/-- Form controls send what was entered, their attribute, their text or the option that they show, and other elements
send their text. Of two sources with one key the last one fills it, and a source that is no selector changes
nothing. -/
theorem body_from_sources_controls :
    let html := "<input id=u value=a><input id=q value=a><q>b</q><textarea>c</textarea>" ++
      "<select><option>d<option value=e selected>f</select><output value=g>h</output>" ++
      "<template hx-endpoint=/a hx-data-sources='#u,#q,[,q,textarea,select,output,i'></template>"
    let d := (Document.parse html).setValue 4 "typed"
    let names := AttributeNames.startingWith "hx-"
    let b : Binding :=
      { template := 18, endpoint := "/a", method := "POST",
        dataSources := some ["#u", "#q", "[", "q", "textarea", "select", "output", "i"], event := "onload",
        errorHandler := none, target := 3, eventTarget := 3, action := .update }
    let body := "\x7b\"output\":\"g\",\"q\":\"b\",\"select\":\"e\",\"textarea\":\"c\",\"u\":\"typed\"\x7d"
    d.binding? names 18 = some b ∧ (Engine.trigger { document := d } b).1.body = some body ∧
      ∃ payload, body = (Value.object payload).text ∧ ∀ sent ∈
        [("u", "typed"), ("q", "b"), ("textarea", "c"), ("select", "e"), ("output", "g")],
          (sent.1, .string sent.2) ∈ payload := by
  intro html d names b body
  have hfacts : d.binding? names 18 = some b ∧ (Engine.trigger { document := d } b).1.body = some body ∧
      (d.find? "#u" = some 4 ∧ d.sentText 4 = "typed") ∧ (d.find? "q" = some 6 ∧ d.sentText 6 = "b") ∧
      (d.find? "textarea" = some 8 ∧ d.sentText 8 = "c") ∧ (d.find? "select" = some 10 ∧ d.sentText 10 = "e") ∧
      d.find? "output" = some 15 ∧ d.sentText 15 = "g" := by
    decide +kernel
  obtain ⟨hb, hbody, ⟨hu, hu'⟩, ⟨hq, hq'⟩, ⟨htextarea, htextarea'⟩, ⟨hselect, hselect'⟩, houtput, houtput'⟩ := hfacts
  obtain ⟨-, -, hpayload⟩ := body_from_sources hb { document := d }
  obtain ⟨sources, payload, hsources, htext, -, -, hmem⟩ := hpayload body hbody
  obtain rfl := Option.some.inj hsources
  refine ⟨hb, hbody, payload, htext, ?_⟩
  have hfills : ∀ before source after i s,
      ["#u", "#q", "[", "q", "textarea", "select", "output", "i"] = before ++ source :: after →
      (∀ other ∈ after, payloadKey other ≠ payloadKey source) → d.find? source = some i → d.sentText i = s →
      (payloadKey source, .string s) ∈ payload := by
    intro before source after i s hsplit hlater hfind hs
    exact (hmem _ _).mpr ⟨before, source, after, i, s, hsplit, rfl, find?_eq_some_iff.mp hfind, sends_iff.mpr hs, rfl,
      fun other ho hkey => absurd hkey (hlater other ho)⟩
  simp only [List.forall_mem_cons, List.not_mem_nil, false_imp_iff, implies_true, and_true]
  refine ⟨?_, ?_, ?_, ?_, ?_⟩
  · exact hfills [] "#u" _ 4 _ rfl (by decide) hu hu'
  · exact hfills ["#u", "#q", "["] "q" _ 6 _ rfl (by decide) hq hq'
  · exact hfills ["#u", "#q", "[", "q"] "textarea" _ 8 _ rfl (by decide) htextarea htextarea'
  · exact hfills ["#u", "#q", "[", "q", "textarea"] "select" _ 10 _ rfl (by decide) hselect hselect'
  · exact hfills ["#u", "#q", "[", "q", "textarea", "select"] "output" _ 15 _ rfl (by decide) houtput houtput'

end Hypertemplate
