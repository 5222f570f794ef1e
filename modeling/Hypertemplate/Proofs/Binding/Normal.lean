import Hypertemplate.Proofs.Binding.Sources
import Hypertemplate.Proofs.Document.Nodes

/-!
# Bindings written back

A binding that was read from attributes is in normal form (`normal_of_binding?`): nothing in it has blanks to trim or
is blank, its method is in capitals, and its data sources are such as a list of them is cut into. Written back into
the attributes it was read from, a binding in normal form is read again (`Normal.of_attributes`); no two of these
attributes have the same name (`AttributeNames.nodup_startingWith`).
-/

namespace Hypertemplate

open Text

variable {d : Document} {names : AttributeNames} {template i : NodeId} {b : Binding} {name lead text v : String}

/-! ## Attributes that are assigned -/

namespace Document

/-- Give an attribute a value, or take the attribute away. -/
def assignAttribute (d : Document) (i : NodeId) (name : String) : Option String → Document
  | some value => d.setAttribute i name value
  | none => d.removeAttribute i name

/-- Assign attributes one after the other. -/
def assignAttributes (d : Document) (i : NodeId) (values : List (String × Option String)) : Document :=
  values.foldl (fun d (name, value) => d.assignAttribute i name value) d

theorem valueOf?_cons (name : String) (a : String × String) (rest : List (String × String)) :
    valueOf? name (a :: rest) = if name = a.1 then some a.2 else valueOf? name rest := by
  by_cases h : a.1 = name
  · simp [valueOf?, h]
  · simp [valueOf?, h, Ne.symm h]

theorem valueOf?_putAttribute (name value other : String) (attributes : List (String × String)) :
    valueOf? other (putAttribute name value attributes) =
      if other = name then some value else valueOf? other attributes := by
  induction attributes with
  | nil => rw [putAttribute, valueOf?_cons]
  | cons a rest ih =>
    obtain ⟨k, v⟩ := a
    rw [putAttribute]
    split
    · next hk =>
      subst hk
      rw [valueOf?_cons, valueOf?_cons]
      by_cases ho : other = k <;> simp [ho]
    · next hk =>
      rw [valueOf?_cons, valueOf?_cons, ih]
      by_cases ho : other = k
      · subst ho
        rw [if_pos rfl, if_neg hk, if_pos rfl]
      · rw [if_neg ho, if_neg ho]

theorem valueOf?_filter_ne (name other : String) (attributes : List (String × String)) :
    valueOf? other (attributes.filter (·.1 != name)) =
      if other = name then none else valueOf? other attributes := by
  induction attributes with
  | nil => simp [valueOf?]
  | cons a rest ih =>
    rw [List.filter_cons]
    by_cases hk : a.1 = name
    · rw [if_neg (by simp [hk]), ih, valueOf?_cons]
      by_cases ho : other = name
      · rw [if_pos ho, if_pos ho]
      · rw [if_neg ho, if_neg ho, if_neg (by rw [hk]; exact ho)]
    · rw [if_pos (by simpa using hk), valueOf?_cons, valueOf?_cons, ih]
      by_cases ho : other = a.1
      · rw [if_pos ho, if_pos ho, if_neg (by rw [ho]; exact hk)]
      · rw [if_neg ho, if_neg ho]

theorem element?_modifyElement (d : Document) (i : NodeId) (f : ElementData → ElementData) :
    (d.modifyElement i f).element? i = (d.element? i).map f := by
  rw [element?, kind, modifyElement, node_modifyNode (Or.inr rfl), if_pos rfl, element?, kind]
  cases hk : (d.node i).kind <;> simp [hk]

theorem isElement_assignAttribute (d : Document) (i : NodeId) (name : String) (value : Option String) :
    (d.assignAttribute i name value).isElement i = d.isElement i := by
  cases value <;>
    simp [assignAttribute, isElement, setAttribute, removeAttribute, element?_modifyElement]

theorem attribute?_assignAttribute (hi : d.isElement i = true) (name : String) (value : Option String)
    (other : String) : (d.assignAttribute i name value).attribute? i other =
      if other = name then value else d.attribute? i other := by
  obtain ⟨e, he⟩ := Option.isSome_iff_exists.mp hi
  cases value with
  | some v => simp [assignAttribute, setAttribute, attribute?, element?_modifyElement, he, valueOf?_putAttribute]
  | none => simp [assignAttribute, removeAttribute, attribute?, element?_modifyElement, he, valueOf?_filter_ne]

/-- If no two of the names are the same, each attribute has what it was assigned. -/
theorem attribute?_assignAttributes {values : List (String × Option String)} (hi : d.isElement i = true)
    (hnd : (values.map Prod.fst).Nodup) :
    (∀ {name value}, (name, value) ∈ values → (d.assignAttributes i values).attribute? i name = value) ∧
      ∀ {name}, name ∉ values.map Prod.fst →
        (d.assignAttributes i values).attribute? i name = d.attribute? i name := by
  induction values generalizing d with
  | nil => exact ⟨fun h => absurd h List.not_mem_nil, fun _ => rfl⟩
  | cons a rest ih =>
    obtain ⟨k, w⟩ := a
    obtain ⟨hk, hrest⟩ := List.nodup_cons.mp hnd
    obtain ⟨hmem, hout⟩ := ih ((isElement_assignAttribute d i k w).trans hi) hrest
    have hstep := attribute?_assignAttribute hi k w
    constructor
    · intro name value h
      rcases List.mem_cons.mp h with he | h
      · obtain ⟨rfl, rfl⟩ := Prod.mk.inj he
        exact (hout hk).trans ((hstep name).trans (if_pos rfl))
      · exact hmem h
    · intro name h
      rw [List.map_cons, List.mem_cons, not_or] at h
      exact (hout h.2).trans ((hstep name).trans (if_neg h.1))

end Document

/-! ## The names of the attributes -/

/-- The eight attributes of a binding have eight names, whatever their common beginning is. -/
theorem AttributeNames.nodup_startingWith (lead : String) :
    ((AttributeNames.startingWith lead).endpoint :: (AttributeNames.startingWith lead).optional).Nodup := by
  have hnames : (AttributeNames.startingWith lead).endpoint :: (AttributeNames.startingWith lead).optional =
      ["endpoint", "data-sources", "method", "event", "error", "target", "event-target", "action"].map
        (lowerAscii lead ++ ·) := by
    simp [AttributeNames.optional, AttributeNames.startingWith, lowerAscii]
  rw [hnames]
  exact List.Nodup.map (fun a b h => (String.append_right_inj _).mp h) (by decide)

/-! ## Normal forms -/

/-- What the bindings have in common that are read from attributes. -/
structure Binding.Normal (b : Binding) : Prop where
  endpoint : trim b.endpoint = b.endpoint
  method : upperAscii (trim b.method) = b.method
  method_given : allBlank b.method = false
  dataSources : ∀ sources, b.dataSources = some sources →
    sources ≠ [] ∧ ∀ s ∈ sources, trim s = s ∧ s ≠ "" ∧ ',' ∉ s.toList
  event : trim b.event = b.event
  event_given : allBlank b.event = false
  errorHandler : ∀ handler, b.errorHandler = some handler → trim handler = handler ∧ allBlank handler = false

theorem Declared.value?_ofValue (value : Option String) :
    (ofValue value).value? = value.filter fun v => !allBlank v := by
  cases value with
  | none => rfl
  | some v => cases h : allBlank v <;> simp [ofValue, value?, h, Option.filter]

theorem mem_dataSourcesOf {s : String} (h : s ∈ dataSourcesOf text) : trim s = s ∧ s ≠ "" ∧ ',' ∉ s.toList := by
  refine ⟨?_, by simpa using (List.mem_filter.mp h).2, comma_not_mem_of_mem_dataSourcesOf h⟩
  obtain ⟨piece, -, rfl⟩ := List.mem_map.mp (List.mem_filter.mp h).1
  exact trim_trim piece

/-- A list of data sources is cut into the sources that were joined. -/
theorem dataSourcesOf_intercalate_comma {sources : List String} (hne : sources ≠ [])
    (h : ∀ s ∈ sources, trim s = s ∧ s ≠ "" ∧ ',' ∉ s.toList) : dataSourcesOf (",".intercalate sources) = sources := by
  rw [dataSourcesOf, splitOnChar_intercalate (by rfl) hne fun s hs => (h s hs).2.2,
    List.map_congr_left (g := id) fun s hs => (h s hs).1, List.map_id, List.filter_eq_self]
  exact fun s hs => by simpa using (h s hs).2.1

theorem methodFor_normal {declared : Declared} (h : ∀ v, declared.value? = some v → allBlank v = false)
    (sendsData : Bool) : upperAscii (trim (methodFor declared sendsData)) = methodFor declared sendsData ∧
      allBlank (methodFor declared sendsData) = false := by
  unfold methodFor
  cases hv : declared.value? with
  | none => cases sendsData <;> exact ⟨by decide +kernel, by decide +kernel⟩
  | some m =>
    constructor
    · rw [trim_upperAscii, trim_trim, upperAscii_upperAscii]
    · rw [allBlank_upperAscii, allBlank_trim, h m hv]

/-- What is read from attributes is in normal form. -/
theorem normal_of_binding? (hb : d.binding? names template = some b) : b.Normal := by
  obtain ⟨endpoint, -, rfl⟩ := Option.map_eq_some_iff.mp hb
  have hvalue : ∀ name v, (d.declared template name).value? = some v → allBlank v = false := by
    intro name v hv
    rw [Document.declared, Declared.value?_ofValue] at hv
    simpa using (Option.filter_eq_some_iff.mp hv).2
  have hmethod := methodFor_normal (hvalue names.method)
  -- An event is the one that is declared or the start of the page.
  have hevent : ∀ event, event = (((d.declared template names.event).value?).map trim).getD loadEvent →
      trim event = event ∧ allBlank event = false := by
    rintro event rfl
    cases hv : (d.declared template names.event).value? with
    | none => exact ⟨by decide +kernel, by decide +kernel⟩
    | some v => exact ⟨trim_trim v, (allBlank_trim v).trans (hvalue _ v hv)⟩
  exact
    { endpoint := trim_trim endpoint
      method := (hmethod _).1
      method_given := (hmethod _).2
      dataSources := fun sources hs => by
        obtain ⟨hsome, hne⟩ := Option.filter_eq_some_iff.mp hs
        obtain ⟨text, -, rfl⟩ := Option.map_eq_some_iff.mp hsome
        exact ⟨by simpa using hne, fun s hmem => mem_dataSourcesOf hmem⟩
      event := (hevent _ rfl).1
      event_given := (hevent _ rfl).2
      errorHandler := fun handler hh => by
        obtain ⟨v, hv, rfl⟩ := Option.map_eq_some_iff.mp hh
        exact ⟨trim_trim v, (allBlank_trim v).trans (hvalue _ v hv)⟩ }

/-! ## Reading what was written -/

/-- The attributes of a binding with their values. -/
def Binding.attributes (names : AttributeNames) (b : Binding) : List (String × Option String) :=
  [(names.endpoint, some b.endpoint), (names.dataSources, b.dataSources.map (",".intercalate ·)),
    (names.method, some b.method), (names.event, some b.event), (names.error, b.errorHandler),
    (names.action, some b.action.name)]

/-- Write a binding back into the attributes of its template. -/
def Document.restate (d : Document) (names : AttributeNames) (b : Binding) : Document :=
  d.assignAttributes b.template (b.attributes names)

theorem ofText_name (a : Action) : Action.ofText a.name = a := by
  cases a <;> decide +kernel

theorem allBlank_name (a : Action) : allBlank a.name = false := by
  cases a <;> decide +kernel

/-- A binding in normal form is read from attributes that have its values. What they say about targets is not
looked at. -/
theorem Binding.Normal.of_attributes (hb : b.Normal)
    (hattributes : ∀ {name value}, (name, value) ∈ b.attributes names → d.attribute? b.template name = value) :
    ∃ target eventTarget, d.binding? names b.template =
      some { b with target := target, eventTarget := eventTarget } := by
  have hendpoint : d.attribute? b.template names.endpoint = some b.endpoint := hattributes (by simp [attributes])
  have hdeclared : ∀ {name value}, (name, value) ∈ b.attributes names →
      (d.declared b.template name).value? = value.filter fun v => !allBlank v := by
    intro name value h
    rw [Document.declared, Declared.value?_ofValue, hattributes h]
  have hgiven : ∀ {v}, allBlank v = false → (some v).filter (fun v => !allBlank v) = some v := by
    intro v hv
    simp [Option.filter, hv]
  have hmethod : (d.declared b.template names.method).value? = some b.method :=
    (hdeclared (by simp [attributes])).trans (hgiven hb.method_given)
  have hevent : (d.declared b.template names.event).value? = some b.event :=
    (hdeclared (by simp [attributes])).trans (hgiven hb.event_given)
  have haction : (d.declared b.template names.action).value? = some b.action.name :=
    (hdeclared (by simp [attributes])).trans (hgiven (allBlank_name _))
  have herror : (d.declared b.template names.error).value?.map trim = b.errorHandler := by
    have hgets : (d.declared b.template names.error).value? = b.errorHandler.filter fun v => !allBlank v :=
      hdeclared (by simp [attributes])
    rw [hgets]
    cases hh : b.errorHandler with
    | none => rfl
    | some handler =>
      obtain ⟨htrim, hne⟩ := hb.errorHandler handler hh
      rw [hgiven hne, Option.map_some, htrim]
  have hsources : (((d.declared b.template names.dataSources).value?.map dataSourcesOf).filter (!·.isEmpty)) =
      b.dataSources := by
    have hgets : (d.declared b.template names.dataSources).value? =
        (b.dataSources.map (",".intercalate ·)).filter fun v => !allBlank v :=
      hdeclared (by simp [attributes])
    rw [hgets]
    cases hs : b.dataSources with
    | none => rfl
    | some sources =>
      obtain ⟨hne, hall⟩ := hb.dataSources sources hs
      have hcut := dataSourcesOf_intercalate_comma hne hall
      have hblank : allBlank (",".intercalate sources) = false := by
        rw [Bool.eq_false_iff]
        intro hblank
        exact hne (hcut.symm.trans (dataSourcesOf_of_allBlank hblank))
      rw [Option.map_some, hgiven hblank, Option.map_some, hcut]
      simp [Option.filter, hne]
  rw [Document.binding?, hendpoint, Option.map_some]
  simp only [methodFor, hmethod, hevent, haction, herror, hsources, hb.endpoint, hb.method, hb.event,
    Option.map_some, Option.getD_some, ofText_name]
  exact ⟨_, _, rfl⟩

/-- A template with an endpoint has a binding, whatever its attributes are. Written back into them, with the data
sources joined with commas, and without the data sources and the error handler if there are none, this binding is read
again, up to the targets. -/
theorem binding?_restate (lead : String)
    (h : d.hasAttribute template (AttributeNames.startingWith lead).endpoint = true) :
    ∃ b b', d.binding? (.startingWith lead) template = some b ∧
      (d.restate (.startingWith lead) b).binding? (.startingWith lead) template = some b' ∧
      b'.endpoint = b.endpoint ∧ b'.method = b.method ∧ b'.dataSources = b.dataSources ∧ b'.event = b.event ∧
      b'.errorHandler = b.errorHandler ∧ b'.action = b.action := by
  obtain ⟨endpoint, hendpoint⟩ := Option.isSome_iff_exists.mp h
  obtain ⟨b, hb⟩ : ∃ b, d.binding? (.startingWith lead) template = some b :=
    ⟨_, Option.map_eq_some_iff.mpr ⟨endpoint, hendpoint, rfl⟩⟩
  obtain rfl : b.template = template := by
    obtain ⟨_, -, rfl⟩ := Option.map_eq_some_iff.mp hb
    rfl
  have hel : d.isElement b.template = true := by
    obtain ⟨e, he, -⟩ := Option.bind_eq_some_iff.mp hendpoint
    exact Option.isSome_iff_exists.mpr ⟨e, he⟩
  have hnd : ((b.attributes (.startingWith lead)).map Prod.fst).Nodup :=
    (AttributeNames.nodup_startingWith lead).sublist (by simp [Binding.attributes, AttributeNames.optional])
  obtain ⟨target, eventTarget, hread⟩ :=
    (normal_of_binding? hb).of_attributes (Document.attribute?_assignAttributes hel hnd).1
  exact ⟨b, _, hb, hread, rfl, rfl, rfl, rfl, rfl, rfl⟩

/-- Padded attributes, an empty entry in a list, a method in small letters, a blank event and an action that is none. -/
theorem binding?_restate_padded :
    let d := Document.parse
      "<template hx-endpoint=' /a ' hx-data-sources=' #q ,, p' hx-method=put hx-event=' ' hx-action=x></template>"
    let names := AttributeNames.startingWith "hx-"
    let b : Binding :=
      { template := 4, endpoint := "/a", method := "PUT", dataSources := some ["#q", "p"], event := "onload",
        errorHandler := none, target := 2, eventTarget := 2, action := .update }
    d.hasAttribute 4 names.endpoint = true ∧ d.binding? names 4 = some b ∧
      ∃ b', (d.restate names b).binding? names 4 = some b' ∧
        b'.endpoint = "/a" ∧ b'.method = "PUT" ∧ b'.dataSources = some ["#q", "p"] ∧ b'.event = "onload" ∧
        b'.errorHandler = none ∧ b'.action = .update := by
  intro d names b
  have h : d.hasAttribute 4 names.endpoint = true := by decide +kernel
  have hb : d.binding? names 4 = some b := by decide +kernel
  obtain ⟨c, b', hc, hread⟩ := binding?_restate "hx-" h
  obtain rfl : c = b := Option.some.inj (hc.symm.trans hb)
  exact ⟨h, hb, b', hread⟩

end Hypertemplate
