import Hypertemplate.Engine.Handlers

/-!
# What is registered

A registry has at most one handler under a name, and looking the name up finds it (`Handlers.get?_eq_some_iff`).
What a script leaves under a name is the last that it does to this name, and what was there before if it does nothing
to it (`Handlers.get?_after`).
-/

namespace Hypertemplate

/-- The last that a script does to a name: it puts a handler under it, or none. -/
def Behaviour.last? (name : String) : Behaviour → Option (Option Handler)
  | .done => none
  | .register other handler next => next.last? name <|> if name = other then some (some handler) else none
  | .unregister other next => next.last? name <|> if name = other then some none else none

namespace Handlers

variable {hs : Handlers} {name other : String} {handler new : Handler}

/-! ## Looking a name up -/

theorem get?_eq_some_iff : hs.get? name = some handler ↔ (name, handler) ∈ hs.entries := by
  obtain ⟨entries, hsorted⟩ := hs
  simp only [get?]
  induction entries with
  | nil => simp
  | cons entry rest ih =>
    obtain ⟨k, old⟩ := entry
    obtain ⟨hfirst, hrest⟩ := List.pairwise_cons.mp hsorted
    by_cases hk : k = name
    · subst hk
      have habsent : (k, handler) ∉ rest := fun hmem => String.lt_irrefl k (hfirst _ hmem)
      simp [habsent, eq_comm]
    · rw [List.find?_cons_of_neg (by simpa using hk), ih hrest, List.mem_cons]
      simp [Ne.symm hk]

theorem contains_eq_isSome (hs : Handlers) (name : String) : hs.contains name = (hs.get? name).isSome := by
  rw [contains, get?, Option.isSome_map, Bool.eq_iff_iff, List.any_eq_true, List.find?_isSome]

theorem contains_iff : hs.contains name = true ↔ ∃ handler, hs.get? name = some handler := by
  rw [contains_eq_isSome, Option.isSome_iff_exists]

theorem contains_eq_false_iff : hs.contains name = false ↔ hs.get? name = none := by
  rw [contains_eq_isSome, Option.isSome_eq_false_iff, Option.isNone_iff_eq_none]

/-! ## Putting in and taking out -/

theorem get?_unregister (hs : Handlers) (name other : String) :
    (hs.unregister name).get? other = if other = name then none else hs.get? other := by
  obtain ⟨entries, hsorted⟩ := hs
  simp only [unregister, get?]
  clear hsorted
  induction entries with
  | nil => simp
  | cons entry rest ih => grind

theorem get?_register (hs : Handlers) (name : String) (handler : Handler) (other : String) :
    (hs.register name handler).get? other = if other = name then some handler else hs.get? other := by
  obtain ⟨entries, hsorted⟩ := hs
  simp only [register, get?]
  clear hsorted
  induction entries with
  | nil =>
    by_cases h : other = name
    · simp [insertEntry, h]
    · simp [insertEntry, h, Ne.symm h]
  | cons entry rest ih =>
    obtain ⟨k, old⟩ := entry
    rw [insertEntry]
    grind

/-- After a handler was registered it is the one under its name, and under other names there is what was there. -/
theorem mem_entries_register (hs : Handlers) (name : String) (new : Handler) (other : String) (handler : Handler) :
    (other, handler) ∈ (hs.register name new).entries ↔
      if other = name then handler = new else (other, handler) ∈ hs.entries := by
  rw [← get?_eq_some_iff, ← get?_eq_some_iff, get?_register]
  split
  · rw [Option.some.injEq, eq_comm]
  · rfl

/-! ## Running a script -/

/-- A script leaves under a name what it does to it last. -/
theorem get?_after (script : Behaviour) (name : String) : ∀ hs : Handlers,
    (hs.after script).get? name = (script.last? name).getD (hs.get? name) := by
  induction script with
  | done => exact fun _ => rfl
  | register other new next _ ih =>
    intro hs
    rw [after, ih, get?_register, Behaviour.last?]
    cases next.last? name with
    | some left => rfl
    | none => by_cases h : name = other <;> simp [h]
  | unregister other next ih =>
    intro hs
    rw [after, ih, get?_unregister, Behaviour.last?]
    cases next.last? name with
    | some left => rfl
    | none => by_cases h : name = other <;> simp [h]

/-- After a script there is under a name what it put there last, or what was there if it did nothing to the name. -/
theorem mem_entries_after (hs : Handlers) (script : Behaviour) (name : String) (handler : Handler) :
    (name, handler) ∈ (hs.after script).entries ↔
      script.last? name = some (some handler) ∨ script.last? name = none ∧ (name, handler) ∈ hs.entries := by
  rw [← get?_eq_some_iff, ← get?_eq_some_iff, get?_after]
  cases script.last? name <;> simp

end Handlers

end Hypertemplate
