import Hypertemplate.Text.Quote

/-!
# Error handlers

Handlers are registered under names. A handler gets the message of a failure, and what it does with it is a
script: it may take names out of the registry, its own one among them, and put other handlers in. Names are
kept in the order of their code points.
-/

namespace Hypertemplate

open Hypertemplate.Text

/-- What a handler does to the registry, step by step. -/
inductive Behaviour where
  | done
  | register (name : String) (handler : String → Behaviour) (next : Behaviour)
  | unregister (name : String) (next : Behaviour)

/-- A handler: what it does with the message that it gets. -/
abbrev Handler := String → Behaviour

/-- Handlers by name, sorted by name. -/
structure Handlers where
  entries : List (String × Handler) := []
  sorted : entries.Pairwise (·.1 < ·.1) := by exact List.Pairwise.nil

namespace Handlers

variable {name : String} {handler : Handler} {entries : List (String × Handler)}

/-- Put an entry in its place, instead of one with the same name. -/
def insertEntry (name : String) (handler : Handler) :
    List (String × Handler) → List (String × Handler)
  | [] => [(name, handler)]
  | (k, old) :: rest =>
    if name = k then (name, handler) :: rest
    else if name < k then (name, handler) :: (k, old) :: rest
    else (k, old) :: insertEntry name handler rest

theorem eq_or_mem_of_mem_insertEntry {x : String × Handler} (h : x ∈ insertEntry name handler entries) :
    x = (name, handler) ∨ x ∈ entries := by
  induction entries with
  | nil => simpa [insertEntry] using h
  | cons entry rest ih =>
    rw [insertEntry] at h
    split at h
    · rcases List.mem_cons.mp h with rfl | hx
      · exact Or.inl rfl
      · exact Or.inr (List.mem_cons_of_mem _ hx)
    · split at h
      · exact List.mem_cons.mp h
      · rcases List.mem_cons.mp h with rfl | hx
        · exact Or.inr List.mem_cons_self
        · exact (ih hx).imp_right (List.mem_cons_of_mem _)

theorem sorted_insertEntry (h : entries.Pairwise (·.1 < ·.1)) :
    (insertEntry name handler entries).Pairwise (·.1 < ·.1) := by
  induction entries with
  | nil => exact List.pairwise_singleton _ _
  | cons entry rest ih =>
    obtain ⟨hfirst, hrest⟩ := List.pairwise_cons.mp h
    rw [insertEntry]
    split
    · next heq =>
      subst heq
      exact List.pairwise_cons.mpr ⟨hfirst, hrest⟩
    · next hne =>
      split
      · next hlt =>
        refine List.pairwise_cons.mpr ⟨fun x hx => ?_, h⟩
        rcases List.mem_cons.mp hx with rfl | hx
        · exact hlt
        · exact String.lt_trans hlt (hfirst x hx)
      · next hnot =>
        have hlt : entry.1 < name := Std.lt_of_le_of_ne (String.not_lt.mp hnot) (Ne.symm hne)
        refine List.pairwise_cons.mpr ⟨fun x hx => ?_, ih hrest⟩
        rcases eq_or_mem_of_mem_insertEntry hx with rfl | hx
        · exact hlt
        · exact hfirst x hx

def register (hs : Handlers) (name : String) (handler : Handler) : Handlers :=
  ⟨insertEntry name handler hs.entries, sorted_insertEntry hs.sorted⟩

def get? (hs : Handlers) (name : String) : Option Handler :=
  (hs.entries.find? (·.1 == name)).map (·.2)

def contains (hs : Handlers) (name : String) : Bool := hs.entries.any (·.1 == name)

def unregister (hs : Handlers) (name : String) : Handlers :=
  ⟨hs.entries.filter (·.1 != name), hs.sorted.filter _⟩

def names (hs : Handlers) : List String := hs.entries.map (·.1)

def size (hs : Handlers) : Nat := hs.entries.length

/-- The registry after a script. -/
def after (hs : Handlers) : Behaviour → Handlers
  | .done => hs
  | .register name handler next => (hs.register name handler).after next
  | .unregister name next => (hs.unregister name).after next

/-- Call the handler with a name; none if nothing is registered under it. -/
def invoke? (hs : Handlers) (name message : String) : Option Handlers :=
  (hs.get? name).map fun handler => hs.after (handler message)

/-- A line that shows the names. -/
def description (hs : Handlers) : String :=
  "HandlerRegistry \x7b names: [" ++ String.intercalate ", " (hs.names.map quoted) ++ "] \x7d"

end Handlers

end Hypertemplate
