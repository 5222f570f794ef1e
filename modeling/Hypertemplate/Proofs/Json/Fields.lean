import Hypertemplate.Json.Read

/-!
# The fields of an object

An object that is made of a list of fields has them in the order of their names, each name once
(`sorted_fieldsOf`), and of several values of one name it has the last (`mem_fieldsOf_iff`). So it is with every
object that is read from a text, and looking up a name finds the one field that has it (`get?_eq_some_iff`).
-/

namespace Hypertemplate.Json

/-- Fields in the order of their names, no two of which are equal. -/
def Sorted (fields : List (String × Value)) : Prop := fields.Pairwise fun a b => a.1 < b.1

variable {name k : String} {v w : Value} {fields : List (String × Value)}

theorem Sorted.nodup (h : Sorted fields) : (fields.map Prod.fst).Nodup :=
  List.pairwise_map.mpr (h.imp fun hlt => Std.ne_of_lt hlt)

theorem mem_insertField_iff (h : Sorted fields) : (k, w) ∈ insertField name v fields ↔
    k = name ∧ w = v ∨ k ≠ name ∧ (k, w) ∈ fields := by
  induction fields with
  | nil => simp [insertField]
  | cons f rest ih =>
    obtain ⟨hfirst, hrest⟩ := List.pairwise_cons.mp h
    -- All other names are behind the first one, so a name that is not behind it is none of them.
    have hbehind : (k, w) ∈ rest → f.1 < k := hfirst (k, w)
    rw [insertField]
    split
    · next hlt =>
      rw [List.mem_cons, List.mem_cons]
      grind
    · split
      · next heq =>
        rw [List.mem_cons, List.mem_cons]
        grind
      · next hle hne =>
        rw [List.mem_cons, List.mem_cons, ih hrest]
        grind

theorem Sorted.insertField (h : Sorted fields) (name : String) (v : Value) :
    Sorted (insertField name v fields) := by
  induction fields with
  | nil => exact List.pairwise_singleton _ _
  | cons f rest ih =>
    obtain ⟨hfirst, hrest⟩ := List.pairwise_cons.mp h
    rw [Json.insertField]
    split
    · next hlt =>
      refine List.pairwise_cons.mpr ⟨fun g hg => ?_, h⟩
      rcases List.mem_cons.mp hg with rfl | hg
      · exact hlt
      · exact String.lt_trans hlt (hfirst g hg)
    · split
      · next heq => exact List.pairwise_cons.mpr ⟨heq ▸ hfirst, hrest⟩
      · next hle hne =>
        refine List.pairwise_cons.mpr ⟨fun g hg => ?_, ih hrest⟩
        rcases (mem_insertField_iff hrest).mp hg with ⟨hg, -⟩ | ⟨-, hg⟩
        · grind
        · exact hfirst g hg

/-- The fields of the object that is made of a list of fields. -/
def fieldsOf (fields : List (String × Value)) : List (String × Value) :=
  fields.foldl (fun acc (k, v) => insertField k v acc) []

theorem sorted_fieldsOf (fields : List (String × Value)) : Sorted (fieldsOf fields) := by
  have key : ∀ acc, Sorted acc → Sorted (fields.foldl (fun acc (k, v) => insertField k v acc) acc) := by
    induction fields with
    | nil => exact fun _ h => h
    | cons f rest ih => exact fun _ h => ih _ (h.insertField f.1 f.2)
  exact key [] .nil

/-- An object has the last value that a list of fields gives a name. -/
theorem mem_fieldsOf_iff : (k, w) ∈ fieldsOf fields ↔
    ∃ before after, fields = before ++ (k, w) :: after ∧ ∀ f ∈ after, f.1 ≠ k := by
  -- The fields that were put before are there as well, unless their name comes again.
  have key : ∀ acc, Sorted acc → ((k, w) ∈ fields.foldl (fun acc (k, v) => insertField k v acc) acc ↔
      (∃ before after, fields = before ++ (k, w) :: after ∧ ∀ f ∈ after, f.1 ≠ k) ∨
        (k, w) ∈ acc ∧ ∀ f ∈ fields, f.1 ≠ k) := by
    induction fields with
    | nil => simp
    | cons f rest ih =>
      intro acc h
      have hsplit : (∃ before after, f :: rest = before ++ (k, w) :: after ∧ ∀ g ∈ after, g.1 ≠ k) ↔
          (f = (k, w) ∧ ∀ g ∈ rest, g.1 ≠ k) ∨
            ∃ before after, rest = before ++ (k, w) :: after ∧ ∀ g ∈ after, g.1 ≠ k := by
        constructor
        · rintro ⟨before, after, hfields, hafter⟩
          rcases List.cons_eq_append_iff.mp hfields with ⟨-, hfirst⟩ | ⟨before, -, hrest⟩
          · obtain ⟨rfl, rfl⟩ := List.cons.inj hfirst
            exact Or.inl ⟨rfl, hafter⟩
          · exact Or.inr ⟨before, after, hrest, hafter⟩
        · rintro (⟨rfl, hafter⟩ | ⟨before, after, rfl, hafter⟩)
          · exact ⟨[], rest, rfl, hafter⟩
          · exact ⟨f :: before, after, rfl, hafter⟩
      rw [List.foldl_cons, ih _ (h.insertField f.1 f.2), mem_insertField_iff h, hsplit, List.forall_mem_cons]
      grind
  rw [fieldsOf, key [] .nil]
  simp

/-! ## Objects that are read -/

theorem field?_eq_some_iff (h : Sorted fields) : field? name fields = some v ↔ (name, v) ∈ fields := by
  induction fields with
  | nil => simp [field?]
  | cons f rest ih =>
    obtain ⟨hfirst, hrest⟩ := List.pairwise_cons.mp h
    have hbehind : (name, v) ∈ rest → f.1 < name := hfirst (name, v)
    rw [List.mem_cons, field?, List.find?_cons]
    by_cases hf : f.1 = name
    · rw [beq_iff_eq.mpr hf]
      grind
    · rw [beq_eq_false_iff_ne.mpr hf]
      refine (ih hrest).trans ⟨Or.inr, ?_⟩
      rintro (rfl | hmem)
      · exact absurd rfl hf
      · exact hmem

theorem fst_of_readLetters {α : Type} {n : Nat} {value : α} {expected : List Char} {c : Cursor}
    {hc : c.rest.length < n} {result : α × { c : Cursor // c.rest.length < n }}
    (h : readLetters n value expected c hc = .ok result) : result.1 = value := by
  fun_induction readLetters n value expected c hc with
  | case1 => cases h; rfl
  | case2 => cases h
  | case3 e es rest o hc ih => exact ih h
  | case4 => cases h

theorem sorted_of_readValue {depth : Nat} {c : Cursor} {place : { d : Cursor // d.rest.length < c.rest.length }}
    (h : readValue depth c = .ok (.object fields, place)) : Sorted fields := by
  unfold readValue at h
  dsimp only at h
  split at h
  · cases h
  · -- Only an opening brace begins an object, and its fields are put in order.
    repeat' split at h
    all_goals try cases h
    all_goals first
      | exact sorted_fieldsOf _
      | exact absurd (fst_of_readLetters h) nofun

theorem sorted_of_read {text : String} (h : Value.read text = .ok (.object fields)) : Sorted fields := by
  rw [Value.read] at h
  split at h
  · cases h
  · next v c hc hread =>
    dsimp only at h
    split at h
    · obtain rfl := Except.ok.inj h
      exact sorted_of_readValue hread
    · cases h

/-- Looking up a name in a value that was read from a text finds the field of an object that has this name. -/
theorem get?_eq_some_iff {text : String} (h : Value.read text = .ok v) :
    v.get? name = some w ↔ ∃ fields, v = .object fields ∧ (name, w) ∈ fields := by
  cases v with
  | object fields =>
    rw [Value.get?, field?_eq_some_iff (sorted_of_read h)]
    simp
  | _ => simp [Value.get?]

end Hypertemplate.Json
