import Hypertemplate.Proofs.Engine.Calls
import Hypertemplate.Proofs.Engine.Window

/-!
# Records

A journal that has room for all records keeps them in order (`Journal.Whole.emitAll`). What it tells of one
template (`happeningsOf`) is read off block by block. A run leaves three records: its beginning, what its fetch
gave, and what became of that (`Binding.Run`).
-/

namespace Hypertemplate

/-! ## Records of one template -/

/-- What happened to one template. -/
def happeningsOf (t : NodeId) (news : List (NodeId × Happening)) : List Happening :=
  (news.filter (·.1 == t)).map (·.2)

theorem happeningsOf_append (t : NodeId) (news more : List (NodeId × Happening)) :
    happeningsOf t (news ++ more) = happeningsOf t news ++ happeningsOf t more := by
  simp [happeningsOf]

/-- Records that come one block after the other, each block about one template. -/
theorem happeningsOf_flatMap {α : Type} (key : α → NodeId) {block : α → List (NodeId × Happening)}
    (hblock : ∀ x, ∀ n ∈ block x, n.1 = key x) (t : NodeId) (xs : List α) :
    happeningsOf t (xs.flatMap block) =
      xs.flatMap fun x => if key x = t then (block x).map (·.2) else [] := by
  induction xs with
  | nil => rfl
  | cons x rest ih =>
    rw [List.flatMap_cons, happeningsOf_append, ih, List.flatMap_cons]
    congr 1
    split
    · next ht =>
      rw [happeningsOf, List.filter_eq_self.mpr fun n hn => by simp [hblock x n hn, ht]]
    · next ht =>
      rw [happeningsOf, List.filter_eq_nil_iff.mpr fun n hn => by simpa [hblock x n hn] using ht]
      rfl

theorem flatMap_key_of_not_mem {α β : Type} {key : α → NodeId} {f : α → List β} {xs : List α}
    {t : NodeId} (ht : ∀ x ∈ xs, key x ≠ t) : (xs.flatMap fun y => if key y = t then f y else []) = [] :=
  List.flatMap_eq_nil_iff.mpr fun x hx => if_neg (ht x hx)

/-- If the keys are different, only one block has a key. -/
theorem flatMap_key_of_mem {α β : Type} {key : α → NodeId} {f : α → List β} {xs : List α} {x : α}
    (hnd : (xs.map key).Nodup) (hx : x ∈ xs) :
    (xs.flatMap fun y => if key y = key x then f y else []) = f x := by
  induction xs with
  | nil => cases hx
  | cons y rest ih =>
    rw [List.map_cons, List.nodup_cons] at hnd
    have hother : ∀ z ∈ rest, key z ≠ key y := fun z hz he => hnd.1 (he ▸ List.mem_map_of_mem hz)
    rw [List.flatMap_cons]
    rcases List.mem_cons.mp hx with rfl | hx
    · rw [if_pos rfl, flatMap_key_of_not_mem hother, List.append_nil]
    · rw [if_neg (hother x hx).symm, List.nil_append, ih hnd.2 hx]

namespace Journal

variable {j : Journal} {t : NodeId}

/-- The records without their numbers. -/
def entries (j : Journal) : List (NodeId × Happening) := j.records.map fun r => (r.template, r.happening)

/-- What happened to a template, as far as the journal keeps it. -/
def happenings (j : Journal) (t : NodeId) : List Happening := (j.ofTemplate t).map (·.happening)

theorem happenings_eq (j : Journal) (t : NodeId) : j.happenings t = happeningsOf t j.entries := by
  simp [happenings, ofTemplate, happeningsOf, entries, List.filter_map, Function.comp_def]

/-- A journal that keeps all records there ever were. -/
def Whole (j : Journal) : Prop := j.records.length = j.nextId

theorem nextId_emitAll (news : List (NodeId × Happening)) : ∀ j : Journal,
    (j.emitAll news).nextId = j.nextId + news.length ∧ (j.emitAll news).capacity = j.capacity := by
  induction news with
  | nil => exact fun _ => ⟨rfl, rfl⟩
  | cons n rest ih =>
    intro j
    obtain ⟨hnext, hcapacity⟩ := ih (j.emit n.1 n.2)
    refine ⟨?_, hcapacity.trans (capacity_emit j n.1 n.2)⟩
    rw [emitAll, List.foldl_cons]
    change ((j.emit n.1 n.2).emitAll rest).nextId = _
    rw [hnext, nextId_emit, List.length_cons]
    omega

/-- A record that fits is kept with all others. -/
theorem Whole.emit (h : j.Whole) (hroom : j.nextId < j.capacity) (happening : Happening) :
    (j.emit t happening).Whole ∧ (j.emit t happening).entries = j.entries ++ [(t, happening)] := by
  unfold Whole at h
  have hdrop : (j.records ++ [(⟨j.nextId, t, happening⟩ : Record)]).length - j.capacity = 0 := by
    rw [List.length_append, List.length_singleton]
    omega
  have hrecords : (j.emit t happening).records = j.records ++ [⟨j.nextId, t, happening⟩] := by
    rw [records_emit (by omega), latest, hdrop, List.drop_zero]
  constructor
  · rw [Whole, hrecords, nextId_emit, List.length_append, h]
    rfl
  · rw [entries, hrecords, List.map_append]
    rfl

theorem Whole.emitAll (news : List (NodeId × Happening)) : ∀ {j : Journal}, j.Whole →
    j.nextId + news.length ≤ j.capacity →
    (j.emitAll news).Whole ∧ (j.emitAll news).entries = j.entries ++ news := by
  induction news with
  | nil => exact fun h _ => ⟨h, (List.append_nil _).symm⟩
  | cons n rest ih =>
    intro j h hroom
    rw [List.length_cons] at hroom
    obtain ⟨hwhole, hentries⟩ := h.emit (t := n.1) (show j.nextId < j.capacity by omega) n.2
    obtain ⟨hwhole', hentries'⟩ := ih hwhole (by rw [nextId_emit, capacity_emit]; omega)
    refine ⟨hwhole', ?_⟩
    change ((j.emit n.1 n.2).emitAll rest).entries = _
    rw [hentries', hentries, List.append_assoc, List.singleton_append]

end Journal

/-! ## Runs -/

/-- What the end of a run leaves: its data was rendered, or its error went to the handler that the binding
names, found no handler under this name, or had nowhere to go. -/
inductive Binding.End (b : Binding) : List Happening → Prop
  | rendered (items fragments : Nat) : b.End [.fetchSucceeded items, .rendered b.action fragments]
  | handled (error name : String) (h : b.errorHandler = some name) :
    b.End [.fetchFailed error, .handlerInvoked name error]
  | unhandled (error name : String) (h : b.errorHandler = some name) :
    b.End [.fetchFailed error, .handlerMissing name]
  | swallowed (error : String) (h : b.errorHandler = none) :
    b.End [.fetchFailed error, .errorSwallowed error]

/-- What a run leaves from its beginning to its end. -/
inductive Binding.Run (b : Binding) : List Happening → Prop
  | mk (method url : String) {rest : List Happening} (h : b.End rest) :
    b.Run (.triggered method url :: rest)

theorem Binding.End.length_eq {b : Binding} {hs : List Happening} (h : b.End hs) : hs.length = 2 := by
  cases h <;> rfl

/-- Whether a happening begins a run. -/
def Happening.isBegin : Happening → Bool
  | triggered .. => true
  | _ => false

/-- Whether a happening tells what a fetch gave. -/
def Happening.isFetch : Happening → Bool
  | fetchSucceeded _ | fetchFailed _ => true
  | _ => false

theorem Binding.End.not_isBegin {b : Binding} {hs : List Happening} (h : b.End hs) :
    ∀ x ∈ hs, x.isBegin = false := by
  cases h <;> simp [Happening.isBegin]

end Hypertemplate
