import Hypertemplate.Engine.Journal

/-!
# The window of a journal

Records are numbered from zero in the order in which they are added, whatever the journal keeps of them. It keeps
the latest ones, as many as there is room for, and what it tells of a template or of the ends of runs is chosen from
these (`recordAll_window`).
-/

namespace Hypertemplate

/-- A happening ends a run: a handler was called, none was registered, none was named, or data was rendered. -/
inductive Happening.EndsRun : Happening → Prop
  | handlerInvoked (handler error : String) : EndsRun (.handlerInvoked handler error)
  | handlerMissing (handler : String) : EndsRun (.handlerMissing handler)
  | errorSwallowed (error : String) : EndsRun (.errorSwallowed error)
  | rendered (action : Action) (fragments : Nat) : EndsRun (.rendered action fragments)

theorem Happening.isOutcome_iff {h : Happening} : h.isOutcome = true ↔ h.EndsRun := by
  constructor
  · intro hout
    cases h <;> first | constructor | cases hout
  · intro hends
    cases hends <;> rfl

namespace Journal

variable {j : Journal} {capacity : Nat}

/-! ## The latest of a list -/

/-- A list without its first elements, so that at most `n` are left. -/
def latest {α : Type} (n : Nat) (xs : List α) : List α := xs.drop (xs.length - n)

theorem length_latest_le {α : Type} (n : Nat) (xs : List α) : (latest n xs).length ≤ n := by
  rw [latest, List.length_drop]
  omega

theorem latest_append_singleton {α : Type} {n : Nat} (hn : 0 < n) (xs : List α) (x : α) :
    latest n (xs ++ [x]) = latest (n - 1) xs ++ [x] := by
  have hsame : xs.length + 1 - n = xs.length - (n - 1) := by omega
  rw [latest, List.length_append, List.length_singleton, hsame, List.drop_append_of_le_length (by omega), latest]

theorem latest_latest_append {α : Type} (n : Nat) (xs : List α) (x : α) :
    latest n (latest n xs ++ [x]) = latest n (xs ++ [x]) := by
  have hdrop : latest n xs ++ [x] = (xs ++ [x]).drop (xs.length - n) := by
    rw [latest, List.drop_append_of_le_length (by omega)]
  have hlength : (latest n xs).length = xs.length - (xs.length - n) := List.length_drop
  rw [latest, List.length_append, hlength, hdrop, List.drop_drop, latest, List.length_append]
  congr 1
  simp only [List.length_singleton]
  omega

theorem latest_eq_drop {α : Type} (n : Nat) (xs : List α) :
    latest n xs = xs.drop (xs.length - min xs.length n) := by
  rw [latest]
  congr 1
  omega

/-! ## Adding one record -/

theorem makeRoom_eq_latest (hcapacity : 0 < capacity) (records : List Record) :
    makeRoom capacity records = latest (capacity - 1) records := by
  induction records with
  | nil => exact List.drop_nil.symm
  | cons r rest ih =>
    rw [makeRoom]
    split
    · next hfull =>
      have hdrop : (r :: rest).length - (capacity - 1) = rest.length - (capacity - 1) + 1 := by
        rw [List.length_cons]
        omega
      rw [ih, latest, latest, hdrop, List.drop_succ_cons]
    · next hroom =>
      have hdrop : (r :: rest).length - (capacity - 1) = 0 := by
        rw [List.length_cons]
        omega
      rw [latest, hdrop, List.drop_zero]

theorem nextId_emit (j : Journal) (t : NodeId) (happening : Happening) :
    (j.emit t happening).nextId = j.nextId + 1 := by
  unfold emit
  split <;> rfl

theorem capacity_emit (j : Journal) (t : NodeId) (happening : Happening) :
    (j.emit t happening).capacity = j.capacity := by
  unfold emit
  split <;> rfl

/-- A journal with no more records than it has room for keeps the latest ones, a new one included. -/
theorem records_emit (hfits : j.records.length ≤ j.capacity) (t : NodeId) (happening : Happening) :
    (j.emit t happening).records = latest j.capacity (j.records ++ [⟨j.nextId, t, happening⟩]) := by
  unfold emit
  split
  · next hnone =>
    rw [hnone, Nat.le_zero, List.length_eq_zero_iff] at hfits
    change j.records = _
    rw [hnone, hfits]
    rfl
  · next hsome =>
    change makeRoom j.capacity j.records ++ _ = _
    rw [makeRoom_eq_latest (by omega), latest_append_singleton (by omega)]

/-! ## Numbered records -/

/-- Records of happenings, numbered from zero. -/
def numbered (news : List (NodeId × Happening)) : List Record := news.zipIdx.map fun (n, id) => ⟨id, n.1, n.2⟩

theorem numbered_concat (news : List (NodeId × Happening)) (n : NodeId × Happening) :
    numbered (news ++ [n]) = numbered news ++ [⟨news.length, n.1, n.2⟩] := by
  simp [numbered, List.zipIdx_append]

theorem length_numbered (news : List (NodeId × Happening)) : (numbered news).length = news.length := by
  simp [numbered]

theorem map_id_numbered (news : List (NodeId × Happening)) :
    (numbered news).map (·.id) = List.range' 0 news.length := by
  simp [numbered, Function.comp_def, List.zipIdx_map_snd]

theorem map_entry_numbered (news : List (NodeId × Happening)) :
    (numbered news).map (fun r => (r.template, r.happening)) = news := by
  simp [numbered, Function.comp_def, List.zipIdx_map_fst]

/-! ## What a journal keeps -/

/-- A journal after these happenings: it keeps the latest records and counts all. -/
structure Shows (j : Journal) (news : List (NodeId × Happening)) : Prop where
  records_eq : j.records = latest j.capacity (numbered news)
  nextId_eq : j.nextId = news.length

theorem shows_new (capacity : Nat) : Shows { capacity } [] where
  records_eq := by simp [numbered, latest]
  nextId_eq := rfl

theorem Shows.emit {news : List (NodeId × Happening)} (h : j.Shows news) (n : NodeId × Happening) :
    (j.emit n.1 n.2).Shows (news ++ [n]) where
  records_eq := by
    have hfits : j.records.length ≤ j.capacity := by
      rw [h.records_eq]
      exact length_latest_le _ _
    rw [records_emit hfits, capacity_emit, h.records_eq, h.nextId_eq, latest_latest_append, numbered_concat]
  nextId_eq := by rw [nextId_emit, h.nextId_eq, List.length_append, List.length_singleton]

/-- Add records, one after the other, and give their numbers back. -/
def recordAll (j : Journal) : List (NodeId × Happening) → List Nat × Journal
  | [] => ([], j)
  | n :: rest =>
    let (id, j) := j.record n.1 n.2
    let (ids, j) := recordAll j rest
    (id :: ids, j)

theorem Shows.recordAll (news : List (NodeId × Happening)) : ∀ {j : Journal} {sooner : List (NodeId × Happening)},
    j.Shows sooner → (j.recordAll news).1 = List.range' sooner.length news.length ∧
      (j.recordAll news).2.Shows (sooner ++ news) ∧ (j.recordAll news).2.capacity = j.capacity := by
  induction news with
  | nil =>
    intro j sooner h
    rw [List.append_nil]
    exact ⟨rfl, h, rfl⟩
  | cons n rest ih =>
    intro j sooner h
    obtain ⟨hids, hshows, hcapacity⟩ := ih (h.emit n)
    rw [List.append_assoc, List.singleton_append] at hshows
    refine ⟨?_, hshows, hcapacity.trans (capacity_emit j n.1 n.2)⟩
    change j.nextId :: ((j.emit n.1 n.2).recordAll rest).1 = _
    rw [hids, h.nextId_eq, List.length_append, List.length_singleton, List.length_cons, List.range'_succ]

/-- Of records that are added to a new journal one after the other, the one that is added first gets the number 0 and
each other one the next number. The journal then shows the latest ones, as many as it has room for, in their order
and with their numbers, and has counted all. What it tells of a template, and of the ends of runs, are the records
among these that are about this template, and that end a run, in the same order. -/
theorem recordAll_window (capacity : Nat) (news : List (NodeId × Happening)) :
    let ids := (({ capacity } : Journal).recordAll news).1
    let j := (({ capacity } : Journal).recordAll news).2
    let kept := min news.length capacity
    ids = List.range news.length ∧
    j.records.map (fun r => (r.template, r.happening)) = news.drop (news.length - kept) ∧
    j.records.map (·.id) = List.range' (news.length - kept) kept ∧
    j.nextId = news.length ∧ j.size = kept ∧
    (∀ t, (j.ofTemplate t).Sublist j.records ∧
      ∀ r, r ∈ j.ofTemplate t ↔ r ∈ j.records ∧ r.template = t) ∧
    j.outcomes.Sublist j.records ∧ ∀ r, r ∈ j.outcomes ↔ r ∈ j.records ∧ r.happening.EndsRun := by
  intro ids j kept
  obtain ⟨hids, hshows, hcapacity⟩ := (shows_new capacity).recordAll news
  rw [List.nil_append] at hshows
  have hkept : kept ≤ news.length := Nat.min_le_left _ _
  have hrecords : j.records = (numbered news).drop (news.length - kept) := by
    rw [hshows.records_eq, hcapacity, latest_eq_drop, length_numbered]
  have hnumbers : j.records.map (·.id) = List.range' (news.length - kept) kept := by
    rw [hrecords, List.map_drop, map_id_numbered, List.drop_range']
    congr 1 <;> omega
  refine ⟨?_, ?_, hnumbers, hshows.nextId_eq, ?_, fun t => ⟨List.filter_sublist, fun r => ?_⟩,
    List.filter_sublist, fun r => ?_⟩
  · rw [List.range_eq_range']
    exact hids
  · rw [hrecords, List.map_drop, map_entry_numbered]
  · rw [size, hrecords, List.length_drop, length_numbered]
    omega
  · simp [ofTemplate]
  · simp [outcomes, Happening.isOutcome_iff]

end Journal

end Hypertemplate
