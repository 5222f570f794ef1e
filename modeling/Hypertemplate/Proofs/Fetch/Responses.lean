import Hypertemplate.Fetch.Response
import Hypertemplate.Proofs.Json.Fields
import Mathlib.Algebra.Order.Field.Rat
import Mathlib.Algebra.GroupWithZero.Units.Basic

/-!
# What a response means

A response is data exactly if its body is JSON, its status is one of success and it reports no error; it is an
error otherwise, and the message says which of these is missing (`Response.fetched_iff`). A value says something as
an error unless it is falsy, which for a number means that it is zero, whichever way it is written.
-/

namespace Hypertemplate

namespace Json

open Decimal

variable {v w : Value} {m : String}

/-! ## Texts of values -/

theorem layoutText_ne_empty (x : Binary) : numberLayout.text .double x ≠ "" := by
  rw [Layout.text]
  split
  · simp [numberLayout]
  · have hdigits : (digitsAndPoint (Format.double.shortest x)).1 ≠ [] := by
      rw [digitsAndPoint]
      grind
    have hpositional : positional (digitsAndPoint (Format.double.shortest x)).1
        (digitsAndPoint (Format.double.shortest x)).2 numberLayout.tail ≠ "" := by
      rw [positional]
      split
      · simp
      · split <;> simp [hdigits]
    dsimp only
    rw [Ne, String.append_eq_empty_iff]
    rintro ⟨-, hbody⟩
    split at hbody
    · exact hpositional hbody
    · simp [scientific] at hbody

theorem Number.text_ne_empty (n : Number) : n.text ≠ "" := by
  cases n with
  | integer n =>
    rw [Number.text, Int.toString_eq_repr, Int.repr_eq_if]
    split
    · exact Nat.repr_ne_empty
    · simp
  | real x => exact layoutText_ne_empty x

theorem Value.text_ne_empty (v : Value) : v.text ≠ "" := by
  cases v with
  | number n => exact n.text_ne_empty
  | bool b => cases b <;> simp [Value.text]
  | _ => simp [Value.text, quote]

/-! ## Values that say nothing -/

/-- The number that a JSON number stands for. -/
def Number.value : Number → ℚ
  | .integer n => n
  | .real x => (if x.negative then -1 else 1) * x.significand * 2 ^ x.exponent

theorem Number.isZero_iff (n : Number) : n.isZero = true ↔ n.value = 0 := by
  cases n with
  | integer n => simp [Number.isZero, Number.value]
  | real x =>
    have hpower : (2 : ℚ) ^ x.exponent ≠ 0 := zpow_ne_zero _ (by decide)
    have hsign : (if x.negative then (-1 : ℚ) else 1) ≠ 0 := by split <;> decide
    rw [Number.value, mul_eq_zero_iff_right hpower, mul_eq_zero_iff_left hsign, Nat.cast_eq_zero]
    exact beq_iff_eq

/-- Null, false, zero and the empty text. -/
inductive Value.Falsy : Value → Prop
  | null : Falsy .null
  | false : Falsy (.bool false)
  | zero {n : Number} (h : n.value = 0) : Falsy (.number n)
  | empty : Falsy (.string "")

/-- A text as it is, and the JSON text of another value. -/
def Value.plainText : Value → String
  | .string s => s
  | v => v.text

theorem Value.plainText_ne_empty (h : ¬ v.Falsy) : v.plainText ≠ "" := by
  cases v with
  | string s =>
    rintro rfl
    exact h .empty
  | _ => exact Value.text_ne_empty _

theorem statedError?_of_falsy (h : v.Falsy) : statedError? v = none := by
  cases h with
  | zero hn => rw [statedError?, if_pos ((Number.isZero_iff _).mpr hn)]
  | _ => rfl

theorem statedError?_of_not_falsy (h : ¬ v.Falsy) : statedError? v = some v.plainText := by
  cases v with
  | null => exact absurd .null h
  | bool b =>
    cases b with
    | false => exact absurd .false h
    | true => rfl
  | number n =>
    have hn : ¬ n.isZero = true := fun hn => h (.zero (n.isZero_iff.mp hn))
    rw [statedError?, if_neg hn]
    rfl
  | string s =>
    have hs : s ≠ "" := by
      rintro rfl
      exact h .empty
    rw [statedError?, if_neg hs]
    rfl
  | array items => rfl
  | object fields => rfl

theorem statedError?_eq_some_iff : statedError? v = some m ↔ ¬ v.Falsy ∧ m = v.plainText := by
  by_cases h : v.Falsy
  · simp [statedError?_of_falsy h, h]
  · simp [statedError?_of_not_falsy h, h, eq_comm]

/-- An object reports an error: it has a field `error` whose value is not falsy. -/
def Value.Reports (v w : Value) : Prop := ∃ fields, v = .object fields ∧ ("error", w) ∈ fields ∧ ¬ w.Falsy

/-- What a body reports is what its field `error` states. -/
theorem bind_statedError?_eq_some_iff {text : String} (h : Value.read text = .ok v) :
    (v.get? "error").bind statedError? = some m ↔ ∃ w, v.Reports w ∧ m = w.plainText := by
  simp only [Option.bind_eq_some_iff, get?_eq_some_iff h, statedError?_eq_some_iff, Value.Reports]
  grind

end Json

open Json

theorem Response.isSuccess_iff (r : Response) : r.isSuccess = true ↔ 200 ≤ r.status ∧ r.status ≤ 299 := by
  simp only [Response.isSuccess, Bool.and_eq_true, decide_eq_true_eq]
  omega

variable {r : Response} {v w : Value}

theorem fetched_of_reports (hread : Value.read r.body = .ok v) (hw : v.Reports w) :
    r.fetched = .failed w.plainText := by
  have hstated := (bind_statedError?_eq_some_iff hread).mpr ⟨w, hw, rfl⟩
  rw [Response.fetched, hread]
  dsimp only
  rw [hstated]
  split <;> rfl

theorem fetched_of_not_reports (hread : Value.read r.body = .ok v) (hno : ∀ w, ¬ v.Reports w) :
    r.fetched = if r.isSuccess then .data v else .failed unstatedError := by
  have hstated : (v.get? "error").bind statedError? = none := by
    rw [Option.eq_none_iff_forall_ne_some]
    intro m hm
    obtain ⟨w, hw, -⟩ := (bind_statedError?_eq_some_iff hread).mp hm
    exact hno w hw
  rw [Response.fetched, hread]
  dsimp only
  rw [hstated]
  rfl

/-- The data of a response: what its body holds, if its status is one of success and the body reports no error. -/
def Response.Delivers (r : Response) (v : Value) : Prop :=
  Value.read r.body = .ok v ∧ (200 ≤ r.status ∧ r.status ≤ 299) ∧ ∀ w, ¬ v.Reports w

/-- The message of a response that is an error: why its body is no JSON, whatever its status; else what the body
reports; else that something went wrong. -/
def Response.Complains (r : Response) (m : String) : Prop :=
  (∃ e, Value.read r.body = .error e ∧ m = "Invalid JSON response: " ++ e.message r.body) ∨
  ∃ v, Value.read r.body = .ok v ∧ ((∃ w, v.Reports w ∧ m = w.plainText) ∨
    ¬ (200 ≤ r.status ∧ r.status ≤ 299) ∧ (∀ w, ¬ v.Reports w) ∧ m = "An error occurred")

theorem Response.Complains.ne_empty {m : String} (h : r.Complains m) : m ≠ "" := by
  rcases h with ⟨e, -, rfl⟩ | ⟨v, -, ⟨w, ⟨-, -, -, hw⟩, rfl⟩ | ⟨-, -, rfl⟩⟩
  · simp
  · exact Value.plainText_ne_empty hw
  · decide

theorem Response.Complains.fetched_eq {m : String} (h : r.Complains m) : r.fetched = .failed m := by
  rcases h with ⟨e, hread, rfl⟩ | ⟨v, hread, ⟨w, hw, rfl⟩ | ⟨hstatus, hno, rfl⟩⟩
  · rw [Response.fetched, hread]
  · exact fetched_of_reports hread hw
  · rw [fetched_of_not_reports hread hno, if_neg (mt r.isSuccess_iff.mp hstatus)]
    rfl

theorem Response.Delivers.fetched_eq (h : r.Delivers v) : r.fetched = .data v := by
  obtain ⟨hread, hstatus, hno⟩ := h
  rw [fetched_of_not_reports hread hno, if_pos (r.isSuccess_iff.mpr hstatus)]

theorem Response.delivers_or_complains (r : Response) : (∃ v, r.Delivers v) ∨ ∃ m, r.Complains m := by
  cases hread : Value.read r.body with
  | error e => exact Or.inr ⟨_, Or.inl ⟨e, hread, rfl⟩⟩
  | ok v =>
    by_cases hreports : ∃ w, v.Reports w
    · obtain ⟨w, hw⟩ := hreports
      exact Or.inr ⟨_, Or.inr ⟨v, hread, Or.inl ⟨w, hw, rfl⟩⟩⟩
    · have hno : ∀ w, ¬ v.Reports w := not_exists.mp hreports
      by_cases hstatus : 200 ≤ r.status ∧ r.status ≤ 299
      · exact Or.inl ⟨v, hread, hstatus, hno⟩
      · exact Or.inr ⟨_, Or.inr ⟨v, hread, Or.inr ⟨hstatus, hno, rfl⟩⟩⟩

/-- A response gives data exactly if its body is JSON, its status is from 200 to 299 and the body does not report an
error. Every other response is an error. Its message is never empty: it says why the body is no JSON, whatever the
status; else what the body reports; else that something went wrong. -/
theorem Response.fetched_iff (r : Response) :
    (∀ v, r.fetched = .data v ↔ r.Delivers v) ∧ (∀ m, r.fetched = .failed m ↔ r.Complains m) ∧
    ∀ m, r.fetched = .failed m → m ≠ "" := by
  have hfailed : ∀ m, r.fetched = .failed m → r.Complains m := by
    intro m h
    rcases r.delivers_or_complains with ⟨v, hv⟩ | ⟨m', hm⟩
    · cases hv.fetched_eq.symm.trans h
    · obtain rfl := Fetched.failed.inj (hm.fetched_eq.symm.trans h)
      exact hm
  refine ⟨fun v => ⟨fun h => ?_, fun h => h.fetched_eq⟩, fun m => ⟨hfailed m, fun h => h.fetched_eq⟩,
    fun m h => (hfailed m h).ne_empty⟩
  rcases r.delivers_or_complains with ⟨v', hv⟩ | ⟨m, hm⟩
  · obtain rfl := Fetched.data.inj (hv.fetched_eq.symm.trans h)
    exact hv
  · cases hm.fetched_eq.symm.trans h

/-- A text that says nothing is no error, also if the status is one of success. -/
example : (Response.fetched ⟨200, "\x7b\"error\":\"\",\"a\":-0.0\x7d"⟩).isError = false := by decide +kernel

end Hypertemplate
