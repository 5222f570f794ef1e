/-!
# Blank characters and ASCII letter case

`isBlank` is the Unicode property White_Space. Trimming and splitting into words use it, so that an
ideographic space or a no-break space separates like an ASCII one. Letter case is the ASCII one
throughout: attribute names, methods and actions differ only by A to Z.
-/

namespace Hypertemplate.Text

/-- A character with the Unicode property White_Space. -/
def isBlank (c : Char) : Bool :=
  let n := c.toNat
  (9 ≤ n && n ≤ 13) || n == 0x20 || n == 0x85 || n == 0xA0 || n == 0x1680 ||
  (0x2000 ≤ n && n ≤ 0x200A) || n == 0x2028 || n == 0x2029 || n == 0x202F || n == 0x205F ||
  n == 0x3000

/-- Space, tab, line feed, form feed or carriage return. -/
def isAsciiBlank (c : Char) : Bool :=
  c == ' ' || c == '\t' || c == '\n' || c == '\x0c' || c == '\r'

/-- The characters of a text without the blank ones at both ends. -/
def trimChars (cs : List Char) : List Char :=
  ((cs.dropWhile isBlank).reverse.dropWhile isBlank).reverse

/-- A text without its leading and trailing blank characters. -/
def trim (s : String) : String :=
  String.ofList (trimChars s.toList)

/-- Whether a text has blank characters only. -/
def allBlank (s : String) : Bool :=
  s.toList.all isBlank

/-- The pieces of a list between the elements that satisfy `p`, in order and with the empty ones. -/
def splitBy {α : Type} (p : α → Bool) : List α → List (List α)
  | [] => [[]]
  | x :: xs =>
    if p x then [] :: splitBy p xs
    else match splitBy p xs with
      | [] => [[x]]
      | piece :: pieces => (x :: piece) :: pieces

/-- The pieces of a text between occurrences of a character. -/
def splitOnChar (c : Char) (s : String) : List String :=
  (splitBy (· == c) s.toList).map String.ofList

/-- The maximal runs of non-blank characters. -/
def words (s : String) : List String :=
  ((splitBy isBlank s.toList).filter (!·.isEmpty)).map String.ofList

/-- ASCII capitals become small letters. -/
def lowerAscii (s : String) : String :=
  String.ofList (s.toList.map Char.toLower)

/-- ASCII small letters become capitals. -/
def upperAscii (s : String) : String :=
  String.ofList (s.toList.map Char.toUpper)

/-- Equality up to the case of ASCII letters. -/
def eqIgnoringCase (a b : String) : Bool :=
  lowerAscii a == lowerAscii b

/-- The bytes that a text takes in UTF-8. -/
def byteLength : List Char → Nat
  | [] => 0
  | c :: cs => c.utf8Size + byteLength cs

theorem splitBy_ne_nil {α : Type} (p : α → Bool) (xs : List α) : splitBy p xs ≠ [] := by
  cases xs with
  | nil => simp [splitBy]
  | cons x xs =>
    rw [splitBy]
    split
    · simp
    · split <;> simp

variable {α : Type} {p : α → Bool}

/-- An element that does not separate belongs to the first piece of what follows it. -/
theorem splitBy_cons_of_neg {x : α} (hx : p x = false) (xs : List α) :
    ∃ piece pieces, splitBy p xs = piece :: pieces ∧ splitBy p (x :: xs) = (x :: piece) :: pieces := by
  cases hxs : splitBy p xs with
  | nil => exact absurd hxs (splitBy_ne_nil p xs)
  | cons piece pieces => exact ⟨piece, pieces, rfl, by simp [splitBy, hx, hxs]⟩

theorem splitBy_append_cons (xs : List α) {x : α} (hx : p x = true) (ys : List α) :
    splitBy p (xs ++ x :: ys) = splitBy p xs ++ splitBy p ys := by
  induction xs with
  | nil => simp [splitBy, hx]
  | cons y rest ih =>
    rw [List.cons_append]
    cases hy : p y with
    | true => simp [splitBy, hy, ih]
    | false =>
      obtain ⟨piece, pieces, hrest, hsplit⟩ := splitBy_cons_of_neg hy rest
      obtain ⟨piece', pieces', hall, hsplit'⟩ := splitBy_cons_of_neg hy (rest ++ x :: ys)
      rw [ih, hrest, List.cons_append, List.cons.injEq] at hall
      obtain ⟨rfl, rfl⟩ := hall
      rw [hsplit, hsplit', List.cons_append]

theorem splitBy_eq_singleton {xs : List α} (h : ∀ x ∈ xs, p x = false) : splitBy p xs = [xs] := by
  induction xs with
  | nil => rfl
  | cons x rest ih => simp [splitBy, h x, ih fun y hy => h y (List.mem_cons_of_mem _ hy)]

/-- No piece holds an element that separates. -/
theorem eq_false_of_mem_splitBy {xs piece : List α} (h : piece ∈ splitBy p xs) : ∀ x ∈ piece, p x = false := by
  induction xs generalizing piece with
  | nil =>
    rw [splitBy, List.mem_singleton] at h
    simp [h]
  | cons y rest ih =>
    cases hy : p y with
    | true =>
      simp only [splitBy, hy, if_true, List.mem_cons] at h
      rcases h with rfl | h
      · simp
      · exact ih h
    | false =>
      obtain ⟨first, pieces, hrest, hsplit⟩ := splitBy_cons_of_neg hy rest
      rw [hsplit] at h
      rw [hrest] at ih
      rcases List.mem_cons.mp h with rfl | h
      · intro x hx
        rcases List.mem_cons.mp hx with rfl | hx
        · exact hy
        · exact ih List.mem_cons_self x hx
      · exact ih (List.mem_cons_of_mem _ h)

theorem length_splitBy (p : α → Bool) (xs : List α) : (splitBy p xs).length = xs.countP p + 1 := by
  induction xs with
  | nil => rfl
  | cons x rest ih =>
    cases hx : p x with
    | true => simp [splitBy, hx, ih]
    | false =>
      obtain ⟨piece, pieces, hrest, hsplit⟩ := splitBy_cons_of_neg hx rest
      rw [hrest] at ih
      rw [hsplit, List.countP_cons_of_neg (by simp [hx]), ← ih]
      rfl

theorem mem_of_mem_trimChars {c : Char} {cs : List Char} (h : c ∈ trimChars cs) : c ∈ cs := by
  rw [trimChars, List.mem_reverse] at h
  exact (List.dropWhile_sublist _).subset (List.mem_reverse.mp ((List.dropWhile_sublist _).subset h))

/-- Blanks in front of a text are trimmed away. -/
theorem trimChars_cons_of_isBlank {c : Char} (hc : isBlank c = true) (cs : List Char) :
    trimChars (c :: cs) = trimChars cs := by
  rw [trimChars, List.dropWhile_cons_of_pos hc, trimChars]

end Hypertemplate.Text
