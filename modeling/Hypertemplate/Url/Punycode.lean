/-!
# Punycode

A label of a domain name with characters outside ASCII is written in ASCII: the ASCII characters first,
then the others in the order of their code points, as differences in base 36 with digits of varying weight.
Every loop has a measure: what is left to divide, to write or to read.
-/

namespace Hypertemplate.Url.Punycode

/-- The digit for a value below 36. -/
def digitChar (d : Nat) : Char :=
  if d < 26 then Char.ofNat ('a'.toNat + d) else Char.ofNat ('0'.toNat + (d - 26))

/-- The value of a digit in either letter case. -/
def digitValue? (c : Char) : Option Nat :=
  if 'a' ≤ c && c ≤ 'z' then some (c.toNat - 'a'.toNat)
  else if 'A' ≤ c && c ≤ 'Z' then some (c.toNat - 'A'.toNat)
  else if c.isDigit then some (c.toNat - '0'.toNat + 26)
  else none

/-- The threshold of the digit at distance `k`: a digit below it ends a number. -/
def threshold (k bias : Nat) : Nat := max 1 (min 26 (k - bias))

theorem threshold_pos (k bias : Nat) : 1 ≤ threshold k bias := Nat.le_max_left _ _

/-- Divide a difference by 35 until it is small, counting 36 for each division. -/
def shrink (delta k : Nat) : Nat × Nat :=
  if 455 < delta then shrink (delta / 35) (k + 36) else (delta, k)
termination_by delta
decreasing_by exact Nat.div_lt_self (by omega) (by omega)

/-- The bias after a difference, with `count` characters placed so far. -/
def adapt (delta count : Nat) (isFirst : Bool) : Nat :=
  let delta := if isFirst then delta / 700 else delta / 2
  let (delta, k) := shrink (delta + delta / count) 0
  k + 36 * delta / (delta + 38)

/-! ## Writing -/

/-- The digits of a difference. -/
def digitsOf (bias k q : Nat) : List Char :=
  let t := threshold k bias
  if q < t then [digitChar q]
  else digitChar (t + (q - t) % (36 - t)) :: digitsOf bias (k + 36) ((q - t) / (36 - t))
termination_by q
decreasing_by
  have := threshold_pos k bias
  exact Nat.lt_of_le_of_lt (Nat.div_le_self _ _) (by omega)

/-- The state of writing: digits so far, difference, bias, and the number of characters placed. -/
structure Writing where
  digits : List Char
  delta : Nat
  bias : Nat
  placed : Nat

/-- Pass over the characters of a label once, for the code point `m`. -/
def writePass (m basic : Nat) (w : Writing) (label : List Char) : Writing :=
  let w := label.foldl (fun w c =>
    if c.toNat < m then { w with delta := w.delta + 1 }
    else if c.toNat = m then
      { digits := w.digits ++ digitsOf w.bias 36 w.delta
        delta := 0
        bias := adapt w.delta (w.placed + 1) (w.placed == basic)
        placed := w.placed + 1 }
    else w) w
  { w with delta := w.delta + 1 }

/-- Write the code points of a list, which is sorted; `n` is the next code point to count from. -/
def writeFrom (label : List Char) (basic : Nat) : (points : List Nat) → (n : Nat) → Writing → List Char
  | [], _, w => w.digits
  | m :: points, n, w =>
    let w := { w with delta := w.delta + (m - n) * (w.placed + 1) }
    writeFrom label basic points (m + 1) (writePass m basic w label)

/-- A list without the elements that equal the one before them. -/
def withoutRepeats : List Nat → List Nat
  | a :: b :: rest => if a = b then withoutRepeats (b :: rest) else a :: withoutRepeats (b :: rest)
  | xs => xs

/-- The written form of a label, without the mark in front of it. -/
def encode (label : List Char) : List Char :=
  let basic := label.filter (·.toNat < 0x80)
  let points := withoutRepeats
    (((label.map Char.toNat).filter (0x80 ≤ ·)).mergeSort (fun a b => decide (a ≤ b)))
  let lead := if basic.isEmpty then [] else basic ++ ['-']
  lead ++ writeFrom label basic.length points 0x80 ⟨[], 0, 72, basic.length⟩

/-! ## Reading -/

/-- Read one difference: the sum so far, the weight of the next digit and its distance; the rest of the
input is shorter. -/
def readDifference (bias : Nat) : (i weight k : Nat) → (cs : List Char) →
    Option (Nat × { rest : List Char // rest.length < cs.length })
  | _, _, _, [] => none
  | i, weight, k, c :: cs =>
    match digitValue? c with
    | none => none
    | some d =>
      let i := i + d * weight
      let t := threshold k bias
      if d < t then some (i, ⟨cs, by simp⟩)
      else
        match readDifference bias i (weight * (36 - t)) (k + 36) cs with
        | none => none
        | some (i, ⟨rest, h⟩) => some (i, ⟨rest, by simp; omega⟩)

/-- Place characters until the input ends. -/
def readFrom (n i bias : Nat) (out : List Char) (cs : List Char) : Option (List Char) :=
  if cs.isEmpty then some out
  else
    match readDifference bias i 1 36 cs with
    | none => none
    | some (j, ⟨rest, _⟩) =>
      let count := out.length + 1
      let n := n + j / count
      let place := j % count
      if n.isValidChar then
        readFrom n (place + 1) (adapt (j - i) count (i == 0))
          (out.take place ++ Char.ofNat n :: out.drop place) rest
      else none
termination_by cs.length

/-- The label that is written by a text; none if the text writes no label. -/
def decode? (text : List Char) : Option (List Char) :=
  let reversed := text.reverse
  let tail := (reversed.takeWhile (· != '-')).reverse
  let basic := ((reversed.dropWhile (· != '-')).drop 1).reverse
  if basic.all (·.toNat < 0x80) then readFrom 0x80 0 72 basic tail else none

end Hypertemplate.Url.Punycode
