import Hypertemplate.Decimal.Binary

/-!
# The shortest decimal that reads back

A binary number is the reading of every decimal in the interval of reals that round to it.
`Format.shortest` takes the coarsest power of ten of which some multiple lies in that interval, and of
its multiples there the one nearest to the number. All comparisons are between natural numbers.

The layouts turn such a decimal into text. They differ in where positional notation ends and in whether
an integral value keeps a fraction.
-/

namespace Hypertemplate.Decimal

/-- `x · 2 ^ p` against `y · 10 ^ s`, brought to natural numbers by the common denominators. -/
def crossed (x : Nat) (p : Int) (y : Nat) (s : Int) : Nat × Nat :=
  (x * Nat.pow 2 p.toNat * Nat.pow 10 (-s).toNat, y * Nat.pow 10 s.toNat * Nat.pow 2 (-p).toNat)

/-- The ends of the interval that rounds to a number, and the number itself, in units of
`2 ^ (exponent - 2)`. Below a power of two the lower neighbour is nearer. -/
def Format.interval (f : Format) (x : Binary) : Nat × Nat × Nat :=
  let m := x.significand
  let low := if m = Nat.pow 2 (f.precision - 1) ∧ f.leastExponent < x.exponent then 4 * m - 1 else 4 * m - 2
  (low, 4 * m, 4 * m + 2)

/-- The multiple of `10 ^ s` in the interval that is nearest to the number, if there is one. -/
def Format.multipleAt? (f : Format) (x : Binary) (s : Int) : Option Nat :=
  let p := x.exponent - 2
  let (low, mid, high) := f.interval x
  let even := x.significand % 2 == 0
  let (n, d) := crossed mid p 1 s
  let below := n / d
  let inside (y : Nat) : Bool :=
    let (l, y₁) := crossed low p y s
    let (h, y₂) := crossed high p y s
    if even then l ≤ y₁ && y₂ ≤ h else l < y₁ && y₂ < h
  match inside below, inside (below + 1) with
  | true, false => some below
  | false, true => some (below + 1)
  | false, false => none
  | true, true =>
    let r := n % d
    if 2 * r < d then some below
    else if d < 2 * r then some (below + 1)
    else some (if below % 2 = 0 then below else below + 1)

/-- A power of ten above the whole interval. -/
def Binary.scaleAbove (x : Binary) : Int :=
  ((Nat.log2 x.significand : Int) + x.exponent + 2) * 30103 / 100000 + 2

/-- The decimal `digits · 10 ^ scale` with the fewest digits that rounds to a number. -/
def Format.shortest (f : Format) (x : Binary) : Nat × Int :=
  if x.significand = 0 then (0, 0)
  else
    let top := x.scaleAbove
    ((List.range 40).findSome? fun (i : Nat) =>
      (f.multipleAt? x (top - i)).map fun y => (y, top - i)).getD (0, 0)

/-- The digits of a decimal without trailing zeros, and the place of the point counted from their left. -/
def digitsAndPoint (decimal : Nat × Int) : List Char × Int :=
  let ds := Nat.toDigits 10 decimal.1
  let kept := (ds.reverse.dropWhile (· == '0')).reverse
  (if kept.isEmpty then ['0'] else kept, (ds.length : Int) + decimal.2)

/-- Digits with the point at a place, in positional notation. Integral values end in `tail`. -/
def positional (ds : List Char) (point : Int) (tail : String) : String :=
  if point ≤ 0 then
    "0." ++ String.ofList (List.replicate (-point).toNat '0' ++ ds)
  else if ds.length ≤ point.toNat then
    String.ofList (ds ++ List.replicate (point.toNat - ds.length) '0') ++ tail
  else
    String.ofList (ds.take point.toNat) ++ "." ++ String.ofList (ds.drop point.toNat)

/-- Digits in scientific notation, with `mark` between them and the power's digits. -/
def scientific (ds : List Char) (point : Int) (mark plus : String) : String :=
  let lead := match ds with
    | [] => "0"
    | [d] => d.toString
    | d :: rest => d.toString ++ "." ++ String.ofList rest
  let e := point - 1
  lead ++ mark ++ (if e < 0 then "-" else plus) ++ toString e.natAbs

/-- How a number is laid out: positional from `10 ^ least` up to `10 ^ most`, else scientific with a sign
on positive powers as `plus`; `tail` ends integral values. Bounds that are absent do not limit. -/
structure Layout where
  least : Option Int
  most : Option Int
  tail : String
  plus : String

/-- The text of a number in a layout. -/
def Layout.text (l : Layout) (f : Format) (x : Binary) : String :=
  let sign := if x.negative then "-" else ""
  if x.isZero then sign ++ "0" ++ l.tail
  else
    let (ds, point) := digitsAndPoint (f.shortest x)
    let positionalHere := (l.least.all fun b => b < point) && (l.most.all fun b => point ≤ b)
    sign ++ (if positionalHere then positional ds point l.tail else scientific ds point "e" l.plus)

end Hypertemplate.Decimal
