/-!
# Binary floating-point numbers and the nearest one to a fraction

A finite number of a binary format is `± significand · 2 ^ exponent`. `Format.nearest?` takes a
non-negative fraction of natural numbers to the number nearest to it, a tie going to the even
significand; it has no answer when the fraction rounds past the greatest finite number.
-/

namespace Hypertemplate.Decimal

/-- A binary format: significands have at most `precision` bits and exponents are at least
`leastExponent`; `greatestExponent` is the exponent of the greatest finite number. -/
structure Format where
  precision : Nat
  leastExponent : Int
  greatestExponent : Int

/-- The format with 53-bit significands. -/
def Format.double : Format := ⟨53, -1074, 971⟩

/-- The format with 24-bit significands. -/
def Format.single : Format := ⟨24, -149, 104⟩

/-- A finite binary floating-point number. Zero has significand 0 and keeps its sign. -/
structure Binary where
  negative : Bool
  significand : Nat
  exponent : Int
  deriving DecidableEq, Repr, Inhabited

namespace Binary

def isZero (x : Binary) : Bool := x.significand == 0

def zero (negative : Bool) : Binary := ⟨negative, 0, 0⟩

end Binary

/-- The quotient rounded to the nearest integer, a tie to the even one. -/
def roundHalfEven (num den : Nat) : Nat :=
  let q := num / den
  let twice := 2 * (num % den)
  if twice < den then q
  else if den < twice then q + 1
  else if q % 2 = 0 then q else q + 1

/-- `num / den · 2 ^ (-e)` as a pair of numerator and denominator. -/
def scaleBy (num den : Nat) (e : Int) : Nat × Nat :=
  if 0 ≤ e then (num, den * Nat.pow 2 e.toNat) else (num * Nat.pow 2 (-e).toNat, den)

/-- The exponent at which `num / den` has a significand of `precision` bits, or one bit more or less. -/
def Format.roughExponent (f : Format) (num den : Nat) : Int :=
  (Nat.log2 num : Int) - (Nat.log2 den : Int) - (f.precision : Int)

/-- The number of the format nearest to `num / den`, if it is finite. -/
def Format.nearest? (f : Format) (negative : Bool) (num den : Nat) : Option Binary :=
  if num = 0 then some (.zero negative)
  else
    let rough := f.roughExponent num den
    let fits (e : Int) : Bool :=
      let (n, d) := scaleBy num den e
      n / d < Nat.pow 2 f.precision
    let e := if fits rough then rough else rough + 1
    let e := max e f.leastExponent
    let (n, d) := scaleBy num den e
    let s := roundHalfEven n d
    let (s, e) := if s = Nat.pow 2 f.precision then (s / 2, e + 1) else (s, e)
    if f.greatestExponent < e then none else some ⟨negative, s, e⟩

/-- The rounded product of two numbers of the format, if it is finite. -/
def Format.times? (f : Format) (x y : Binary) : Option Binary :=
  let s := x.significand * y.significand
  let e := x.exponent + y.exponent
  let negative := x.negative != y.negative
  if 0 ≤ e then f.nearest? negative (s * Nat.pow 2 e.toNat) 1
  else f.nearest? negative s (Nat.pow 2 (-e).toNat)

/-- The rounded quotient of two numbers of the format, if it is finite; the second is not zero. -/
def Format.over? (f : Format) (x y : Binary) : Option Binary :=
  let e := x.exponent - y.exponent
  let negative := x.negative != y.negative
  if 0 ≤ e then f.nearest? negative (x.significand * Nat.pow 2 e.toNat) y.significand
  else f.nearest? negative x.significand (y.significand * Nat.pow 2 (-e).toNat)

/-- The number nearest to `digits · 10 ^ scale`, if it is finite. Scales far outside the format are
settled without forming the power. -/
def Format.ofDecimal? (f : Format) (negative : Bool) (digits : Nat) (scale : Int) : Option Binary :=
  if digits = 0 then some (.zero negative)
  else
    let width : Int := (Nat.toDigits 10 digits).length
    if 400 < width + scale then none
    else if width + scale < -400 then some (.zero negative)
    else if 0 ≤ scale then f.nearest? negative (digits * Nat.pow 10 scale.toNat) 1
    else f.nearest? negative digits (Nat.pow 10 (-scale).toNat)

end Hypertemplate.Decimal
