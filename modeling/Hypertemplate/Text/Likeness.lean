/-!
# Likeness of two words

`likeness a b` weighs how many letters two words share at nearby places, and how many of those stand in the
same order: 1 for two equal words, 0 for words that share no letter. `alike` picks from a list of words those
that are likely meant by a misspelt one.
-/

namespace Hypertemplate.Text

/-- Take up the first free place of a letter among the `width` places after the first `skipped`; a place is
a letter and whether it is taken. -/
def takePlace? (c : Char) : (skipped width : Nat) → List (Char × Bool) → Option (List (Char × Bool))
  | _, _, [] => none
  | 0, 0, _ => none
  | skipped + 1, width, place :: rest => (takePlace? c skipped width rest).map (place :: ·)
  | 0, width + 1, (d, taken) :: rest =>
    if d = c && !taken then some ((d, true) :: rest)
    else (takePlace? c 0 width rest).map ((d, taken) :: ·)

/-- The letters of a word from place `i` on that find a place in another, no more than `range` away, and the
places after that. -/
def sharedLetters (range : Nat) :
    (i : Nat) → List Char → List (Char × Bool) → List Char × List (Char × Bool)
  | _, [], places => ([], places)
  | i, c :: rest, places =>
    match takePlace? c (i - range) (i + range + 1 - (i - range)) places with
    | none => sharedLetters range (i + 1) rest places
    | some places =>
      let (shared, places) := sharedLetters range (i + 1) rest places
      (c :: shared, places)

/-- The mean of three shares: of the first word that both have, of the second, and of these letters those
that stand in the same order. -/
def likeness (a b : String) : Rat :=
  let range := max a.length b.length / 2 - 1
  let (inFirst, places) := sharedLetters range 0 a.toList (b.toList.map (·, false))
  let inSecond := (places.filter (·.2)).map (·.1)
  let shared := inFirst.length
  let swaps := ((inFirst.zip inSecond).filter fun (c, d) => c != d).length / 2
  if shared = 0 then (if a.isEmpty && b.isEmpty then 1 else 0)
  else
    ((shared : Rat) / a.length + (shared : Rat) / b.length + ((shared - swaps : Nat) : Rat) / shared) / 3

/-- Put a word before the first that is more like what is meant. -/
def insertByLikeness (x : Rat × String) : List (Rat × String) → List (Rat × String)
  | [] => [x]
  | y :: rest => if x.1 < y.1 then x :: y :: rest else y :: insertByLikeness x rest

/-- The words that are alike by seven tenths or more, the likest last. -/
def alike (word : String) (words : List String) : List String :=
  let weighed := (words.map fun w => (likeness word w, w)).filter fun x => decide (7 / 10 ≤ x.1)
  (weighed.foldl (fun sorted x => insertByLikeness x sorted) []).map (·.2)

end Hypertemplate.Text
