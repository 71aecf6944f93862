import Deparse.Number.Positional

/-!
# Binary floating-point numbers of 64 bits

The numbers of the binary64 format that are not negative, with infinity on top, form a finite
ascending sequence, and a number is given here by its sign and its place in that sequence, its
*rank*.  Every rank is a number, so no invariant has to be kept, and equality is decided by rank.
The number of rank `r` is `significand r · 2 ^ exponent r`.

`rankOfRatio` rounds a fraction to the nearest rank, a half to the even significand, and
`ofDecimal` reads a decimal with it.  A significand that rounds up to the next power of two needs
no care: adding its overflow to the rank moves to the next exponent.
-/

namespace Deparse

/-- The number of significands that share an exponent, `2 ^ 52`. -/
def significands : Nat :=
  Numeral.place 2 52

/-- The rank of infinity: there are 2047 exponents below it. -/
def infinityRank : Nat :=
  2047 * significands

/-- A binary64 number, or the absence of one. -/
inductive Binary64 where
  /-- The result of an undefined operation; all of these are one here. -/
  | nan
  /-- The number of a rank, negated or not. -/
  | ranked (negative : Bool) (rank : Fin (infinityRank + 1))
deriving DecidableEq

namespace Binary64

/-! ### The value of a rank -/

/-- The integer significand of the number of rank `r`: below the first power of two the rank
itself, above it the leading bit is implied. -/
def significand (r : Nat) : Nat :=
  if r < significands then r else significands + r % significands

/-- The power of two that the significand of rank `r` counts. -/
def exponent (r : Nat) : Int :=
  max (r / significands : Nat) (1 : Nat) - 1075

/-- The number of rank `r` as a fraction, numerator first. -/
def fraction (r : Nat) : Nat × Nat :=
  match exponent r with
  | .ofNat q => (significand r * Numeral.place 2 q, 1)
  | .negSucc q => (significand r, Numeral.place 2 (q + 1))

/-- The number given by a rank, which is cut off at infinity. -/
def ofRank (negative : Bool) (rank : Nat) : Binary64 :=
  ranked negative ⟨min rank infinityRank, by omega⟩

/-- The infinity of a sign. -/
def infinite (negative : Bool) : Binary64 :=
  ofRank negative infinityRank

/-! ### Rounding -/

/-- The integer nearest to `num / den`; of two equally near ones the even one. -/
def nearest (num den : Nat) : Nat :=
  let k := num / den
  let r := num % den
  if 2 * r < den then k else if den < 2 * r then k + 1 else k + k % 2

/-- The greatest `e` such that `2 ^ e ≤ num / den`, for a positive fraction. -/
def floorLog (num den : Nat) : Int :=
  let e : Int := num.log2 - den.log2
  let reached : Bool := match e with
    | .ofNat k => den * Numeral.place 2 k ≤ num
    | .negSucc k => den ≤ num * Numeral.place 2 (k + 1)
  if reached then e else e - 1

/-- The rank of the number nearest to `num / den`. -/
def rankOfRatio (num den : Nat) : Nat :=
  if num = 0 then 0
  else
    let q := max (floorLog num den - 52) (-1074)
    let m := match q with
      | .ofNat k => nearest num (den * Numeral.place 2 k)
      | .negSucc k => nearest (num * Numeral.place 2 (k + 1)) den
    min ((q + 1074).toNat * significands + m) infinityRank

/-- The rank of the number nearest to `coefficient · 10 ^ exponent`.  Where the exponent alone
shows that the number is out of range its power of ten is not computed. -/
def rankOfDecimal (coefficient : Nat) (exponent : Int) : Nat :=
  if coefficient = 0 then 0
  else if 400 ≤ exponent then infinityRank
  else if exponent < -(400 + (coefficient.log2 + 1 : Nat)) then 0
  else match exponent with
    | .ofNat k => rankOfRatio (coefficient * Numeral.place 10 k) 1
    | .negSucc k => rankOfRatio coefficient (Numeral.place 10 (k + 1))

/-- The number nearest to `± coefficient · 10 ^ exponent`. -/
def ofDecimal (negative : Bool) (coefficient : Nat) (exponent : Int) : Binary64 :=
  ofRank negative (rankOfDecimal coefficient exponent)

/-! ### Comparison -/

/-- Whether two floats are numerically equal: the zeros are, and nothing equals `nan`. -/
def equal : Binary64 → Binary64 → Bool
  | ranked s r, ranked s' r' => r = r' && (s = s' || r.val = 0)
  | _, _ => false

/-- Whether a float is exactly the integer `n`. -/
def equalInt : Binary64 → Int → Bool
  | nan, _ => false
  | ranked s r, n =>
    let (num, den) := fraction r
    r.val < infinityRank && n * den = (if s then -(num : Int) else num)

end Binary64

end Deparse
