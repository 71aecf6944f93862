import Deparse.Number.Binary64

/-!
# The shortest decimal of a float

`Binary64.shortest` writes a positive finite number with the fewest decimal digits that read back
as the same number, and with those of them that are nearest to it; of two equally near ones the
one that ends in an even digit.  For each count of digits only the two neighbours of the number on
the decimal grid can read back, because the numbers that round to it form an interval around it.
Seventeen digits always suffice.

`Binary64.text` places the decimal point.  The spelling is positional, with at least one digit on
either side of the point, unless the number is below `10 ^ -4` or not below `10 ^ 16`; then one
digit stands before the point and a signed exponent of at least two digits after the rest.
-/

namespace Deparse.Binary64

/-! ### Digits -/

/-- `num / den / 10 ^ k` as a fraction. -/
def scaledDown (num den : Nat) : Int → Nat × Nat
  | .ofNat k => (num, den * Numeral.place 10 k)
  | .negSucc k => (num * Numeral.place 10 (k + 1), den)

/-- The greatest `e` such that `10 ^ e ≤ num / den`, for a positive fraction: an estimate from the
power of two, corrected by at most one. -/
def floorLogTen (num den : Nat) : Int :=
  let e := (floorLog num den * 30103).fdiv 100000
  let (n, d) := scaledDown num den e
  if n < d then e - 1 else if 10 * d ≤ n then e + 1 else e

/-- The decimal on the grid of `10 ^ k` that reads back as rank `r` and is nearest to `num / den`,
if there is one. -/
def onGrid? (r num den : Nat) (k : Int) : Option Nat :=
  let (n, d) := scaledDown num den k
  let low := n / d
  let readsBack := fun c => rankOfDecimal c k = r
  if readsBack low ∧ readsBack (low + 1) then some (nearest n d)
  else if readsBack low then some low
  else if readsBack (low + 1) then some (low + 1)
  else none

/-- A decimal `coefficient · 10 ^ exponent` with the fewest digits that reads back as rank `r`. -/
def shortest (r : Nat) : Nat × Int :=
  let (num, den) := fraction r
  let top := floorLogTen num den
  let grids := (List.range 17).map fun (n : Nat) => top - n
  (grids.findSome? fun k => (onGrid? r num den k).map (·, k)).getD (num / den, 0)

/-- The digits of `shortest r` without the zeros at their end, and the place of the decimal point
counted from before the first digit. -/
def shortestDigits (r : Nat) : List Nat × Int :=
  let (c, k) := shortest r
  let ds := Numeral.digits 10 c
  ((ds.reverse.dropWhile (· = 0)).reverse, ds.length + k)

/-! ### Spelling -/

/-- The characters of decimal digits. -/
def digitText (ds : List Nat) : Text :=
  ds.map fun d => Numeral.lowerDigit d

/-- Digits with the point after the first `point` of them; zeros fill the gap on either side. -/
def positional (ds : List Nat) : Int → Text
  | .ofNat 0 => "0." ++ digitText ds
  | .ofNat point =>
    if ds.length ≤ point then digitText ds ++ Text.repeated (point - ds.length) "0" ++ ".0"
    else digitText (ds.take point) ++ "." ++ digitText (ds.drop point)
  | .negSucc point => "0." ++ Text.repeated (point + 1) "0" ++ digitText ds

/-- Digits with the point after the first of them, and the power of ten that makes up for it. -/
def scientific (ds : List Nat) (power : Int) : Text :=
  let mantissa := match ds with
    | [] | [_] => digitText ds
    | d :: ds => digitText [d] ++ "." ++ digitText ds
  let size := Numeral.decimal power.natAbs
  let mark : Text := if power < 0 then "e-" else "e+"
  mantissa ++ mark ++ Text.repeated (2 - size.length) "0" ++ size

/-- The spelling of the number of rank `r`, which is finite. -/
def magnitudeText (r : Nat) : Text :=
  if r = 0 then "0.0"
  else
    let (ds, point) := shortestDigits r
    if -4 < point ∧ point ≤ 16 then positional ds point else scientific ds (point - 1)

/-- The spelling of a float; the numbers that are not finite are words. -/
def text : Binary64 → Text
  | nan => "nan"
  | ranked negative r =>
    (if negative then ("-" : Text) else []) ++
      (if r.val = infinityRank then ("inf" : Text) else magnitudeText r)

end Deparse.Binary64
