import RecordService.Binary64

namespace RecordService

/-- The decimal `0.d₁d₂…dₙ · 10 ^ point`. -/
structure Decimal where
  digits : List Char
  point : Int
deriving DecidableEq, Repr

namespace Binary64

def decimalPoint (u d : Nat) : Int :=
  if d ≤ u then (Nat.toDigits 10 (u / d)).length else 1 - ((Nat.toDigits 10 (d / u)).length : Int)

def within (closed : Bool) (low high t : Nat) : Bool :=
  if closed then low ≤ t && t ≤ high else low < t && t < high

/-- With `places` digits, the decimal that reads back nearest to the number, if one does. -/
def withPlaces? (magnitude : Nat) (point : Int) (places : Nat) : Option Decimal :=
  let low := units (magnitude - 1) + units magnitude
  let high := units magnitude + units (magnitude + 1)
  let value := 2 * units magnitude
  -- the grid of `places` digits has the step `10 ^ exponent`
  let exponent := point - places
  let up := Nat.pow 10 exponent.toNat
  let down := Nat.pow 10 (-exponent).toNat
  -- grid point `c` stands for `c * step` and the number for `value * down`
  let step := 2 * one * up
  let scale (t : Nat) := t * down
  let c := scale value / step
  let closed := magnitude % 2 = 0
  let hit (c : Nat) := within closed (scale low) (scale high) (c * step)
  let below := scale value - c * step
  let above := (c + 1) * step - scale value
  let decimal (c : Nat) : Decimal :=
    let ds := Nat.toDigits 10 c
    ⟨(ds.reverse.dropWhile (· = '0')).reverse, point - places + ds.length⟩
  match hit c && c ≠ 0, hit (c + 1) with
  | true, true =>
    if below < above || (below = above && c % 2 = 0) then some (decimal c)
    else some (decimal (c + 1))
  | true, false => some (decimal c)
  | false, true => some (decimal (c + 1))
  | false, false => none

def shortest (magnitude : Nat) : Decimal :=
  let point := decimalPoint (units magnitude) one
  ((List.range 17).findSome? fun n ↦ withPlaces? magnitude point (n + 1)).getD ⟨[], 0⟩

end Binary64

end RecordService
