namespace RecordService

namespace Binary64

def binade : Nat := 4503599627370496

def limit : Nat := 2047 * binade

end Binary64

structure Binary64 where
  negative : Bool
  magnitude : Nat
  finite : magnitude < Binary64.limit
deriving DecidableEq

namespace Binary64

/-- The absolute value at a position, in units of the smallest positive number `2 ^ -1074`. -/
def units (magnitude : Nat) : Nat :=
  if magnitude < binade then magnitude
  else (binade + magnitude % binade) * Nat.pow 2 (magnitude / binade - 1)

def one : Nat := Nat.pow 2 1074

/-- `n / d` to the nearest integer, a half to the even neighbour. -/
def roundHalfEven (n d : Nat) : Nat :=
  let q := n / d
  let r := n % d
  if 2 * r < d then q
  else if d < 2 * r then q + 1
  else if q % 2 = 0 then q else q + 1

/-- The position nearest to the ratio `n / d`; at or above `limit` if the ratio is out of range. -/
def nearest (n d : Nat) : Nat :=
  let s := n * one
  let e := (s / d).log2 - 52
  e * binade + roundHalfEven s (d * Nat.pow 2 e)

def ofMagnitude? (negative : Bool) (magnitude : Nat) : Option Binary64 :=
  if h : magnitude < limit then some ⟨negative, magnitude, h⟩ else none

def rank (x : Binary64) : Int := if x.negative then -x.magnitude else x.magnitude

def signedUnits (x : Binary64) : Int := if x.negative then -units x.magnitude else units x.magnitude

def add? (x y : Binary64) : Option Binary64 :=
  let s := x.signedUnits + y.signedUnits
  ofMagnitude? (if s = 0 then x.negative && y.negative else s < 0) (nearest s.natAbs one)

def rankOfInt (n : Int) : Int := if n < 0 then -nearest n.natAbs 1 else nearest n.natAbs 1

def ofInt? (n : Int) : Option Binary64 := ofMagnitude? (n < 0) (nearest n.natAbs 1)

def mulMagnitude (a b : Nat) : Nat := nearest (units a * units b) (one * one)

def divMagnitude (a b : Nat) : Nat := nearest (units a) (units b)

end Binary64

end RecordService
