import RecordService.Binary64.Shortest

namespace RecordService

inductive Number where
  | int (n : Int)
  | float (x : Binary64)
deriving DecidableEq

namespace Number

def rank : Number → Int
  | .int n => Binary64.rankOfInt n
  | .float x => x.rank

def same : Number → Number → Bool
  | .int m, .int n => m = n
  | .float x, .float y => x.rank = y.rank
  | _, _ => false

def int64Min : Int := -9223372036854775808

def int64Max : Int := 9223372036854775807

def float? : Number → Option Binary64
  | .int n => Binary64.ofInt? n
  | .float x => some x

/-- Signed 64-bit integers are added exactly or not at all, anything else as floats. -/
def add? (a b : Number) : Option Number :=
  let floats := do
    let x ← a.float?
    let y ← b.float?
    (x.add? y).map .float
  match a, b with
  | .int m, .int n =>
    if m ≤ int64Max ∧ n ≤ int64Max then
      if int64Min ≤ m + n ∧ m + n ≤ int64Max then some (.int (m + n)) else none
    else floats
  | _, _ => floats

end Number

/-- Positional from `0.00001` up to sixteen digits before the point, otherwise with an exponent. -/
def Decimal.text (d : Decimal) : List Char :=
  let places := d.digits.length
  if -4 ≤ d.point ∧ d.point ≤ 16 then
    if d.point ≤ 0 then '0' :: '.' :: List.replicate (-d.point).toNat '0' ++ d.digits
    else
      let whole := d.point.toNat
      if places ≤ whole then d.digits ++ List.replicate (whole - places) '0' ++ ['.', '0']
      else d.digits.take whole ++ '.' :: d.digits.drop whole
  else
    let exponent := d.point - 1
    d.digits.take 1 ++ (if places ≤ 1 then [] else '.' :: d.digits.drop 1) ++
      'e' :: (if exponent < 0 then '-' else '+') :: Nat.toDigits 10 exponent.natAbs

def Binary64.text (x : Binary64) : List Char :=
  (if x.negative then ['-'] else []) ++
    (if x.magnitude = 0 then ['0', '.', '0'] else (Binary64.shortest x.magnitude).text)

def Number.text : Number → String
  | .int n => toString n
  | .float x => String.ofList x.text

end RecordService
