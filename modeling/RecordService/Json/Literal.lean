import RecordService.Json
import RecordService.Text.Integer

namespace RecordService

structure Literal where
  negative : Bool
  whole : List Nat
  fraction : Option (List Nat)
  /-- Sign and digits. -/
  exponent : Option (Bool × List Nat)
deriving DecidableEq

namespace Literal

open Text

def spanDigits (cs : List Char) : List Nat × List Char :=
  ((cs.takeWhile Char.isDigit).filterMap digit?, cs.dropWhile Char.isDigit)

def whole? (cs : List Char) : Option (List Nat × List Char) :=
  match spanDigits cs with
  | ([], _) => none
  | (0 :: _ :: _, _) => none
  | found => some found

def fraction? : List Char → Option (Option (List Nat) × List Char)
  | '.' :: cs => match spanDigits cs with
    | ([], _) => none
    | (ds, rest) => some (some ds, rest)
  | cs => some (none, cs)

def signedDigits? (negative : Bool) (cs : List Char) : Option (Option (Bool × List Nat)) :=
  match spanDigits cs with
  | ([], _) => none
  | (ds, []) => some (some (negative, ds))
  | _ => none

def exponent? : List Char → Option (Option (Bool × List Nat))
  | [] => some none
  | c :: cs =>
    if c = 'e' || c = 'E' then
      match cs with
      | '-' :: ds => signedDigits? true ds
      | '+' :: ds => signedDigits? false ds
      | ds => signedDigits? false ds
    else none

def ofChars? (cs : List Char) : Option Literal := do
  let (negative, cs) := match cs with
    | '-' :: cs => (true, cs)
    | cs => (false, cs)
  let (whole, cs) ← whole? cs
  let (fraction, cs) ← fraction? cs
  let exponent ← exponent? cs
  some ⟨negative, whole, fraction, exponent⟩

def maxSignificand : Nat := maxOfBits 64

/-- Takes digits while the number they make fits 64 bits; the rest is returned. -/
def gather (significand : Nat) : List Nat → Nat × List Nat
  | [] => (significand, [])
  | d :: ds =>
    if significand * 10 + d ≤ maxSignificand then gather (significand * 10 + d) ds
    else (significand, d :: ds)

def maxPower : Nat := 308

def powerOfTen (n : Nat) : Nat := Binary64.nearest (Nat.pow 10 n) 1

def shrink : Nat → Nat → Nat
  | 0, m => m
  | n + 1, m => if m = 0 then 0 else shrink n (Binary64.divMagnitude m (powerOfTen maxPower))

/-- A magnitude times a power of ten, `none` beyond the finite numbers. -/
def scale? (magnitude : Nat) (exponent : Int) : Option Nat :=
  if 0 ≤ exponent then
    if exponent ≤ maxPower then
      let m := Binary64.mulMagnitude magnitude (powerOfTen exponent.toNat)
      if m < Binary64.limit then some m else none
    else if magnitude = 0 then some 0 else none
  else
    let steps := (exponent.natAbs - 1) / maxPower
    let power := powerOfTen (exponent.natAbs - steps * maxPower)
    some (Binary64.divMagnitude (shrink steps magnitude) power)

def float? (negative : Bool) (significand : Nat) (exponent : Int) : Option Number :=
  (scale? (Binary64.nearest significand 1) exponent).bind fun m ↦
    (Binary64.ofMagnitude? negative m).map .float

def maxExponent : Nat := maxOfBits 31

def number? (l : Literal) : Option Number :=
  let (significand, dropped) := gather 0 l.whole
  match l.fraction, l.exponent with
  | none, none =>
    if dropped ≠ [] then float? l.negative significand dropped.length
    else if !l.negative then some (.int significand)
    else if significand = 0 ∨ maxOfBits 63 + 1 < significand then float? true significand 0
    else some (.int (-(significand : Int)))
  | fraction, exponent =>
    let places := fraction.getD []
    let (significand, ignored) := gather significand places
    let shift : Int := dropped.length - (places.length - ignored.length : Nat)
    match exponent with
    | none => float? l.negative significand shift
    | some (down, ds) =>
      let e := ofDigits 10 ds
      if maxExponent < e then
        if significand ≠ 0 ∧ !down then none else float? l.negative 0 0
      else float? l.negative significand (if down then shift - e else shift + e)

end Literal

def Json.isWord (word : String) : Bool :=
  ["null", "true", "false"].contains word || (Literal.ofChars? word.toList).isSome

def Json.ofWord? (word : String) : Option Json :=
  if word = "null" then some .null
  else if word = "true" then some (.bool true)
  else if word = "false" then some (.bool false)
  else ((Literal.ofChars? word.toList).bind Literal.number?).map .num

end RecordService
