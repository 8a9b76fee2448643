import RecordService.Json
import RecordService.Json.Token
import RecordService.Text.Integer

namespace RecordService.Yaml

open Text

def null? (word : String) : Option Json :=
  if ["~", "null", "Null", "NULL"].contains word then some .null else none

def bool? (word : String) : Option Bool :=
  if ["true", "True", "TRUE"].contains word then some true
  else if ["false", "False", "FALSE"].contains word then some false
  else none

section Integer

def radixDigit? (radix : Nat) (c : Char) : Option Nat := (Json.Token.hexValue? c).filter (· < radix)

def natOfRadix? (radix : Nat) (cs : List Char) : Option Nat :=
  if cs.isEmpty then none else (cs.mapM (radixDigit? radix)).map (ofDigits radix)

def hasLeadingZero (cs : List Char) : Bool :=
  match cs with
  | '0' :: d :: ds => (d :: ds).all Char.isDigit
  | _ => false

/-- Without a sign: in base 16, 8 or 2 behind `0x`, `0o` or `0b`, or else in decimal. -/
def nat? (cs : List Char) : Option Nat :=
  match cs with
  | '0' :: 'x' :: ds => natOfRadix? 16 ds
  | '0' :: 'o' :: ds => natOfRadix? 8 ds
  | '0' :: 'b' :: ds => natOfRadix? 2 ds
  | ds => if hasLeadingZero ds then none else natOfRadix? 10 ds

/-- Integers of up to 128 bits; beyond them words of digits are floats. -/
def int? (word : String) : Option Int :=
  match word.toList with
  | '-' :: cs => ((nat? cs).filter (· ≤ maxOfBits 127 + 1)).map fun n ↦ -(n : Int)
  | '+' :: cs => ((nat? cs).filter (· ≤ maxOfBits 128)).map Int.ofNat
  | cs => ((nat? cs).filter (· ≤ maxOfBits 128)).map Int.ofNat

def fits (n : Int) : Bool := Number.int64Min ≤ n && n ≤ maxOfBits 64

end Integer

section Float

structure Scaled where
  digits : List Nat
  exponent : Int

def exponent? (cs : List Char) : Option Int :=
  match cs with
  | [] => some 0
  | c :: cs =>
    if c = 'e' || c = 'E' then
      match cs with
      | '-' :: ds => (Text.nat? ds).map fun n ↦ -(n : Int)
      | '+' :: ds => (Text.nat? ds).map Int.ofNat
      | ds => (Text.nat? ds).map Int.ofNat
    else none

def scaled? (cs : List Char) : Option Scaled := do
  let whole := cs.takeWhile Char.isDigit
  let (places, rest) := match cs.dropWhile Char.isDigit with
    | '.' :: rest => (rest.takeWhile Char.isDigit, rest.dropWhile Char.isDigit)
    | rest => ([], rest)
  let exponent ← exponent? rest
  let digits ← digits? (whole ++ places)
  if digits.isEmpty then none else some ⟨digits, exponent - places.length⟩

/-- The nearest finite number. Far outside the range of finite numbers the power is not worked
out. -/
def Scaled.nearest? (negative : Bool) (d : Scaled) : Option Binary64 :=
  let digits := d.digits.dropWhile (· = 0)
  let size : Int := digits.length + d.exponent
  let n := ofDigits 10 digits
  if n = 0 ∨ size < -400 then Binary64.ofMagnitude? negative 0
  else if 400 < size then none
  else
    let up := Nat.pow 10 d.exponent.toNat
    let down := Nat.pow 10 (-d.exponent).toNat
    Binary64.ofMagnitude? negative (Binary64.nearest (n * up) down)

def float? (word : String) : Option Json :=
  if [".inf", ".Inf", ".INF", "+.inf", "+.Inf", "+.INF", "-.inf", "-.Inf", "-.INF", ".nan", ".NaN",
      ".NAN"].contains word then some .null
  else
    let found := match word.toList with
      | '-' :: cs => (scaled? cs).bind (Scaled.nearest? true)
      | '+' :: cs => (scaled? cs).bind (Scaled.nearest? false)
      | cs => (scaled? cs).bind (Scaled.nearest? false)
    found.map fun x ↦ .num (.float x)

end Float

def isPadded (word : String) : Bool :=
  match word.toList with
  | '-' :: cs => hasLeadingZero cs
  | '+' :: cs => hasLeadingZero cs
  | cs => hasLeadingZero cs

def ofWord? (word : String) : Option Json :=
  if word = "" ∨ (null? word).isSome then some .null
  else match bool? word, int? word with
    | some b, _ => some (.bool b)
    | none, some n => if fits n then some (.int n) else none
    | none, none =>
      if isPadded word then some (.str word) else some ((float? word).getD (.str word))

def coreTag (name : String) : String := "tag:yaml.org,2002:" ++ name

/-- The value of a word under a tag. A tag without a meaning here makes a text of it. -/
def ofTagged? (tag word : String) : Option Json :=
  if tag = coreTag "bool" then (bool? word).map .bool
  else if tag = coreTag "int" then ((int? word).filter fits).map .int
  else if tag = coreTag "float" then float? word
  else if tag = coreTag "null" then null? word
  else if tag.toList.head? = some '!' then none
  else some (.str word)

end RecordService.Yaml
