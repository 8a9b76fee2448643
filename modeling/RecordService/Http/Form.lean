import RecordService.Dict
import RecordService.Text.Split
import RecordService.Text.Utf8

namespace RecordService.Http

def hexOctet? (b : UInt8) : Option UInt8 :=
  if 48 ≤ b ∧ b ≤ 57 then some (b - 48)
  else if 97 ≤ b ∧ b ≤ 102 then some (b - 87)
  else if 65 ≤ b ∧ b ≤ 70 then some (b - 55)
  else none

/-- A percent sign and two hexadecimal digits stand for an octet; a percent sign alone for
itself. -/
def percentDecode : List UInt8 → List UInt8
  | 37 :: a :: b :: rest =>
    match hexOctet? a, hexOctet? b with
    | some high, some low => (high * 16 + low) :: percentDecode rest
    | _, _ => 37 :: percentDecode (a :: b :: rest)
  | b :: rest => b :: percentDecode rest
  | [] => []

def decodePath? (path : List Char) : Option String :=
  Text.Utf8.decode? (percentDecode (Text.Utf8.encode (String.ofList path)))

def decodePart (part : List Char) : String :=
  let spaced := part.map fun c ↦ if c = '+' then ' ' else c
  Text.Utf8.decodeLossy (percentDecode (Text.Utf8.encode (String.ofList spaced)))

def parameters (query : List Char) : Dict String :=
  Dict.ofList (((Text.split '&' query).filter (· ≠ [])).map fun part ↦
    match Text.cut '=' part with
    | some (name, value) => (decodePart name, decodePart value)
    | none => (decodePart part, ""))

def withoutHost (target : List Char) : List Char :=
  if target.head? = some '/' then target
  else match Text.cut ':' target with
    | some (_, '/' :: '/' :: rest) => rest.dropWhile fun c ↦ c ≠ '/' && c ≠ '?'
    | _ => target

def splitTarget (target : List Char) : List Char × List Char :=
  let target := withoutHost (target.takeWhile (· ≠ '#'))
  (Text.cut '?' target).getD (target, [])

end RecordService.Http
