namespace RecordService.Text.Utf8

/-- Between characters, or inside one: the octets still owed, the range of the next, and the bits so
far. -/
inductive State where
  | start
  | inside (owed : Nat) (low high : UInt8) (bits : Nat)

def replacement : Char := '\ufffd'

def first (b : UInt8) : List Char × State :=
  if b < 0x80 then ([Char.ofNat b.toNat], .start)
  else if b < 0xC2 then ([replacement], .start)
  else if b < 0xE0 then ([], .inside 1 0x80 0xBF (b.toNat % 32))
  else if b = 0xE0 then ([], .inside 2 0xA0 0xBF 0)
  else if b = 0xED then ([], .inside 2 0x80 0x9F 13)
  else if b < 0xF0 then ([], .inside 2 0x80 0xBF (b.toNat % 16))
  else if b = 0xF0 then ([], .inside 3 0x90 0xBF 0)
  else if b < 0xF4 then ([], .inside 3 0x80 0xBF (b.toNat % 8))
  else if b = 0xF4 then ([], .inside 3 0x80 0x8F 4)
  else ([replacement], .start)

def step : State → UInt8 → List Char × State
  | .start, b => first b
  | .inside owed low high bits, b =>
    if low ≤ b && b ≤ high then
      let bits := bits * 64 + b.toNat % 64
      if owed ≤ 1 then ([Char.ofNat bits], .start) else ([], .inside (owed - 1) 0x80 0xBF bits)
    else
      let (out, next) := first b
      (replacement :: out, next)

def decodeFrom : State → List UInt8 → List Char
  | .start, [] => []
  | .inside .., [] => [replacement]
  | state, b :: bs =>
    let (out, next) := step state b
    out ++ decodeFrom next bs

def decodeLossy (octets : List UInt8) : String := String.ofList (decodeFrom .start octets)

def decode? (octets : List UInt8) : Option String := String.fromUTF8? ⟨octets.toArray⟩

def encode (s : String) : List UInt8 := s.toUTF8.toList

end RecordService.Text.Utf8
