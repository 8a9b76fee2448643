namespace RecordService.Text

def digit? (c : Char) : Option Nat := if c.isDigit then some (c.toNat - '0'.toNat) else none

def digits? (cs : List Char) : Option (List Nat) := cs.mapM digit?

def ofDigits (base : Nat) (ds : List Nat) : Nat := ds.foldl (fun n d ↦ n * base + d) 0

def nat? (cs : List Char) : Option Nat :=
  if cs.isEmpty then none else (digits? cs).map (ofDigits 10)

def unsigned? (most : Nat) (cs : List Char) : Option Nat :=
  (nat? (match cs with
    | '+' :: ds => ds
    | ds => ds)).filter (· ≤ most)

/-- A number from `-(most + 1)` to `most`; either sign may stand in front. -/
def signed? (most : Nat) (cs : List Char) : Option Int :=
  match cs with
  | '-' :: ds => ((nat? ds).filter (· ≤ most + 1)).map fun n ↦ -(n : Int)
  | ds => (unsigned? most ds).map Int.ofNat

def maxOfBits (bits : Nat) : Nat := Nat.pow 2 bits - 1

def index? (s : String) : Option Nat := unsigned? (maxOfBits 64) s.toList

end RecordService.Text
