namespace RecordService.Yaml

structure Spot where
  char : Char
  line : Nat
  column : Nat
  /-- How many characters stand before this one. -/
  index : Nat
deriving DecidableEq, Repr

def isBlank (c : Char) : Bool := c = ' ' || c = '\t'

def isBreak (c : Char) : Bool := c = '\n' || c = '\u2028' || c = '\u2029'

def isSpace (c : Char) : Bool := isBlank c || isBreak c

def isAllowed (c : Char) : Bool :=
  let n := c.toNat
  n = 0x09 || n = 0x0A || n = 0x0D || (0x20 ≤ n && n ≤ 0x7E) || n = 0x85 ||
    (0xA0 ≤ n && n ≤ 0xD7FF) || (0xE000 ≤ n && n ≤ 0xFFFD && n ≠ 0xFEFF) || 0x10000 ≤ n

namespace Spot

def ofCharsFrom : List Char → (line column index : Nat) → List Spot
  | [], _, _, _ => []
  | '\r' :: '\n' :: cs, line, column, index =>
    ⟨'\n', line, column, index⟩ :: ofCharsFrom cs (line + 1) 0 (index + 2)
  | c :: cs, line, column, index =>
    let c := if c = '\r' || c = '\u0085' then '\n' else c
    ⟨c, line, column, index⟩ ::
      if isBreak c then ofCharsFrom cs (line + 1) 0 (index + 1)
      else ofCharsFrom cs line (column + 1) (index + 1)

def ofText? (text : String) : Option (List Spot) :=
  let cs := match text.toList with
    | '\ufeff' :: cs => cs
    | cs => cs
  if cs.all isAllowed then some (ofCharsFrom cs 0 0 0) else none

end Spot

def spaceAhead : List Spot → Bool
  | [] => true
  | s :: _ => isSpace s.char

/-- Whether a line starts with three times the same character and nothing joined to them. -/
def markerAhead (c : Char) : List Spot → Bool
  | s :: t :: u :: rest => s.column = 0 && s.char = c && t.char = c && u.char = c && spaceAhead rest
  | _ => false

def documentMarkerAhead (spots : List Spot) : Bool := markerAhead '-' spots || markerAhead '.' spots

def takeChars (test : Char → Bool) (spots : List Spot) : List Char × List Spot :=
  let inside (s : Spot) : Bool := test s.char
  ((spots.takeWhile inside).map (·.char), spots.dropWhile inside)

def skipBlanks (spots : List Spot) : List Spot := spots.dropWhile fun s ↦ isBlank s.char

def skipComment (spots : List Spot) : List Spot :=
  match spots with
  | [] => []
  | s :: _ => if s.char = '#' then spots.dropWhile fun t ↦ !isBreak t.char else spots

def endOfLine? (spots : List Spot) : Option (List Spot) :=
  match skipComment (skipBlanks spots) with
  | [] => some []
  | s :: rest => if isBreak s.char then some rest else none

end RecordService.Yaml
