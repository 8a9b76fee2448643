import RecordService.Text.Integer
import RecordService.Yaml.Scalar

namespace RecordService.Yaml

inductive Token where
  | documentStart
  | documentEnd
  | version (major minor : Nat)
  | tagHandle (handle stem : String)
  | openBlockList
  | openBlockFields
  | closeBlock
  | openList
  | closeList
  | openFields
  | closeFields
  | comma
  /-- The dash in front of an item. -/
  | item
  | key
  | value
  | alias (name : String)
  | anchor (name : String)
  | tag (handle suffix : String)
  | plain (text : String)
  | quoted (text : String)
deriving DecidableEq, Repr

/-- A place that may turn out to start a key. -/
structure KeyPlace where
  /-- How many tokens stand before it. -/
  tokens : Nat
  spot : Spot
  /-- Whether the block it stands in allows nothing else. -/
  required : Bool

structure Scan where
  /-- Last first. -/
  tokens : List Token := []
  /-- The columns of the open blocks, innermost first. -/
  indents : List Nat := []
  /-- For each open list or fields in flow style, innermost first, and for the blocks around
  them. -/
  places : List (Option KeyPlace) := [none]
  keyAllowed : Bool := true

namespace Scan

def inFlow (s : Scan) : Bool := 1 < s.places.length

def margin (s : Scan) : Nat := (s.indents.head?.map (· + 1)).getD 0

def emit (t : Token) (s : Scan) : Scan := { s with tokens := t :: s.tokens }

/-- Puts a token in front of all but the first `count` ones. -/
def emitAt (count : Nat) (t : Token) (s : Scan) : Scan :=
  let after := s.tokens.length - count
  { s with tokens := s.tokens.take after ++ t :: s.tokens.drop after }

def allowKey (allowed : Bool) (s : Scan) : Scan := { s with keyAllowed := allowed }

def openBlock (column count : Nat) (t : Token) (s : Scan) : Scan :=
  if !s.inFlow && s.margin ≤ column then
    { s.emitAt count t with indents := column :: s.indents }
  else s

def closeAbove (column : Option Nat) : List Nat → List Token → List Nat × List Token
  | [], tokens => ([], tokens)
  | c :: indents, tokens =>
    if column.all (· < c) then closeAbove column indents (.closeBlock :: tokens)
    else (c :: indents, tokens)

def closeBlocks (column : Option Nat) (s : Scan) : Scan :=
  if s.inFlow then s
  else
    let (indents, tokens) := closeAbove column s.indents s.tokens
    { s with indents, tokens }

def dropPlace? (s : Scan) : Option Scan :=
  match s.places with
  | [] => none
  | some place :: places =>
    if place.required then none else some { s with places := none :: places }
  | none :: _ => some s

def savePlace? (spot : Spot) (s : Scan) : Option Scan :=
  if s.keyAllowed then do
    let required := !s.inFlow && s.indents.head? = some spot.column
    let s ← s.dropPlace?
    some { s with places := some ⟨s.tokens.length, spot, required⟩ :: s.places.tail }
  else some s

/-- A key stands on one line, within 1024 characters of its colon. -/
def isStale (spot : Spot) (place : KeyPlace) : Bool :=
  place.spot.line < spot.line || place.spot.index + 1024 < spot.index

def dropStale? (spot : Spot) (s : Scan) : Option Scan := do
  let places ← s.places.mapM fun place ↦
    match place with
    | none => some none
    | some p => if isStale spot p then (if p.required then none else some none) else some (some p)
  some { s with places }

/-- Skips blanks, comments and breaks. A new line in a block allows a key; where a key is allowed,
tabs are not skipped in blocks. -/
def skip (s : Scan) (inComment : Bool) : List Spot → Scan × List Spot
  | [] => (s, [])
  | spot :: rest =>
    let c := spot.char
    if isBreak c then skip (s.allowKey (s.keyAllowed || !s.inFlow)) false rest
    else if inComment || c = '#' then skip s true rest
    else if c = ' ' || (c = '\t' && (s.inFlow || !s.keyAllowed)) then skip s false rest
    else (s, spot :: rest)

def isNameChar (c : Char) : Bool := c.isAlphanum || c = '_' || c = '-'

def name? (spots : List Spot) : Option (String × List Spot) :=
  let (name, rest) := takeChars isNameChar spots
  let ends := spaceAhead rest ||
    rest.head?.any fun s ↦ ['?', ':', ',', ']', '\x7d', '%', '@', '\x60'].contains s.char
  if name.isEmpty || !ends then none else some (String.ofList name, rest)

section Tag

def isTagChar (c : Char) : Bool :=
  let marks := [';', '/', '?', ':', '@', '&', '=', '+', '$', '.', '%', '!', '~', '*', '\x27',
    '(', ')']
  isNameChar c || marks.contains c

def isUriChar (c : Char) : Bool := isTagChar c || c = ',' || c = '[' || c = ']'

def handle (spots : List Spot) : List Char × List Spot :=
  let (name, rest) := takeChars isNameChar spots
  match rest with
  | s :: rest' => if s.char = '!' then ('!' :: name ++ ['!'], rest') else ('!' :: name, rest)
  | [] => ('!' :: name, [])

def tagEnds (inFlow : Bool) (rest : List Spot) : Bool :=
  spaceAhead rest || (inFlow && rest.head?.any fun s ↦ s.char = ',')

def tag? (inFlow : Bool) (spots : List Spot) : Option (Token × List Spot) := do
  let (t, rest) ← match spots with
    | s :: rest =>
      if s.char = '<' then
        let (uri, rest) := takeChars isUriChar rest
        if !uri.isEmpty && rest.head?.any fun s ↦ s.char = '>' then
          some (Token.tag "" (String.ofList uri), rest.tail)
        else none
      else
        let (name, rest) := handle spots
        let (suffix, rest) := takeChars isTagChar rest
        if 2 ≤ name.length && name.getLast? = some '!' then
          if suffix.isEmpty then none
          else some (.tag (String.ofList name) (String.ofList suffix), rest)
        else
          let suffix := name.tail ++ suffix
          if suffix.isEmpty then some (.tag "" "!", rest)
          else some (.tag "!" (String.ofList suffix), rest)
    | [] => some (.tag "" "!", [])
  if tagEnds inFlow rest then some (t, rest) else none

end Tag

section Directive

def number? (spots : List Spot) : Option (Nat × List Spot) :=
  let (digits, rest) := takeChars Char.isDigit spots
  if 9 < digits.length then none else (Text.nat? digits).map (·, rest)

def version? (spots : List Spot) : Option (Token × List Spot) := do
  let (major, rest) ← number? (skipBlanks spots)
  match rest with
  | s :: rest =>
    if s.char = '.' then (number? rest).map fun (minor, rest) ↦ (Token.version major minor, rest)
    else none
  | [] => none

def tagHandle? (spots : List Spot) : Option (Token × List Spot) :=
  match skipBlanks spots with
  | s :: rest =>
    let (name, rest) := handle rest
    let (stem, rest') := takeChars isUriChar (skipBlanks rest)
    if s.char = '!' && (name = ['!'] || name.getLast? = some '!') &&
        (rest.head?.any fun s ↦ isBlank s.char) && !stem.isEmpty && spaceAhead rest' then
      some (.tagHandle (String.ofList name) (String.ofList stem), rest')
    else none
  | [] => none

def directive? (spots : List Spot) : Option (Token × List Spot) := do
  let (name, rest) := takeChars isNameChar spots
  let (t, rest) ←
    if !spaceAhead rest then none
    else if name = "YAML".toList then version? rest
    else if name = "TAG".toList then tagHandle? rest
    else none
  let rest ← endOfLine? rest
  some (t, rest)

end Directive

def openFlow? (t : Token) (spot : Spot) (s : Scan) : Option Scan :=
  (s.savePlace? spot).map fun s ↦ { s.emit t with places := none :: s.places, keyAllowed := true }

def closeFlow? (t : Token) (s : Scan) : Option Scan :=
  s.dropPlace?.map fun s ↦
    let places := match s.places with
      | _ :: place :: places => place :: places
      | places => places
    { s.emit t with places, keyAllowed := false }

def flowComma? (s : Scan) : Option Scan := s.dropPlace?.map fun s ↦ (s.emit .comma).allowKey true

/-- In a block, a sign for an item or a key stands only where a key may, and may open the block. -/
def openSigned? (opening : Token) (spot : Spot) (s : Scan) : Option Scan :=
  if s.inFlow then some s
  else if s.keyAllowed then some (s.openBlock spot.column s.tokens.length opening)
  else none

def item? (spot : Spot) (s : Scan) : Option Scan := do
  let s ← s.openSigned? .openBlockList spot
  let s ← s.dropPlace?
  some ((s.emit .item).allowKey true)

def key? (spot : Spot) (s : Scan) : Option Scan := do
  let s ← s.openSigned? .openBlockFields spot
  let s ← s.dropPlace?
  some ((s.emit .key).allowKey !s.inFlow)

def value? (spot : Spot) (s : Scan) : Option Scan :=
  match s.places with
  | some place :: places =>
    let s := (s.emitAt place.tokens .key).openBlock place.spot.column place.tokens .openBlockFields
    some { s.emit .value with places := none :: places, keyAllowed := false }
  | _ => (s.openSigned? .openBlockFields spot).map fun s ↦ (s.emit .value).allowKey !s.inFlow

def leaveDocument? (s : Scan) : Option Scan :=
  (s.closeBlocks none).dropPlace?.map (·.allowKey false)

def startsPlain (inFlow : Bool) (c : Char) (rest : List Spot) : Bool :=
  let indicators := ['-', '?', ':', ',', '[', ']', '\x7b', '\x7d', '#', '&', '*', '!', '|', '>',
    '\x27', '"', '%', '@', '\x60']
  !(isSpace c || indicators.contains c) ||
    (c = '-' && !(rest.head?.any fun s ↦ isBlank s.char)) ||
    (!inFlow && (c = '?' || c = ':') && !spaceAhead rest)

def step? (s : Scan) (spot : Spot) (rest : List Spot) : Option (Scan × List Spot) :=
  let spots := spot :: rest
  let c := spot.char
  let signAlone := s.inFlow || spaceAhead rest
  if spot.column = 0 && c = '%' then do
    let s ← s.leaveDocument?
    let (t, rest) ← directive? rest
    some (s.emit t, rest)
  else if markerAhead '-' spots then
    s.leaveDocument?.map fun s ↦ (s.emit .documentStart, rest.drop 2)
  else if markerAhead '.' spots then s.leaveDocument?.map fun s ↦ (s.emit .documentEnd, rest.drop 2)
  else if c = '[' then (s.openFlow? .openList spot).map (·, rest)
  else if c = '\x7b' then (s.openFlow? .openFields spot).map (·, rest)
  else if c = ']' then (s.closeFlow? .closeList).map (·, rest)
  else if c = '\x7d' then (s.closeFlow? .closeFields).map (·, rest)
  else if c = ',' then s.flowComma?.map (·, rest)
  else if c = '-' && spaceAhead rest then (s.item? spot).map (·, rest)
  else if c = '?' && signAlone then (s.key? spot).map (·, rest)
  else if c = ':' && signAlone then (s.value? spot).map (·, rest)
  else if c = '*' then do
    let s ← s.savePlace? spot
    let (name, rest) ← name? rest
    some ((s.emit (.alias name)).allowKey false, rest)
  else if c = '&' then do
    let s ← s.savePlace? spot
    let (name, rest) ← name? rest
    some ((s.emit (.anchor name)).allowKey false, rest)
  else if c = '!' then do
    let s ← s.savePlace? spot
    let (t, rest) ← tag? s.inFlow rest
    some ((s.emit t).allowKey false, rest)
  else if (c = '|' || c = '>') && !s.inFlow then do
    let s ← s.dropPlace?
    let (text, rest) ← block? (c = '>') s.indents.head? rest
    some ((s.emit (.quoted text)).allowKey true, rest)
  else if c = '\x27' || c = '"' then do
    let s ← s.savePlace? spot
    let (text, rest) ← quoted? (c = '\x27') rest
    some ((s.emit (.quoted text)).allowKey false, rest)
  else if startsPlain s.inFlow c rest then do
    let s ← s.savePlace? spot
    let (text, broken, rest) ← plain? s.inFlow s.margin spots
    some ((s.emit (.plain text)).allowKey broken, rest)
  else none

def run? (s : Scan) (spots : List Spot) : Option (List Token) :=
  match s.skip false spots with
  | (s, []) => (s.closeBlocks none).dropPlace?.map fun s ↦ s.tokens.reverse
  | (s, spot :: rest) => do
    let s ← s.dropStale? spot
    let (s, rest) ← (s.closeBlocks (some spot.column)).step? spot rest
    if rest.length < spots.length then s.run? rest else none
termination_by spots.length

end Scan

def Token.scan? (text : String) : Option (List Token) := (Spot.ofText? text).bind (Scan.run? {})

end RecordService.Yaml
