import RecordService.Json.Token
import RecordService.Yaml.Spot

namespace RecordService.Yaml

/-- What stands between two stretches of a scalar. -/
inductive Gap where
  | blanks (blanks : List Char)
  | breaks (breaks : List Char)
  /-- After a break that was escaped. -/
  | joined (breaks : List Char)

namespace Gap

def text : Gap → List Char
  | blanks cs => cs
  | breaks ['\n'] => [' ']
  | breaks ('\n' :: cs) => cs
  | breaks cs => cs
  | joined cs => cs

def isBroken : Gap → Bool
  | blanks _ => false
  | breaks _ | joined _ => true

def add (c : Char) : Gap → Gap
  | blanks cs => if isBreak c then breaks [c] else blanks (cs ++ [c])
  | breaks cs => if isBreak c then breaks (cs ++ [c]) else breaks cs
  | joined cs => if isBreak c then joined (cs ++ [c]) else joined cs

/-- Tabs that start a line left of the margin are refused. -/
def read? (margin : Nat) : Gap → List Spot → Option (Gap × List Spot)
  | gap, [] => some (gap, [])
  | gap, s :: rest =>
    if gap.isBroken && s.char = '\t' && s.column < margin then none
    else if isSpace s.char then read? margin (gap.add s.char) rest
    else some (gap, s :: rest)

end Gap

section Plain

variable (inFlow : Bool) (margin : Nat)

def endsPlain (s : Spot) (rest : List Spot) : Bool :=
  isSpace s.char || (s.char = ':' && spaceAhead rest) ||
    (inFlow && [',', '[', ']', '\x7b', '\x7d'].contains s.char)

def isStrayColon (s : Spot) (rest : List Spot) : Bool :=
  inFlow && s.char = ':' && rest.head?.any fun t ↦
    [',', '?', '[', ']', '\x7b', '\x7d'].contains t.char

def plainStretch? : List Spot → Option (List Char × List Spot)
  | [] => some ([], [])
  | s :: rest =>
    if isStrayColon inFlow s rest then none
    else if endsPlain inFlow s rest then some ([], s :: rest)
    else (plainStretch? rest).map fun (cs, rest) ↦ (s.char :: cs, rest)

def plainFrom? (text : List Char) (gap : Gap) (spots : List Spot) :
    Option (List Char × Bool × List Spot) :=
  if documentMarkerAhead spots || (spots.head?.any fun s ↦ s.char = '#') then
    some (text, gap.isBroken, spots)
  else do
    let (stretch, rest) ← plainStretch? inFlow spots
    if stretch.isEmpty then some (text, gap.isBroken, spots)
    else
      let text := text ++ gap.text ++ stretch
      let (gap, rest) ← Gap.read? margin (.blanks []) rest
      if !inFlow && rest.head?.any fun s ↦ s.column < margin then some (text, gap.isBroken, rest)
      else if rest.length < spots.length then plainFrom? text gap rest
      else none
termination_by spots.length

def plain? (spots : List Spot) : Option (String × Bool × List Spot) :=
  (plainFrom? inFlow margin [] (.blanks []) spots).map fun (cs, broken, rest) ↦
    (String.ofList cs, broken, rest)

end Plain

section Quoted

def singleStretch : List Spot → List Char × List Spot
  | [] => ([], [])
  | [s] => if isSpace s.char || s.char = '\x27' then ([], [s]) else ([s.char], [])
  | s :: t :: rest =>
    if isSpace s.char then ([], s :: t :: rest)
    else if s.char = '\x27' then
      if t.char = '\x27' then
        let (cs, rest) := singleStretch rest
        ('\x27' :: cs, rest)
      else ([], s :: t :: rest)
    else
      let (cs, rest) := singleStretch (t :: rest)
      (s.char :: cs, rest)

def escape? (c : Char) : Option Char :=
  match c with
  | '0' => some '\x00'
  | 'a' => some '\x07'
  | 'b' => some '\x08'
  | 't' | '\t' => some '\t'
  | 'n' => some '\n'
  | 'v' => some '\x0b'
  | 'f' => some '\x0c'
  | 'r' => some '\r'
  | 'e' => some '\x1b'
  | ' ' => some ' '
  | '"' => some '"'
  | '/' => some '/'
  | '\\' => some '\\'
  | 'N' => some '\u0085'
  | '_' => some '\u00a0'
  | 'L' => some '\u2028'
  | 'P' => some '\u2029'
  | _ => none

def codeDigits? (c : Char) : Option Nat :=
  match c with
  | 'x' => some 2
  | 'u' => some 4
  | 'U' => some 8
  | _ => none

def hexNumber? (cs : List Char) : Option Nat :=
  cs.foldlM (fun n c ↦ (Json.Token.hexValue? c).map fun d ↦ n * 16 + d) 0

def codeChar? (n : Nat) : Option Char :=
  if h : n.isValidChar then some (Char.ofNatAux n h) else none

def readEscape? : List Spot → Option (Char × List Spot)
  | [] => none
  | s :: rest =>
    match codeDigits? s.char with
    | some n =>
      let digits := (rest.take n).map (·.char)
      if digits.length = n then
        ((hexNumber? digits).bind codeChar?).map fun c ↦ (c, rest.drop n)
      else none
    | none => (escape? s.char).map fun c ↦ (c, rest)

/-- Also whether the stretch ends with a break that is escaped. -/
def doubleStretch? (spots : List Spot) : Option (List Char × Bool × List Spot) :=
  match spots with
  | [] => some ([], false, [])
  | s :: rest =>
    if isSpace s.char || s.char = '"' then some ([], false, s :: rest)
    else if s.char = '\\' then
      match rest with
      | [] => none
      | t :: rest' =>
        if isBreak t.char then some ([], true, rest')
        else do
          let (c, after) ← readEscape? (t :: rest')
          if after.length ≤ rest'.length then
            let (cs, joined, rest) ← doubleStretch? after
            some (c :: cs, joined, rest)
          else none
    else do
      let (cs, joined, rest) ← doubleStretch? rest
      some (s.char :: cs, joined, rest)
termination_by spots.length

def stretch? (single : Bool) (spots : List Spot) : Option (List Char × Bool × List Spot) :=
  if single then
    let (cs, rest) := singleStretch spots
    some (cs, false, rest)
  else doubleStretch? spots

def closesQuote (single : Bool) (s : Spot) : Bool := s.char = if single then '\x27' else '"'

def quotedFrom? (single : Bool) (text : List Char) (spots : List Spot) :
    Option (List Char × List Spot) :=
  if documentMarkerAhead spots then none
  else do
    let (stretch, joined, rest) ← stretch? single spots
    let text := text ++ stretch
    match rest with
    | [] => none
    | s :: rest' =>
      if closesQuote single s then some (text, rest')
      else
        let (gap, rest) ← Gap.read? 0 (if joined then .joined [] else .blanks []) (s :: rest')
        if rest.length < spots.length then quotedFrom? single (text ++ gap.text) rest else none
termination_by spots.length

def quoted? (single : Bool) (spots : List Spot) : Option (String × List Spot) :=
  (quotedFrom? single [] spots).map fun (cs, rest) ↦ (String.ofList cs, rest)

end Quoted

section Block

inductive Chomping where
  | strip
  | clip
  | keep
deriving DecidableEq, Repr

def chomping? (c : Char) : Option Chomping :=
  if c = '-' then some .strip else if c = '+' then some .keep else none

def increment? (c : Char) : Option Nat := if c.isDigit then some (c.toNat - '0'.toNat) else none

def blockHeader (spots : List Spot) : Chomping × Option Nat × List Spot :=
  match spots with
  | [] => (.clip, none, [])
  | s :: rest =>
    match chomping? s.char, increment? s.char with
    | some chomping, _ =>
      match rest.head?.bind fun t ↦ increment? t.char with
      | some n => (chomping, some n, rest.tail)
      | none => (chomping, none, rest)
    | none, some n =>
      match rest.head?.bind fun t ↦ chomping? t.char with
      | some chomping => (chomping, some n, rest.tail)
      | none => (.clip, some n, rest)
    | none, none => (.clip, none, spots)

def blockBreaks? (indent : Option Nat) : Nat → List Spot → Option (List Char × Nat × List Spot)
  | widest, [] => some ([], widest, [])
  | widest, s :: rest =>
    let inside := indent.all (s.column < ·)
    if inside && s.char = ' ' then blockBreaks? indent (max widest (s.column + 1)) rest
    else if inside && s.char = '\t' then none
    else if isBreak s.char then
      (blockBreaks? indent (max widest s.column) rest).map fun (breaks, found) ↦
        (s.char :: breaks, found)
    else some ([], max widest s.column, s :: rest)

structure Block where
  text : List Char := []
  /-- The break that ended the last line. -/
  lineBreak : List Char := []
  /-- Breaks of lines without text after it. -/
  breaks : List Char := []
  /-- Whether the last line started with a blank. -/
  blankLine : Bool := false

def Block.add (folded : Bool) (b : Block) (line : List Char) : List Char :=
  let startsBlank := line.head?.any isBlank
  if folded && b.lineBreak = ['\n'] && !b.blankLine && !startsBlank then
    b.text ++ (if b.breaks.isEmpty then [' '] else b.breaks) ++ line
  else b.text ++ b.lineBreak ++ b.breaks ++ line

def Block.finish (chomping : Chomping) (b : Block) : List Char :=
  match chomping with
  | .strip => b.text
  | .clip => b.text ++ b.lineBreak
  | .keep => b.text ++ b.lineBreak ++ b.breaks

def blockLines? (folded : Bool) (indent : Nat) (b : Block) (spots : List Spot) :
    Option (Block × List Spot) :=
  match spots.head? with
  | none => some (b, [])
  | some s =>
    if s.column = indent then do
      let (line, rest) := takeChars (fun c ↦ !isBreak c) spots
      let lineBreak := (rest.take 1).map (·.char)
      let (breaks, _, rest) ← blockBreaks? (some indent) 0 (rest.drop 1)
      let b : Block :=
        { text := b.add folded line, lineBreak, breaks, blankLine := line.head?.any isBlank }
      if rest.length < spots.length then blockLines? folded indent b rest else none
    else some (b, spots)
termination_by spots.length

/-- A block after its indicator. It is indented as its header says relative to what it stands in, or
else as its first line of text is, but at least to the margin. -/
def block? (folded : Bool) (outer : Option Nat) (spots : List Spot) :
    Option (String × List Spot) := do
  let (chomping, increment, rest) := blockHeader spots
  let rest ← endOfLine? rest
  if increment = some 0 then none
  else
    let margin := (outer.map (· + 1)).getD 0
    let indent := increment.map (outer.getD 0 + ·)
    let (breaks, widest, rest) ← blockBreaks? indent 0 rest
    let indent := indent.getD (max widest (max margin 1))
    let (b, rest) ← blockLines? folded indent { breaks } rest
    some (String.ofList (b.finish chomping), rest)

end Block

end RecordService.Yaml
