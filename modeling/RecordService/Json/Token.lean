namespace RecordService.Json

inductive Token where
  | openList
  | closeList
  | openFields
  | closeFields
  | comma
  | colon
  | word (text : String)
  | text (s : String)
deriving DecidableEq, Repr

namespace Token

/-- What the machine is inside of. Characters already read are kept last first. -/
inductive Mode where
  | between
  | word (read : List Char)
  | text (read : List Char)
  | escape (read : List Char) (high : Option Nat)
  /-- Inside `\u`, with the digits to come and the first half of a pair, if that was read before. -/
  | code (read : List Char) (high : Option Nat) (owed value : Nat)
  /-- After the first half of a surrogate pair. -/
  | pair (read : List Char) (high : Nat)

structure Scan where
  mode : Mode
  /-- Last first. -/
  tokens : List Token

def start : Scan := ⟨.between, []⟩

def hexValue? (c : Char) : Option Nat :=
  if c.isDigit then some (c.toNat - '0'.toNat)
  else if 'a' ≤ c ∧ c ≤ 'f' then some (c.toNat - 'a'.toNat + 10)
  else if 'A' ≤ c ∧ c ≤ 'F' then some (c.toNat - 'A'.toNat + 10)
  else none

def isWordChar (c : Char) : Bool := c.isAlphanum || c = '-' || c = '+' || c = '.'

def stepBetween (tokens : List Token) (c : Char) : Option Scan :=
  if c = ' ' || c = '\n' || c = '\t' || c = '\r' then some ⟨.between, tokens⟩
  else if c = '[' then some ⟨.between, .openList :: tokens⟩
  else if c = ']' then some ⟨.between, .closeList :: tokens⟩
  else if c = '\x7b' then some ⟨.between, .openFields :: tokens⟩
  else if c = '\x7d' then some ⟨.between, .closeFields :: tokens⟩
  else if c = ',' then some ⟨.between, .comma :: tokens⟩
  else if c = ':' then some ⟨.between, .colon :: tokens⟩
  else if c = '"' then some ⟨.text [], tokens⟩
  else if isWordChar c then some ⟨.word [c], tokens⟩
  else none

def unescape? (c : Char) : Option Char :=
  match c with
  | '"' => some '"'
  | '\\' => some '\\'
  | '/' => some '/'
  | 'b' => some '\x08'
  | 'f' => some '\x0c'
  | 'n' => some '\n'
  | 'r' => some '\r'
  | 't' => some '\t'
  | _ => none

/-- After the fourth digit: a character, or the first half of a pair; halves on their own are
refused. -/
def closeCode (read : List Char) (high : Option Nat) (value : Nat) : Option Mode :=
  match high with
  | some h =>
    if 0xDC00 ≤ value ∧ value ≤ 0xDFFF then
      some (.text (Char.ofNat (0x10000 + (h - 0xD800) * 0x400 + (value - 0xDC00)) :: read))
    else none
  | none =>
    if 0xD800 ≤ value ∧ value ≤ 0xDBFF then some (.pair read value)
    else if 0xDC00 ≤ value ∧ value ≤ 0xDFFF then none
    else some (.text (Char.ofNat value :: read))

def step (s : Scan) (c : Char) : Option Scan :=
  match s.mode with
  | .between => stepBetween s.tokens c
  | .word read =>
    if isWordChar c then some { s with mode := .word (c :: read) }
    else stepBetween (.word (String.ofList read.reverse) :: s.tokens) c
  | .text read =>
    if c = '"' then some ⟨.between, .text (String.ofList read.reverse) :: s.tokens⟩
    else if c = '\\' then some { s with mode := .escape read none }
    else if c.toNat < 32 then none
    else some { s with mode := .text (c :: read) }
  | .escape read high =>
    if c = 'u' then some { s with mode := .code read high 4 0 }
    else if high.isSome then none
    else (unescape? c).map fun d ↦ { s with mode := .text (d :: read) }
  | .code read high owed value => do
    let d ← hexValue? c
    let value := value * 16 + d
    if owed ≤ 1 then (closeCode read high value).map fun mode ↦ { s with mode }
    else some { s with mode := .code read high (owed - 1) value }
  | .pair read high => if c = '\\' then some { s with mode := .escape read (some high) } else none

def finish (s : Scan) : Option (List Token) :=
  match s.mode with
  | .between => some s.tokens.reverse
  | .word read => some (.word (String.ofList read.reverse) :: s.tokens).reverse
  | _ => none

def scan? (cs : List Char) : Option (List Token) := (cs.foldlM step start).bind finish

end Token

end RecordService.Json
