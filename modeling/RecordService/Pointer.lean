import RecordService.Json
import RecordService.QueryError
import RecordService.Text.Integer
import RecordService.Text.Split

namespace RecordService

structure Pointer where
  tokens : List String
deriving DecidableEq, Inhabited, Repr

namespace Pointer

def root : Pointer := ⟨[]⟩

/-- Replaces `~` and the character `code` by `sign`, from left to right. -/
def replaceEscape (code sign : Char) : List Char → List Char
  | [] => []
  | '~' :: c :: cs =>
    if c = code then sign :: replaceEscape code sign cs
    else '~' :: replaceEscape code sign (c :: cs)
  | c :: cs => c :: replaceEscape code sign cs

/-- Slashes first, then tildes. -/
def decodeToken (cs : List Char) : List Char := replaceEscape '0' '~' (replaceEscape '1' '/' cs)

def encodeToken (cs : List Char) : List Char :=
  cs.flatMap fun c ↦ if c = '~' then ['~', '0'] else if c = '/' then ['~', '1'] else [c]

/-- Empty tokens are dropped, so a leading slash makes no difference. -/
def ofText (text : String) : Pointer :=
  ⟨((Text.split '/' text.toList).filter (· ≠ [])).map fun cs ↦ String.ofList (decodeToken cs)⟩

def text (p : Pointer) : String :=
  if p.tokens.isEmpty then "/"
  else String.ofList (p.tokens.flatMap fun t ↦ '/' :: encodeToken t.toList)

def isRoot (p : Pointer) : Bool := p.tokens.isEmpty

def first? (p : Pointer) : Option String := p.tokens.head?

def under (token : String) (p : Pointer) : Pointer := ⟨token :: p.tokens⟩

def child (p : Pointer) (token : String) : Pointer := ⟨p.tokens ++ [token]⟩

def le (p q : Pointer) : Bool := Text.piecesLe p.tokens q.tokens

def sorted (pointers : List Pointer) : List Pointer := pointers.mergeSort le

end Pointer

namespace Json

def step? (token : String) : Json → Option Json
  | .obj fields => Dict.get? token fields
  | .arr items => (Text.index? token).bind (items[·]?)
  | _ => none

def lookup? : List String → Json → Option Json
  | [], v => some v
  | t :: ts, v => (v.step? t).bind (lookup? ts)

def opened : Json → Json
  | .null => .obj []
  | v => v

/-- Writes at the last token of a pointer: a new or replaced field, a replaced item, or `-` for an
item at the end. The flag says whether that was possible. -/
def writeLast (token : String) (value : Json) : Json → Json × Bool
  | .obj fields => (.obj (Dict.insert token value fields), true)
  | .arr items =>
    if token = "-" then (.arr (items ++ [value]), true)
    else match Text.index? token with
      | some i => if i < items.length then (.arr (items.set i value), true) else (.arr items, false)
      | none => (.arr items, false)
  | v => (v, false)

/-- Writes along a pointer, making objects on the way. When that fails, what was made on the way
stays: the result is the document as it is left behind, and whether the value was written. -/
def write (value : Json) : List String → Json → Json × Bool
  | [], _ => (value, true)
  | [t], d => writeLast t value d.opened
  | t :: t' :: ts, d =>
    match d.opened with
    | .obj fields =>
      let (v, done) := write value (t' :: ts) ((Dict.get? t fields).getD (.obj []))
      (.obj (Dict.insert t v fields), done)
    | .arr items =>
      match Text.index? t with
      | some i => match items[i]? with
        | some item =>
          let (v, done) := write value (t' :: ts) item
          (.arr (items.set i v), done)
        | none => (.arr items, false)
      | none => (.arr items, false)
    | v => (v, false)

def takeLast (token : String) : Json → Option Json × Json
  | .obj fields => (Dict.get? token fields, .obj (Dict.erase token fields))
  | .arr items =>
    match Text.index? token with
    | some i => if i < items.length then (items[i]?, .arr (items.eraseIdx i)) else (none, .arr items)
    | none => (none, .arr items)
  | v => (none, v)

/-- Takes away what a pointer leads to. Where its way ends early, nothing is taken and everything
stays as it is. -/
def take : List String → Json → Option Json × Json
  | [], d => (none, d)
  | [t], d => takeLast t d
  | t :: t' :: ts, d =>
    match d with
    | .obj fields =>
      match Dict.get? t fields with
      | some v =>
        let (taken, v) := take (t' :: ts) v
        (taken, .obj (Dict.modify t (fun _ ↦ v) fields))
      | none => (none, .obj fields)
    | .arr items =>
      match Text.index? t with
      | some i => match items[i]? with
        | some item =>
          let (taken, item) := take (t' :: ts) item
          (taken, .arr (items.set i item))
        | none => (none, .arr items)
      | none => (none, .arr items)
    | v => (none, v)

end Json

namespace Pointer

def get? (p : Pointer) (document : Json) : Option Json := Json.lookup? p.tokens document

def write (p : Pointer) (document value : Json) : Json × Except QueryError Unit :=
  let (d, done) := Json.write value p.tokens document
  (d, if done then .ok () else .error (.invalidPointer p.text))

def set (p : Pointer) (document value : Json) : Except QueryError Json :=
  let (d, result) := p.write document value
  result.map fun _ ↦ d

def remove (p : Pointer) (document : Json) : Option Json × Json := Json.take p.tokens document

end Pointer

end RecordService
