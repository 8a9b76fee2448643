import RecordService.Json.Token
import RecordService.Json.Literal
import RecordService.Markup

namespace RecordService

namespace Json

/-- A list or fields still open, with what it holds so far, last first. -/
inductive Frame where
  | list (items : List Markup)
  | fields (pairs : List (String × Markup))
  /-- Fields that wait for the value of a key. -/
  | entry (pairs : List (String × Markup)) (key : String)

inductive Expects where
  | value
  /-- A value, or the end of an empty list. -/
  | firstItem
  | key
  /-- A key, or the end of empty fields. -/
  | firstKey
  | colon (key : String)
  /-- A comma or the end of what is open. -/
  | separator
  | nothing (document : Markup)

structure Reading where
  stack : List Frame
  expects : Expects

namespace Reading

def start : Reading := ⟨[], .value⟩

def complete (m : Markup) : List Frame → Option Reading
  | [] => some ⟨[], .nothing m⟩
  | .list items :: stack => some ⟨.list (m :: items) :: stack, .separator⟩
  | .entry pairs key :: stack => some ⟨.fields ((key, m) :: pairs) :: stack, .separator⟩
  | .fields _ :: _ => none

def stepValue (stack : List Frame) : Token → Option Reading
  | .word w => if isWord w then complete (.word w) stack else none
  | .text s => complete (.text s) stack
  | .openList => some ⟨.list [] :: stack, .firstItem⟩
  | .openFields => some ⟨.fields [] :: stack, .firstKey⟩
  | _ => none

def stepClose : List Frame → Token → Option Reading
  | .list items :: stack, .closeList => complete (.list items.reverse) stack
  | .fields pairs :: stack, .closeFields => complete (.fields pairs.reverse) stack
  | _, _ => none

def step (r : Reading) (token : Token) : Option Reading :=
  match r.expects, token with
  | .value, _ => stepValue r.stack token
  | .firstItem, .closeList => stepClose r.stack token
  | .firstItem, _ => stepValue r.stack token
  | .firstKey, .closeFields => stepClose r.stack token
  | .firstKey, .text key | .key, .text key => some { r with expects := .colon key }
  | .colon key, .colon => match r.stack with
    | .fields pairs :: stack => some ⟨.entry pairs key :: stack, .value⟩
    | _ => none
  | .separator, .comma => match r.stack with
    | .list _ :: _ => some { r with expects := .value }
    | .fields _ :: _ => some { r with expects := .key }
    | _ => none
  | .separator, _ => stepClose r.stack token
  | _, _ => none

def document? (r : Reading) : Option Markup :=
  match r.expects with
  | .nothing m => some m
  | _ => none

end Reading

def markup? (text : String) : Option Markup := do
  let tokens ← Token.scan? text.toList
  let r ← tokens.foldlM Reading.step Reading.start
  r.document?

def maxLevels : Nat := 127

def ofText? (text : String) : Option Json := (markup? text).bind fun m ↦ m.json? ofWord? maxLevels

end Json

end RecordService
