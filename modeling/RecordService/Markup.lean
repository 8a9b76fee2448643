import RecordService.Json

namespace RecordService

inductive Markup where
  /-- Unquoted text. -/
  | word (text : String)
  | text (s : String)
  /-- Something with a value of its own, which may be missing, and perhaps a text where one is
  wanted. -/
  | tagged (value : Option Json) (text : Option String)
  | list (items : List Markup)
  | fields (pairs : List (String × Markup))
deriving Inhabited

namespace Markup

mutual

/-- The JSON value of a document with at most `room` levels of lists and fields. Of equal fields the
last one counts. -/
def json? (value? : String → Option Json) : Markup → Nat → Option Json
  | .word w, _ => value? w
  | .text s, _ => some (.str s)
  | .tagged value _, _ => value
  | .list _, 0 => none
  | .list items, room + 1 => (jsonItems? value? items room).map .arr
  | .fields _, 0 => none
  | .fields pairs, room + 1 => (jsonFields? value? pairs room).map fun fs ↦ .obj (Dict.ofList fs)
termination_by structural m => m

def jsonItems? (value? : String → Option Json) : List Markup → Nat → Option (List Json)
  | [], _ => some []
  | m :: ms, room => do
    let v ← json? value? m room
    let vs ← jsonItems? value? ms room
    some (v :: vs)
termination_by structural ms => ms

def jsonFields? (value? : String → Option Json) :
    List (String × Markup) → Nat → Option (List (String × Json))
  | [], _ => some []
  | (k, m) :: ms, room => do
    let v ← json? value? m room
    let vs ← jsonFields? value? ms room
    some ((k, v) :: vs)
termination_by structural ms => ms

end

end Markup

end RecordService
