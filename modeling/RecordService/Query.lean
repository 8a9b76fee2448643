import RecordService.Filter.Where
import RecordService.Path
import RecordService.Sorting

namespace RecordService

structure Query where
  path : Path
  queryId : Option String := none
  filter : Option Filter := none
  expression : Option String := none
  /-- The fields to return; none means all. -/
  fields : List Pointer := []
  sortKeys : List SortKey := []
  pageSize : Option Int := none
  offset : Option Int := none
  parameters : Dict String := []
deriving Inhabited

def Pointer.listOfText (text : String) : List Pointer :=
  (((Text.split ',' text.toList).map Text.trim).filter (· ≠ [])).map fun cs ↦
    .ofText (String.ofList cs)

def distinct {α : Type} [DecidableEq α] : List α → List α
  | [] => []
  | x :: xs => x :: (distinct xs).filter (· ≠ x)

namespace Query

def nonBlank (text : Option String) : Option String :=
  text.bind fun s ↦
    let cs := Text.trim s.toList
    if cs.isEmpty then none else some (String.ofList cs)

def supplied (q : Query) : List String :=
  (if q.queryId.isSome then ["_queryId"] else []) ++
    (if q.filter.isSome then ["_queryFilter"] else []) ++
    (if q.expression.isSome then ["_queryExpression"] else [])

def checkForm (q : Query) : Except QueryError Unit :=
  match q.supplied with
  | [] => .error .missingForm
  | [_] => .ok ()
  | names => .error (.conflictingForms (", ".intercalate names))

/-- Zero means unpaged; a positive cap bounds the size. -/
def pageSizeWithin (cap : Int) : Option Int → Except QueryError (Option Int)
  | none => .ok none
  | some size =>
    if size < 0 then .error (.invalidPageSize (toString size))
    else if size = 0 then .ok none
    else if 0 < cap ∧ cap < size then .ok (some cap)
    else .ok (some size)

def checkedOffset : Option Int → Except QueryError (Option Int)
  | none => .ok none
  | some offset =>
    if offset < 0 then .error (.invalidOffset (toString offset))
    else if offset = 0 then .ok none
    else .ok (some offset)

def normalize (cap : Int) (q : Query) : Except QueryError Query := do
  let q := { q with queryId := nonBlank q.queryId, expression := nonBlank q.expression }
  checkForm q
  let pageSize ← pageSizeWithin cap q.pageSize
  let offset ← checkedOffset q.offset
  .ok { q with pageSize, offset, fields := distinct q.fields }

end Query

end RecordService
