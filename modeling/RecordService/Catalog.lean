import RecordService.Request
import RecordService.Template

namespace RecordService

structure Limits where
  /-- Levels of combining operators in a where clause. -/
  depth : Nat := 10
  /-- The largest page; none if not positive. -/
  pageSize : Int := 1000

inductive FieldList where
  /-- Separated by commas. -/
  | text (names : String)
  | list (names : List String)
deriving DecidableEq, Repr

def FieldList.pointers : FieldList → List Pointer
  | .text names => Pointer.listOfText names
  | .list names => names.map Pointer.ofText

def FieldList.ofJson? : Json → Option FieldList
  | .str names => some (.text names)
  | .arr items => (items.mapM Json.str?).map .list
  | _ => none

def FieldList.json : FieldList → Json
  | .text names => .str names
  | .list names => .arr (names.map .str)

structure Definition where
  filter : Json
  fields : Option FieldList := none
  sortKeys : Option Json := none
deriving DecidableEq

namespace Definition

def sorting (d : Definition) : Except QueryError (List SortKey) :=
  match d.sortKeys with
  | none => .ok []
  | some keys => Sorting.ofJson keys

def resolve (limits : Limits) (parameters : Dict String) (d : Definition) :
    Except Fault Filter := do
  let w ← Template.fill parameters d.filter
  orBadRequest (Where.filter limits.depth w)

def check (limits : Limits) (d : Definition) : Except QueryError Unit := do
  let _ ← Where.filter limits.depth d.filter
  let _ ← d.sorting
  .ok ()

end Definition

structure Catalog where
  queries : Dict Definition := []
  commands : Dict Definition := []

namespace Catalog

def allIds : String := "query-all-ids"

/-- Every catalog knows the query for all identifiers, and may define it otherwise. -/
def query (c : Catalog) (id : String) : Except Fault Definition :=
  match Dict.get? id c.queries with
  | some definition => .ok definition
  | none =>
    if id = allIds then .ok { filter := .bool true, fields := some (.text idField) }
    else .error (.badRequest ("Unknown query id: " ++ id))

/-- The request in normal form with a named query replaced by its filter. Fields and sort keys of
the definition stand in where the request has none. -/
def resolveQuery (c : Catalog) (limits : Limits) (q : Query) : Except Fault Query := do
  let q ← orBadRequest (q.normalize limits.pageSize)
  if q.expression.isSome then
    .error (.badRequest "Query expressions are not supported, use a query filter or query id")
  else match q.queryId with
    | none => .ok q
    | some id => do
      let definition ← c.query id
      let filter ← definition.resolve limits q.parameters
      let fields :=
        if q.fields.isEmpty then (definition.fields.map FieldList.pointers).getD [] else q.fields
      let sortKeys ← if q.sortKeys.isEmpty then orBadRequest definition.sorting else .ok q.sortKeys
      .ok { q with queryId := none, filter := some filter, fields, sortKeys }

def commandAction : String := "command"

def commandParameter : String := "commandId"

def resolveCommand (c : Catalog) (limits : Limits) (parameters : Dict String) :
    Except Fault Filter :=
  match Dict.get? commandParameter parameters with
  | none => .error (.badRequest "Command action requires a commandId parameter")
  | some id =>
    match Dict.get? id c.commands with
    | none => .error (.badRequest ("Unknown command id: " ++ id))
    | some definition => definition.resolve limits parameters

end Catalog

end RecordService
