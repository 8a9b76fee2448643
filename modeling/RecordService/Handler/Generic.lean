import RecordService.Filter
import RecordService.Path
import RecordService.Record
import RecordService.Sorting

namespace RecordService

namespace Generic

def contentField : String := "fullobject"

def typeField : String := "objecttype"

def explicitFields (names : List String) : List String :=
  (Dict.ofList ((idField :: revisionField :: names).map fun name ↦ (name, ()))).map (·.1)

def wrap (explicit : List String) (type : Path) (content : Json) : Json :=
  let (top, inner) : Dict Json × Json := match content with
    | .obj fields =>
      (fields.filter fun p ↦ explicit.contains p.1,
        .obj (fields.filter fun p ↦ !explicit.contains p.1))
    | v => ([], v)
  .obj (Dict.insert typeField (.str type.text) (Dict.insert contentField inner top))

def unwrap (explicit : List String) (stored : Json) : Json :=
  match stored.field? contentField with
  | none => .obj []
  | some (.obj fields) =>
    .obj (explicit.foldl (fun out name ↦
      match stored.field? name with
      | some v => Dict.insert name v out
      | none => out) fields)
  | some v => v

/-- Where a field of the object lies in the record. -/
def moveField (explicit : List String) (field : Pointer) : Pointer :=
  match field.first? with
  | none => field
  | some first =>
    if first = typeField ∨ first ∈ explicit then field else field.under contentField

def moveKeys (explicit : List String) (keys : List SortKey) : List SortKey :=
  keys.map fun key ↦ { key with field := moveField explicit key.field }

def ofType (type : Path) : Filter := Filter.fieldIs typeField type.text

/-- A filter on objects as a filter on the records of one type. -/
def restrict (explicit : List String) (type : Path) : Option Filter → Filter
  | some filter => .all [filter.mapFields (moveField explicit), ofType type]
  | none => ofType type

def looksWrapped (v : Json) : Bool :=
  (v.field? contentField).isSome || (v.field? typeField).isSome

end Generic

end RecordService
