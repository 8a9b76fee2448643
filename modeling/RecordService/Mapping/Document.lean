import RecordService.Catalog

namespace RecordService

structure TypeSettings where
  /-- The collection that a generic type is kept below. -/
  resource : Option String := none
  /-- Fields that records keep at the top, besides identifier and revision. -/
  explicitProperties : List String := []
deriving DecidableEq, Inhabited

structure QuerySections where
  generic : Option (Dict Definition) := none
  explicit : Option (Dict Definition) := none

structure TypeSections where
  /-- For the types that are not mapped. -/
  default : Option TypeSettings := none
  generic : Dict TypeSettings := []
  explicit : Dict TypeSettings := []

structure MappingDocument where
  queries : Option QuerySections := none
  commands : Dict Definition := []
  types : Option TypeSections := none

inductive MappingError where
  | unreadable (path detail : String)
  /-- No document of the format, or of another shape. -/
  | malformed (format : String)
  | unsupportedFormat (path : String)
  | missingSection (name : String)
  | duplicateType (type : Path)
  | invalidQuery (id : String) (reason : QueryError)
deriving DecidableEq

def MappingError.message : MappingError → String
  | .unreadable path detail => "Failed to read " ++ path ++ ": " ++ detail
  | .malformed format => "Failed to parse " ++ format ++ " configuration: malformed document"
  | .unsupportedFormat path => "Unsupported configuration format: " ++ path
  | .missingSection name => "Missing required configuration section: " ++ name
  | .duplicateType type => "Type path " ++ type.text ++ " is mapped more than once"
  | .invalidQuery id reason => "Invalid query " ++ id ++ ": " ++ reason.message

structure TypeMapping where
  type : Path
  isGeneric : Bool
  resource : Path
  settings : TypeSettings

namespace MappingDocument

def defaultResource : String := "default"

def genericQueries (d : MappingDocument) : Except MappingError (Dict Definition) :=
  match d.queries with
  | none => .error (.missingSection "queries")
  | some { generic := none, .. } => .error (.missingSection "queries/generic")
  | some { generic := some queries, .. } => .ok queries

def explicitQueries (d : MappingDocument) : Except MappingError (Dict Definition) :=
  match d.queries with
  | none => .error (.missingSection "queries")
  | some { explicit := none, .. } => .error (.missingSection "queries/explicit")
  | some { explicit := some queries, .. } => .ok queries

def typeSections (d : MappingDocument) : Except MappingError TypeSections :=
  match d.types with
  | none => .error (.missingSection "resourceMapping")
  | some types => .ok types

def defaultMapping (d : MappingDocument) : Except MappingError (Path × TypeSettings) :=
  d.typeSections.map fun types ↦
    let settings := types.default.getD {}
    (.ofText (settings.resource.getD defaultResource), settings)

/-- The type path of a key; one wildcard at its end is dropped. -/
def typeOfKey (key : String) : Path :=
  match key.toList.reverse with
  | '*' :: '/' :: cs => .ofText (String.ofList cs.reverse)
  | _ => .ofText key

def addMapping (m : TypeMapping) (before : List TypeMapping) :
    Except MappingError (List TypeMapping) :=
  if before.any (·.type = m.type) then .error (.duplicateType m.type) else .ok (before ++ [m])

def addGeneric (before : List TypeMapping) (entry : String × TypeSettings) :
    Except MappingError (List TypeMapping) :=
  match entry.2.resource with
  | none => .error (.missingSection "resourceMapping/genericMapping/*/resource")
  | some resource => addMapping ⟨typeOfKey entry.1, true, .ofText resource, entry.2⟩ before

def addExplicit (before : List TypeMapping) (entry : String × TypeSettings) :
    Except MappingError (List TypeMapping) :=
  addMapping ⟨typeOfKey entry.1, false, typeOfKey entry.1, entry.2⟩ before

/-- The mapped types, generic ones first; no type is mapped twice. -/
def typeMappings (d : MappingDocument) : Except MappingError (List TypeMapping) := do
  let types ← d.typeSections
  let generic ← types.generic.foldlM addGeneric []
  types.explicit.foldlM addExplicit generic

def definitions (d : MappingDocument) : List (String × Definition) :=
  let queries := d.queries.getD {}
  queries.generic.getD [] ++ queries.explicit.getD [] ++ d.commands

def checkDefinition (limits : Limits) (entry : String × Definition) : Except MappingError Unit :=
  (entry.2.check limits).mapError (.invalidQuery entry.1)

def validate (limits : Limits) (d : MappingDocument) : Except MappingError Unit := do
  let _ ← d.genericQueries
  let types ← d.typeSections
  if !types.explicit.isEmpty then
    let _ ← d.explicitQueries
  d.definitions.forM (checkDefinition limits)
  let _ ← d.typeMappings
  .ok ()

section Json

def definitionJson (d : Definition) : Json :=
  .record [("_queryFilter", d.filter), ("_fields", Json.ofOption (d.fields.map FieldList.json)),
    ("_sortKeys", Json.ofOption d.sortKeys)]

def definitionsJson (d : Dict Definition) : Json := .obj (Dict.mapValues definitionJson d)

def settingsJson (s : TypeSettings) : Json :=
  .record [("resource", Json.ofOption (s.resource.map .str)),
    ("explicitProperties", .arr (s.explicitProperties.map .str))]

def json (d : MappingDocument) : Json :=
  let queries := d.queries.map fun q ↦
    Json.record [("generic", Json.ofOption (q.generic.map definitionsJson)),
      ("explicit", Json.ofOption (q.explicit.map definitionsJson))]
  let types := d.types.map fun t ↦
    Json.record [("defaultMapping", Json.ofOption (t.default.map settingsJson)),
      ("genericMapping", .obj (Dict.mapValues settingsJson t.generic)),
      ("explicitMapping", .obj (Dict.mapValues settingsJson t.explicit))]
  .record [("queries", Json.ofOption queries), ("commands", definitionsJson d.commands),
    ("resourceMapping", Json.ofOption types)]

end Json

end MappingDocument

end RecordService
