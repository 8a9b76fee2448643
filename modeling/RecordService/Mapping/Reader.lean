import RecordService.Json.Reader
import RecordService.Mapping.Document

namespace RecordService

/-- How the words of a document format are understood. -/
structure Dialect where
  name : String
  /-- What a word stands for. -/
  value? : String → Option Json
  /-- Whether a word is a text where a text is wanted. -/
  wordIsText : Bool
  /-- Whether nothing at all stands for an empty list or empty fields. -/
  blankIsEmpty : Bool
  /-- How many levels of lists and fields a document may have. -/
  levels : Nat

namespace MappingDocument

variable (dialect : Dialect)

def isBlank : Markup → Bool
  | .word w => dialect.blankIsEmpty && w.isEmpty
  | _ => false

def readText? : Markup → Option String
  | .text s => some s
  | .word w => if dialect.wordIsText then some w else none
  | .tagged _ text => text
  | _ => none

def isNull : Markup → Bool
  | .word w => dialect.value? w = some .null
  | .tagged value _ => value = some .null
  | _ => false

def readOptional? {α : Type} (read? : Markup → Nat → Option α) (m : Markup) (room : Nat) :
    Option (Option α) :=
  if isNull dialect m then some none else (read? m room).map some

def readRecord? (names : List String) (m : Markup) (room : Nat) :
    Option (List (String × Markup) × Nat) :=
  if isBlank dialect m then some ([], room)
  else match m, room with
    | .fields pairs, room + 1 =>
      let known := pairs.filter fun p ↦ names.contains p.1
      if (known.map (·.1)).Nodup then some (known, room) else none
    | .list items, room + 1 =>
      if items.length ≤ names.length then some (names.zip items, room) else none
    | _, _ => none

def readDict? {α : Type} (read? : Markup → Nat → Option α) (m : Markup) (room : Nat) :
    Option (Dict α) :=
  if isBlank dialect m then some []
  else match m, room with
    | .fields pairs, room + 1 =>
      (pairs.mapM fun p ↦ (read? p.2 room).map fun a ↦ (p.1, a)).map Dict.ofList
    | _, _ => none

def readTexts? (m : Markup) (room : Nat) : Option (List String) :=
  if isBlank dialect m then some []
  else match m, room with
    | .list items, _ + 1 => items.mapM (readText? dialect)
    | _, _ => none

def part? {α : Type} (name : String) (missing : α) (read? : Markup → Nat → Option α)
    (record : List (String × Markup) × Nat) : Option α :=
  match Dict.get? name record.1 with
  | none => some missing
  | some m => read? m record.2

def readJson? (m : Markup) (room : Nat) : Option Json := m.json? dialect.value? room

def readFieldList? (m : Markup) (room : Nat) : Option FieldList :=
  (readJson? dialect m room).bind FieldList.ofJson?

def readDefinition? (m : Markup) (room : Nat) : Option Definition := do
  let record ← readRecord? dialect ["_queryFilter", "_fields", "_sortKeys"] m room
  let filter ← Dict.get? "_queryFilter" record.1
  let filter ← readJson? dialect filter record.2
  let fields ← part? "_fields" none (readOptional? dialect (readFieldList? dialect)) record
  let sortKeys ← part? "_sortKeys" none (readOptional? dialect (readJson? dialect)) record
  some { filter, fields, sortKeys }

def readDefinitions? : Markup → Nat → Option (Dict Definition) :=
  readDict? dialect (readDefinition? dialect)

def readSettings? (m : Markup) (room : Nat) : Option TypeSettings := do
  let record ← readRecord? dialect ["resource", "explicitProperties"] m room
  let resource ← part? "resource" none (readOptional? dialect fun m _ ↦ readText? dialect m) record
  let explicitProperties ← part? "explicitProperties" [] (readTexts? dialect) record
  some { resource, explicitProperties }

def readQuerySections? (m : Markup) (room : Nat) : Option QuerySections := do
  let record ← readRecord? dialect ["generic", "explicit"] m room
  let generic ← part? "generic" none (readOptional? dialect (readDefinitions? dialect)) record
  let explicit ← part? "explicit" none (readOptional? dialect (readDefinitions? dialect)) record
  some { generic, explicit }

def readTypeSections? (m : Markup) (room : Nat) : Option TypeSections := do
  let record ← readRecord? dialect ["defaultMapping", "genericMapping", "explicitMapping"] m room
  let default ← part? "defaultMapping" none (readOptional? dialect (readSettings? dialect)) record
  let generic ← part? "genericMapping" [] (readDict? dialect (readSettings? dialect)) record
  let explicit ← part? "explicitMapping" [] (readDict? dialect (readSettings? dialect)) record
  some { default, generic, explicit }

def ofMarkup? (m : Markup) : Option MappingDocument := do
  let record ← readRecord? dialect ["queries", "commands", "resourceMapping"] m dialect.levels
  let queries ← part? "queries" none (readOptional? dialect (readQuerySections? dialect)) record
  let commands ← part? "commands" [] (readDefinitions? dialect) record
  let types ← part? "resourceMapping" none (readOptional? dialect (readTypeSections? dialect))
    record
  some { queries, commands, types }

def ofMarkup (limits : Limits) (m : Option Markup) : Except MappingError MappingDocument :=
  match m.bind (ofMarkup? dialect) with
  | none => .error (.malformed dialect.name)
  | some d => (d.validate limits).map fun _ ↦ d

end MappingDocument

def jsonDialect : Dialect where
  name := "JSON"
  value? := Json.ofWord?
  wordIsText := false
  blankIsEmpty := false
  levels := Json.maxLevels

def MappingDocument.ofJsonText (limits : Limits) (text : String) :
    Except MappingError MappingDocument :=
  ofMarkup jsonDialect limits (Json.markup? text)

end RecordService
