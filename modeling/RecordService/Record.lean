import RecordService.Pointer

namespace RecordService

def idField : String := "_id"

def revisionField : String := "_rev"

structure Record where
  id : String
  revision : String
  content : Json
deriving DecidableEq, Inhabited

/-- Where a query stands after a page. Counts are `-1` when they are not known. -/
structure Progress where
  /-- The offset of the next page, if there is one. -/
  cookie : Option String := none
  total : Int := -1
  remaining : Int := -1
deriving DecidableEq, Repr

/-- What a query comes to: the records that its consumer received, and its progress. -/
structure Page where
  records : List Record
  progress : Progress

/-- Whether a consumer of records wants another one, asked after each with all that it has received,
the newest last. -/
abbrev Consumer := List Record → Bool

namespace Consumer

def all : Consumer := fun _ ↦ true

def first : Consumer := fun _ ↦ false

def through (change : Record → Record) (accepts : Consumer) : Consumer :=
  fun received ↦ accepts (received.map change)

end Consumer

namespace Json

def inEnvelope (id revision : Option String) : Json → Json
  | .obj fields =>
    let set (key : String) (value : Option String) (d : Dict Json) : Dict Json :=
      match value with
      | some s => Dict.insert key (.str s) d
      | none => d
    .obj (set idField id (set revisionField revision fields))
  | v => v

def withoutEnvelope : Json → Json
  | .obj fields => .obj (Dict.erase revisionField (Dict.erase idField fields))
  | v => v

/-- The parts of the content that the fields lead to, put together in one object. No fields, or the
root among them, select everything; identifier and revision belong to the envelope and are
skipped. -/
def select (content : Json) (fields : List Pointer) : Json :=
  if fields.isEmpty || fields.any Pointer.isRoot then content
  else fields.foldl (fun selected field ↦
    if field.first? = some idField || field.first? = some revisionField then selected
    else match field.get? content with
      | some v => (field.write selected v).1
      | none => selected) (.obj [])

end Json

namespace Record

def json (r : Record) : Json := r.content.inEnvelope (some r.id) (some r.revision)

end Record

namespace Page

def offer (accepts : Consumer) (received : List Record) : List Record → List Record
  | [] => received
  | r :: rs =>
    let received := received ++ [r]
    if accepts received then offer accepts received rs else received

def deliver (accepts : Consumer) (p : Page) : List Record := offer accepts [] p.records

def takenBy (accepts : Consumer) (p : Page) : Page := { p with records := p.deliver accepts }

def map (f : Record → Record) (p : Page) : Page := { p with records := p.records.map f }

end Page

end RecordService
