import RecordService.Connection
import RecordService.Request

namespace RecordService

structure Entry where
  collection : Path
  id : String
  /-- One more than the changes that have been made, which are taken to be fewer than two to the
  power 64. -/
  revision : Nat
  content : Json
deriving DecidableEq

structure Store where
  /-- At most one for each collection and identifier. -/
  entries : List Entry := []
  /-- Requests that have reached the store. -/
  calls : Nat := 0
  /-- Identifiers made so far. -/
  minted : Nat := 0
  /-- The identifier made for the record that comes without one. -/
  mint : Nat → String

def Entry.record (e : Entry) : Record := ⟨e.id, toString e.revision, e.content⟩

def Entry.document (e : Entry) : Json := e.record.json

def Entry.isAt (collection : Path) (id : String) (e : Entry) : Bool :=
  e.id = id && e.collection = collection

namespace Store

def empty (mint : Nat → String) : Store := { mint }

def find? (s : Store) (collection : Path) (id : String) : Option Entry :=
  s.entries.find? (Entry.isAt collection id)

def replace (s : Store) (entry : Entry) : Store :=
  { s with entries := s.entries.map fun e ↦ if e.isAt entry.collection entry.id then entry else e }

def insert (s : Store) (entry : Entry) : Store := { s with entries := s.entries ++ [entry] }

def erase (s : Store) (collection : Path) (id : String) : Store :=
  { s with entries := s.entries.filter fun e ↦ !e.isAt collection id }

def byId (entries : List Entry) : List Entry := entries.mergeSort fun a b ↦ decide (a.id ≤ b.id)

def collection (s : Store) (path : Path) : List Record :=
  (byId (s.entries.filter (·.collection = path))).map Entry.record

def below (s : Store) (base : Path) : List Entry :=
  byId (s.entries.filter (·.collection.startsWith base))

def entryAt (s : Store) (path : Path) : Except Fault Entry := do
  let (collection, id) ← path.instanceParts
  match s.find? collection id with
  | some entry => .ok entry
  | none => .error (objectNotFound id collection)

def checkRevision (expected : Option String) (e : Entry) : Except Fault Unit :=
  match expected with
  | none => .ok ()
  | some revision =>
    if revision = "*" ∨ revision = toString e.revision then .ok ()
    else .error (.preconditionFailed ("Revision " ++ revision ++
      " does not match current revision " ++ toString e.revision ++ " of " ++ e.id))

/-- The identifier of a new record: the one asked for, or the text in its content, or one made for
it. -/
def chooseId (s : Store) (asked : Option String) (content : Json) : String × Store :=
  match asked.or ((content.field? idField).bind Json.str?) with
  | some id => (id, s)
  | none => (s.mint s.minted, { s with minted := s.minted + 1 })

def create (path : Path) (asked : Option String) (content : Json) (s : Store) :
    Except Fault Record × Store :=
  let (id, s) := s.chooseId asked content
  if (s.find? path id).isSome then
    (.error (.conflict ("Object " ++ id ++ " already exists in " ++ path.text)), s)
  else
    let entry : Entry := ⟨path, id, 1, content.withoutEnvelope⟩
    (.ok entry.record, s.insert entry)

def read (path : Path) (fields : List Pointer) (s : Store) : Except Fault Record := do
  let entry ← s.entryAt path
  .ok { entry.record with content := entry.content.select fields }

def revise (entry : Entry) (content : Json) (s : Store) : Record × Store :=
  let entry := { entry with content := content.withoutEnvelope, revision := entry.revision + 1 }
  (entry.record, s.replace entry)

def withEntry (path : Path) (revision : Option String)
    (go : Entry → Store → Except Fault Record × Store) (s : Store) : Except Fault Record × Store :=
  match s.entryAt path with
  | .error fault => (.error fault, s)
  | .ok entry =>
    match checkRevision revision entry with
    | .error fault => (.error fault, s)
    | .ok () => go entry s

def update (path : Path) (revision : Option String) (content : Json) :
    Store → Except Fault Record × Store :=
  withEntry path revision fun entry s ↦
    let (record, s) := s.revise entry content
    (.ok record, s)

/-- The changes are made to a copy of the content, which takes its place once all are made. -/
def patch (path : Path) (revision : Option String) (changes : List Patch.Change) :
    Store → Except Fault Record × Store :=
  withEntry path revision fun entry s ↦
    match Patch.write changes entry.content with
    | (content, .ok ()) =>
      let (record, s) := s.revise entry content
      (.ok record, s)
    | (_, .error fault) => (.error fault, s)

def delete (path : Path) (revision : Option String) : Store → Except Fault Record × Store :=
  withEntry path revision fun entry s ↦ (.ok entry.record, s.erase entry.collection entry.id)

def action (path : Path) (name : String) (content : Json) (s : Store) : Except Fault Json :=
  if name = "count" then .ok (.record [("count", .int (s.below path).length)])
  else if name = "echo" then .ok content
  else .error (.badRequest ("Unsupported action: " ++ name))

def queryFilter (q : Query) : Except Fault Filter :=
  if q.expression.isSome then .error (.badRequest "Native query expressions are not supported")
  else match q.filter, q.queryId with
    | some filter, _ => .ok filter
    | none, some id => .error (.badRequest ("Unresolved query id: " ++ id))
    | none, none => .ok (.constant true)

def pageBounds (total : Nat) (offset pageSize : Option Int) : Nat × Nat :=
  let start := (offset.getD 0).toNat
  let stop := match pageSize with
    | some size => if 0 < size then min (start + size.toNat) total else total
    | none => total
  (start, stop)

def pageProgress (total stop : Nat) (pageSize : Option Int) : Progress :=
  match pageSize.filter (0 < ·) with
  | some _ =>
    { cookie := if stop < total then some (toString stop) else none, total,
      remaining := (total - stop : Nat) }
  | none => { total }

def query (accepts : Consumer) (q : Query) (s : Store) : Except Fault Page := do
  let filter ← queryFilter q
  let found := (s.below q.path).filter fun e ↦ filter.matches e.document
  let sorted := if q.sortKeys.isEmpty then found else Sorting.sortBy Entry.document q.sortKeys found
  let (start, stop) := pageBounds sorted.length q.offset q.pageSize
  let records := ((sorted.take stop).drop start).map fun e ↦
    { e.record with content := e.content.select q.fields }
  let page : Page := ⟨records, pageProgress sorted.length stop q.pageSize⟩
  .ok (page.takenBy accepts)

/-- The reply to a request, and the store that it leaves behind also where it is refused. -/
def run (accepts : Consumer) : (r : Request) → Store → Except Fault r.Reply × Store
  | .create path id content, s => s.create path id content
  | .read path fields, s => (s.read path fields, s)
  | .update path revision content, s => s.update path revision content
  | .patch path revision changes, s => s.patch path revision changes
  | .delete path revision, s => s.delete path revision
  | .action path name content _, s => (s.action path name content, s)
  | .query q, s => (s.query accepts q, s)

def checkConnection : Option Connection → Except Fault Unit
  | none => .error (.internal "No backend connection bound to request context")
  | some c =>
    if c.closed then .error (.internal ("Backend connection " ++ c.id ++ " is closed")) else .ok ()

def counted (s : Store) : Store := { s with calls := s.calls + 1 }

/-- A call over a connection, for a consumer of what a query finds. Every call counts, also one that
is not let in. -/
def performFor (accepts : Consumer) (connection : Option Connection) (r : Request) (s : Store) :
    Except Fault r.Reply × Store :=
  match checkConnection connection with
  | .ok () => s.counted.run accepts r
  | .error fault => (.error fault, s.counted)

def perform (connection : Option Connection) (r : Request) (s : Store) :
    Except Fault r.Reply × Store :=
  s.performFor .all connection r

end Store

end RecordService
