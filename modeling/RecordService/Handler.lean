import RecordService.Catalog
import RecordService.Handler.Generic
import RecordService.Plan

namespace RecordService

inductive HandlerKind where
  | explicit
  /-- With the fields that records keep at the top. -/
  | generic (explicitFields : List String)
deriving DecidableEq, Repr

structure Handler where
  kind : HandlerKind
  /-- The collection that the handler keeps everything in or below. -/
  resource : Path
  catalog : Catalog
  limits : Limits

namespace HandlerKind

def name : HandlerKind → String
  | .explicit => "explicit"
  | .generic _ => "generic"

def isGeneric : HandlerKind → Bool
  | .explicit => false
  | .generic _ => true

end HandlerKind

namespace Handler

def text (h : Handler) : String := "TypeHandler::" ++ h.kind.name ++ "(" ++ h.resource.text ++ ")"

def deleteAll (collection : Path) : List String → Nat → Plan Nat
  | [], count => pure count
  | id :: ids, count => do
    match ← Plan.attempt (.delete (collection.child id) none) with
    | .ok _ => deleteAll collection ids (count + 1)
    | .error fault => if fault.isNotFound then deleteAll collection ids count else Plan.fail fault

def deleteMatching (collection : Path) (filter : Filter) : Plan Json := do
  let page ← Plan.ask (.query { path := collection, filter := some filter })
  let count ← deleteAll collection (page.records.map (·.id)) 0
  return .record [("count", .int count)]

def requireObject (path : Path) (content : Json) : Except Fault Unit :=
  if content.isObject then .ok ()
  else .error (.badRequest ("Content for '" ++ path.text ++ "' must be a JSON object"))

section Explicit

def explicitInstance (h : Handler) (path : Path) : Except Fault Path :=
  match path.segments with
  | _ :: _ :: _ => match path.leaf? with
    | some id => .ok (h.resource.child id)
    | none => .error (expectedInstance path)
  | _ => .error (expectedInstance path)

def explicitPlan (h : Handler) (accepts : Consumer) : (r : Request) → Plan r.Reply
  | .create _ id content => Plan.ask (.create h.resource id content)
  | .read path fields => do
    let path ← Plan.lift (h.explicitInstance path)
    Plan.ask (.read path fields)
  | .update path revision content => do
    let path ← Plan.lift (h.explicitInstance path)
    Plan.ask (.update path revision content)
  | .patch path revision changes => do
    let path ← Plan.lift (h.explicitInstance path)
    Plan.ask (.patch path revision changes)
  | .delete path revision => do
    let path ← Plan.lift (h.explicitInstance path)
    Plan.ask (.delete path revision)
  | .action _ name content parameters =>
    if name = Catalog.commandAction then do
      let filter ← Plan.lift (h.catalog.resolveCommand h.limits parameters)
      deleteMatching h.resource filter
    else Plan.ask (.action h.resource name content parameters)
  | .query q => do
    let q ← Plan.lift (h.catalog.resolveQuery h.limits q)
    Plan.askFor accepts (.query { q with path := h.resource })

end Explicit

section Generic

def typeCollection (h : Handler) (type : Path) : Path := h.resource ++ type

def genericInstance (h : Handler) (path : Path) : Except Fault (Path × Path) := do
  let (type, id) ← path.instanceParts
  .ok (type, (h.typeCollection type).child id)

def unwrapped (explicit : List String) (r : Record) : Record :=
  { r with content := Generic.unwrap explicit r.content }

def genericPlan (h : Handler) (explicit : List String) (accepts : Consumer) :
    (r : Request) → Plan r.Reply
  | .create path id content => do
    Plan.lift (requireObject path content)
    let record ← Plan.ask (.create (h.typeCollection path) id (Generic.wrap explicit path content))
    return unwrapped explicit record
  | .read path fields => do
    let (type, id) ← Plan.lift path.instanceParts
    let filter := Filter.all [Filter.fieldIs idField id, Generic.ofType type]
    let page ← Plan.askFor .first (.query
      { path := h.resource, filter := some filter,
        fields := fields.map (Generic.moveField explicit) })
    match page.records with
    | record :: _ => return unwrapped explicit record
    | [] => Plan.fail (objectNotFound id type)
  | .update path revision content => do
    Plan.lift (requireObject path content)
    let (type, target) ← Plan.lift (h.genericInstance path)
    let record ← Plan.ask (.update target revision (Generic.wrap explicit type content))
    return unwrapped explicit record
  | .patch path revision changes => do
    let (_, target) ← Plan.lift (h.genericInstance path)
    let moved := changes.map fun c ↦ { c with field := Generic.moveField explicit c.field }
    let record ← Plan.ask (.patch target revision moved)
    return unwrapped explicit record
  | .delete path revision => do
    let (_, target) ← Plan.lift (h.genericInstance path)
    let record ← Plan.ask (.delete target revision)
    return unwrapped explicit record
  | .action path name content parameters =>
    if name = Catalog.commandAction then do
      let filter ← Plan.lift (h.catalog.resolveCommand h.limits parameters)
      deleteMatching (h.typeCollection path) (Generic.restrict explicit path (some filter))
    else do
      let answer ← Plan.ask (.action (h.typeCollection path) name content parameters)
      return if Generic.looksWrapped answer then Generic.unwrap explicit answer else answer
  | .query q => do
    let resolved ← Plan.lift (h.catalog.resolveQuery h.limits q)
    let page ← Plan.askFor (accepts.through (unwrapped explicit)) (.query
      { resolved with
        path := h.resource
        queryId := none
        filter := some (Generic.restrict explicit q.path resolved.filter)
        fields := resolved.fields.map (Generic.moveField explicit)
        sortKeys := Generic.moveKeys explicit resolved.sortKeys })
    return page.map (unwrapped explicit)

end Generic

/-- What a request on this handler's types does with the store, for a consumer of what a query
finds. -/
def planFor (h : Handler) (accepts : Consumer) (r : Request) : Plan r.Reply :=
  match h.kind with
  | .explicit => h.explicitPlan accepts r
  | .generic explicit => h.genericPlan explicit accepts r

def plan (h : Handler) (r : Request) : Plan r.Reply := h.planFor .all r

end Handler

end RecordService
