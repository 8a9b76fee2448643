import RecordService.Json.Reader
import RecordService.Request
import RecordService.Text.Utf8

namespace RecordService.Http

def isQuery (parameters : Dict String) : Bool :=
  ["_queryId", "_queryFilter", "_queryExpression"].any fun name ↦ Dict.contains name parameters

def integer (name value : String) : Except Fault Int :=
  match Text.signed? (Text.maxOfBits 31) (Text.trim value.toList) with
  | some n => .ok n
  | none => .error (.badRequest (name ++ " must be an integer, got '" ++ value ++ "'"))

/-- One parameter of a query. Names without a meaning of their own are for named queries. -/
def setParameter (depth : Nat) (q : Query) (parameter : String × String) : Except Fault Query :=
  let (name, value) := parameter
  if name = "_queryId" then .ok { q with queryId := some value }
  else if name = "_queryFilter" then
    (orBadRequest (Where.filterOfText depth value)).map fun f ↦ { q with filter := some f }
  else if name = "_queryExpression" then .ok { q with expression := some value }
  else if name = "_fields" then .ok { q with fields := Pointer.listOfText value }
  else if name = "_sortKeys" then
    (orBadRequest (Sorting.ofText value)).map fun keys ↦ { q with sortKeys := keys }
  else if name = "_pageSize" then (integer name value).map fun n ↦ { q with pageSize := some n }
  else if name = "_pagedResultsOffset" then
    (integer name value).map fun n ↦ { q with offset := some n }
  else .ok { q with parameters := Dict.insert name value q.parameters }

def queryOf (depth : Nat) (path : Path) (parameters : Dict String) : Except Fault Query :=
  parameters.foldlM (setParameter depth) { path }

def isBlankOctet (b : UInt8) : Bool := b = 32 || b = 9 || b = 10 || b = 12 || b = 13

def bodyJson (body : List UInt8) : Except Fault Json :=
  if body.all isBlankOctet then .ok .null
  else match (Text.Utf8.decode? body).bind Json.ofText? with
    | some v => .ok v
    | none => .error (.badRequest "Invalid JSON body: malformed text")

def changesOf (body : Json) : Except Fault (List Patch.Change) :=
  match Patch.ofJson? body with
  | some changes => .ok changes
  | none => .error (.badRequest "Invalid patch operations: not a list of operations")

def resultJson (results : List Json) (progress : Progress) : Json :=
  .record [("result", .arr results), ("resultCount", .int results.length),
    ("pagedResultsCookie", Json.ofOption (progress.cookie.map .str)),
    ("totalPagedResults", .int progress.total), ("remainingPagedResults", .int progress.remaining)]

def pageJson (page : Page) : Json := resultJson (page.records.map Record.json) page.progress

end RecordService.Http
