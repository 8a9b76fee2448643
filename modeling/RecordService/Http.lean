import RecordService.Http.Form
import RecordService.Http.Format
import RecordService.Service

namespace RecordService.Http

structure Call where
  method : String
  target : String
  headers : List (String × String) := []
  body : List UInt8 := []

structure Answer where
  status : Nat
  body : Option Json := none

def Answer.ok (body : Json) : Answer := ⟨200, some body⟩

def Answer.ofFault (fault : Fault) : Answer := ⟨fault.httpStatus, some fault.json⟩

def Answer.ofResult : Except Fault Answer → Answer
  | .ok answer => answer
  | .error fault => .ofFault fault

def notFound : Answer := { status := 404 }

def wrongMethod : Answer := { status := 405 }

/-- Printable ASCII and tabs; a header with anything else counts as absent. -/
def isPlain (c : Char) : Bool := (32 ≤ c.toNat && c.toNat < 127) || c = '\t'

def header? (name : String) (call : Call) : Option String :=
  (call.headers.find? fun h ↦ h.1.toList.map Char.toLower = name.toList).bind fun h ↦
    if h.2.toList.all isPlain then some h.2 else none

def contextOf (call : Call) : Context :=
  { caller := header? "x-caller" call, traceId := (header? "x-request-id" call).getD "" }

def revisionOf (call : Call) : Option String :=
  (header? "if-match" call).bind fun value ↦
    let cs := Text.strip (· = '"') (Text.trim value.toList)
    if cs.isEmpty then none else some (String.ofList cs)

def health : Json :=
  .record [("status", .str "ok"), ("name", .str "directory-repo"), ("version", .str "0.1.0")]

section Resource

variable (depth : Nat) (call : Call) (path : Path) (parameters : Dict String)

def get (s : Service) : Answer × Service :=
  if isQuery parameters then
    match queryOf depth path parameters with
    | .error fault => (.ofFault fault, s)
    | .ok q =>
      let (result, s) := s.serve (contextOf call) (.query q)
      (.ofResult (result.map fun page ↦ .ok (pageJson page)), s)
  else
    let fields := ((Dict.get? "_fields" parameters).map Pointer.listOfText).getD []
    let (result, s) := s.serve (contextOf call) (.read path fields)
    (.ofResult (result.map fun record ↦ .ok record.json), s)

def post (s : Service) : Answer × Service :=
  match bodyJson call.body, Dict.get? "_action" parameters with
  | .error fault, _ => (.ofFault fault, s)
  | .ok _, none => (.ofFault (.badRequest "POST requires an _action parameter"), s)
  | .ok content, some action =>
    if action = "create" then
      let id := Dict.get? "_id" parameters
      let (result, s) := s.serve (contextOf call) (.create path id content)
      (.ofResult (result.map fun record ↦ ⟨201, some record.json⟩), s)
    else
      let rest := Dict.erase "_action" parameters
      let (result, s) := s.serve (contextOf call) (.action path action content rest)
      (.ofResult (result.map .ok), s)

def put (s : Service) : Answer × Service :=
  match bodyJson call.body with
  | .error fault => (.ofFault fault, s)
  | .ok content =>
    let (result, s) := s.serve (contextOf call) (.update path (revisionOf call) content)
    (.ofResult (result.map fun record ↦ .ok record.json), s)

def patch (s : Service) : Answer × Service :=
  match bodyJson call.body >>= changesOf with
  | .error fault => (.ofFault fault, s)
  | .ok changes =>
    let (result, s) := s.serve (contextOf call) (.patch path (revisionOf call) changes)
    (.ofResult (result.map fun record ↦ .ok record.json), s)

def delete (s : Service) : Answer × Service :=
  let (result, s) := s.serve (contextOf call) (.delete path (revisionOf call))
  (.ofResult (result.map fun record ↦ .ok record.json), s)

end Resource

def resourcePath? (path : List Char) : Option (List Char) :=
  match path with
  | '/' :: 'r' :: 'e' :: 'p' :: 'o' :: '/' :: c :: cs => some (c :: cs)
  | _ => none

def onResource (depth : Nat) (call : Call) (encoded query : List Char) (s : Service) :
    Answer × Service :=
  if call.method ∈ ["GET", "HEAD", "POST", "PUT", "PATCH", "DELETE"] then
    match decodePath? encoded with
    | none => ({ status := 400 }, s)
    | some text =>
      let path := Path.ofText text
      let given := parameters query
      if call.method = "GET" then get depth call path given s
      else if call.method = "HEAD" then
        let (answer, s) := get depth call path given s
        ({ answer with body := none }, s)
      else if call.method = "POST" then post call path given s
      else if call.method = "PUT" then put call path s
      else if call.method = "PATCH" then patch call path s
      else delete call path s
  else (wrongMethod, s)

def answer (allowCrossOrigin : Bool) (depth : Nat) (call : Call) (s : Service) : Answer × Service :=
  let (path, query) := splitTarget call.target.toList
  if allowCrossOrigin && call.method = "OPTIONS" then ({ status := 200 }, s)
  else if path = "/health".toList then
    if call.method = "GET" then (.ok health, s)
    else if call.method = "HEAD" then ({ status := 200 }, s)
    else (wrongMethod, s)
  else match resourcePath? path with
    | some encoded => onResource depth call encoded query s
    | none => (notFound, s)

end RecordService.Http
