import RecordService.Http
import RecordService.Mapping.Formats
import RecordService.Settings

namespace RecordService

structure Options where
  configDir : Option String := none
  repoType : Option String := none
  listenPort : Option Nat := none
deriving DecidableEq, Repr

namespace Options

def set (name value : String) (o : Options) : Except String Options :=
  if name = "--config-dir" then .ok { o with configDir := some value }
  else if name = "--repo-type" then .ok { o with repoType := some value }
  else if name = "--port" then
    match Text.unsigned? (Text.maxOfBits 16) value.toList with
    | some n => .ok { o with listenPort := some n }
    | none => .error ("invalid port '" ++ value ++ "'")
  else .error ("unknown option '" ++ name ++ "'")

/-- Options as `--name value` or `--name=value`. -/
def ofArgumentsFrom (o : Options) : List String → Except String Options
  | [] => .ok o
  | argument :: rest =>
    match Text.cut '=' argument.toList, rest with
    | some (name, value), rest => do
      let o ← o.set (String.ofList name) (String.ofList value)
      ofArgumentsFrom o rest
    | none, value :: rest => do
      let o ← o.set argument value
      ofArgumentsFrom o rest
    | none, [] => .error ("a value is required for '" ++ argument ++ "'")

def ofArguments (arguments : List String) : Except String Options := ofArgumentsFrom {} arguments

def apply (o : Options) (s : Settings) : Settings :=
  { s with
    configDir := o.configDir.getD s.configDir
    repoType := o.repoType.getD s.repoType
    listenPort := o.listenPort.getD s.listenPort }

end Options

def Settings.limits (s : Settings) : Limits :=
  { depth := s.maxNestedDepth, pageSize := s.maxPageSize }

def Service.start (s : Settings) (d : Directory) (mint : Nat → String) : Except String Service :=
  match (Bootstrap.Loader.load (formats s.limits) d s.repoType {}).1 with
  | .error e => .error e.message
  | .ok none =>
    .error ("no repository configuration for '" ++ s.repoType ++ "' in " ++ s.configDir)
  | .ok (some document) =>
    match Routes.ofDocument s.limits s.resolutionLimit document with
    | .error e => .error e.message
    | .ok routes => .ok { routes, store := .empty mint }

namespace Http

def Call.ofJson? (j : Json) : Option Call := do
  let method ← (j.field? "method").bind Json.str?
  let target ← (j.field? "uri").bind Json.str?
  let headers := match j.field? "headers" with
    | some (.obj fields) => fields.filterMap fun p ↦ p.2.str?.map (p.1, ·)
    | _ => []
  let body := ((j.field? "body").map Json.text).getD ""
  some { method, target, headers, body := Text.Utf8.encode body }

def Answer.json (a : Answer) : Json :=
  .record [("status", .int a.status), ("body", Json.ofOption a.body)]

def answerLine (settings : Settings) (line : String) (s : Service) : String × Service :=
  match (Json.ofText? line).bind Call.ofJson? with
  | some call =>
    let (a, s) := answer settings.enableCors settings.maxNestedDepth call s
    (a.json.text, s)
  | none => ((Answer.ofFault (.badRequest "Not a call")).json.text, s)

end Http

end RecordService
