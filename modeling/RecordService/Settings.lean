import RecordService.Json
import RecordService.Text.Integer

namespace RecordService

inductive Environment where
  | development
  | staging
  | production
deriving DecidableEq, Repr

def Environment.name : Environment → String
  | .development => "Development"
  | .staging => "Staging"
  | .production => "Production"

def Environment.ofVariable : Option String → Environment
  | some "production" | some "prod" => .production
  | some "staging" | some "stage" => .staging
  | _ => .development

structure Settings where
  environment : Environment
  configDir : String
  repoType : String
  /-- How many resolved type paths are remembered. -/
  resolutionLimit : Nat
  maxPageSize : Int
  maxNestedDepth : Nat
  listenPort : Nat
  enableCors : Bool
  enableRequestLogging : Bool
deriving DecidableEq, Repr

namespace Settings

def default : Environment → Settings
  | .development =>
    { environment := .development, configDir := "conf", repoType := "memory",
      resolutionLimit := 10000,
      maxPageSize := 1000, maxNestedDepth := 10, listenPort := 8080, enableCors := true,
      enableRequestLogging := true }
  | .staging =>
    { environment := .staging, configDir := "conf", repoType := "memory", resolutionLimit := 50000,
      maxPageSize := 500, maxNestedDepth := 8, listenPort := 8080, enableCors := true,
      enableRequestLogging := true }
  | .production =>
    { environment := .production, configDir := "/etc/directory-repo", repoType := "memory",
      resolutionLimit := 100000, maxPageSize := 100, maxNestedDepth := 6, listenPort := 8080,
      enableCors := false, enableRequestLogging := false }

def bool? (text : String) : Option Bool :=
  if text = "true" then some true else if text = "false" then some false else none

/-- A variable that does not read as a value leaves the setting as it is. -/
def override {α : Type} (values : String → Option String) (name : String)
    (read? : String → Option α) (value : α) : α :=
  ((values name).bind read?).getD value

def ofVariables (values : String → Option String) : Settings :=
  let unsigned (bits : Nat) (text : String) := Text.unsigned? (Text.maxOfBits bits) text.toList
  let signed (bits : Nat) (text : String) := Text.signed? (Text.maxOfBits (bits - 1)) text.toList
  let s := default (.ofVariable (values "APP_ENV"))
  { s with
    configDir := override values "REPO_CONFIG_DIR" some s.configDir
    repoType := override values "REPO_TYPE" some s.repoType
    resolutionLimit := override values "REPO_RESOLUTION_CACHE_LIMIT" (unsigned 64) s.resolutionLimit
    maxPageSize := override values "REPO_MAX_PAGE_SIZE" (signed 32) s.maxPageSize
    maxNestedDepth := override values "FILTER_MAX_NESTED_DEPTH" (unsigned 32) s.maxNestedDepth
    listenPort := override values "REPO_PORT" (unsigned 16) s.listenPort
    enableCors := override values "SERVER_ENABLE_CORS" bool? s.enableCors
    enableRequestLogging :=
      override values "SERVER_ENABLE_REQUEST_LOGGING" bool? s.enableRequestLogging }

def json (s : Settings) : Json :=
  .record [("environment", .str s.environment.name),
    ("repository", .record [("config_dir", .str s.configDir), ("repo_type", .str s.repoType),
      ("resolution_cache_limit", .int s.resolutionLimit), ("max_page_size", .int s.maxPageSize)]),
    ("filter", .record [("max_nested_depth", .int s.maxNestedDepth)]),
    ("server", .record [("port", .int s.listenPort), ("enable_cors", .bool s.enableCors),
      ("enable_request_logging", .bool s.enableRequestLogging)])]

end Settings

end RecordService
