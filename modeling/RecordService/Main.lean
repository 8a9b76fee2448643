import RecordService.CommandLine

namespace RecordService.Main

def settingNames : List String :=
  ["APP_ENV", "REPO_CONFIG_DIR", "REPO_TYPE", "REPO_RESOLUTION_CACHE_LIMIT", "REPO_MAX_PAGE_SIZE",
    "FILTER_MAX_NESTED_DEPTH", "REPO_PORT", "SERVER_ENABLE_CORS", "SERVER_ENABLE_REQUEST_LOGGING"]

def readEnvironment : IO (Dict String) := do
  let mut found : Dict String := []
  for name in settingNames do
    if let some value ← IO.getEnv name then found := Dict.insert name value found
  return found

def readDirectory (path repoType : String) : IO Directory := do
  let mut d : Directory := { path }
  for name in Bootstrap.candidates repoType do
    try
      let bytes ← IO.FS.readBinFile (d.pathOf name)
      d := match String.fromUTF8? bytes with
        | some text => d.write name text
        | none => d.writeBinary name
    catch _ => pure ()
  return d

partial def serve (settings : Settings) (input output : IO.FS.Stream) (s : Service) : IO Unit := do
  let line ← input.getLine
  if line.isEmpty then return
  let (answer, s) := Http.answerLine settings line s
  output.putStrLn answer
  output.flush
  serve settings input output s

def run (options : Options) : IO UInt32 := do
  let values ← readEnvironment
  let settings := options.apply (Settings.ofVariables fun name ↦ Dict.get? name values)
  let directory ← readDirectory settings.configDir settings.repoType
  match Service.start settings directory fun n ↦ "record-" ++ toString (n + 1) with
  | .error message =>
    IO.eprintln message
    return 1
  | .ok s =>
    serve settings (← IO.getStdin) (← IO.getStdout) s
    return 0

end RecordService.Main

def main (arguments : List String) : IO UInt32 := do
  match RecordService.Options.ofArguments arguments with
  | .ok options => RecordService.Main.run options
  | .error message =>
    IO.eprintln message
    return 2
