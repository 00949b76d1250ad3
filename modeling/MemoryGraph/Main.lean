-- SUMMARY: The program: options, settings, and a server on the standard streams.
import MemoryGraph.CommandLine
import MemoryGraph.Record.Moment
import MemoryGraph.Server.Message
import MemoryGraph.Settings
import MemoryGraph.StoreFile.Opening
import Std.Time

/-!
# The program

The program reads its options and settings and then answers the lines of the
standard input until that ends. The store lives as long as the program does, and
no embedding service is asked.
-/
namespace MemoryGraph

/-- What is printed for those who ask for help. -/
def usage : String :=
  "\n".intercalate
    ["Usage: graph-memory-mcp [OPTIONS]", "",
     "Options:",
     "      --db <PATH>       Database file (must end in .db); overrides the config file",
     "      --config <PATH>   Config file",
     "  -s, --stream          Enable streamable HTTP mode (default: stdio)",
     "  -p, --port <PORT>     HTTP port for stream mode [default: 8000]",
     "  -b, --bind <BIND>     Bind address for stream mode [default: 127.0.0.1]",
     "  -l, --log [<FILE>]    Enable file logging",
     "  -h, --help            Print help",
     "  -V, --version         Print version"]

/-- The variables that settings are read from. -/
def settingsKeys : List String :=
  [dbPathKey, endpointKey, modelKey, apiKeyKey, fallbackApiKey, timeoutKey, searchLimitKey,
    importModeKey]

/-- The moment of the clock. -/
def clock : IO Timestamp := do
  let moment ← Std.Time.Timestamp.now
  return .ofNanoseconds moment.toNanosecondsSinceUnixEpoch.val.toNat

/-- What is found at the path of a file. -/
def lookAt (path : String) : IO FileContent := do
  try
    return .ofBytes (← IO.FS.readBinFile path)
  catch
    | .noFileOrDirectory .. => return .absent
    | _ => return .unreadable

/-- The settings of the environment and of the configuration file. -/
def loadSettings (config : Option String) : IO (Except SettingsError Settings) := do
  let environment ← settingsKeys.filterMapM fun key => do
    return (← IO.getEnv key).map (key, ·)
  let path := config.getD ((← IO.appPath).toString ++ ".toml")
  return Settings.load (fun key => environment.lookup key) path config.isSome (← lookAt path)

/-- Answer lines until there are no more. -/
partial def serveLines (server : Server) (input output : IO.FS.Stream) (s : Store) : IO Unit := do
  let line ← input.getLine
  if line.isEmpty then return
  if Text.allBlank line then serveLines server input output s
  else
    let (answer, s) := server.receive (← clock) line s
    if let some answer := answer then
      output.putStrLn answer.compact
      output.flush
    serveLines server input output s

/-- Print a message for the one who started the program, and fail. -/
def fail (message : String) : IO UInt32 := do
  IO.eprintln message
  return 1

/-- Serve with the given options. -/
def start (options : Options) : IO UInt32 := do
  if options.stream then return ← fail "Only the standard streams are served"
  match ← loadSettings options.config with
  | .error e => fail e.message
  | .ok settings =>
    match recordCountsAt [] (options.db.getD settings.dbPath) with
    | .error e => fail e.message
    | .ok _ =>
      let server : Server :=
        { embedder := settings.embedder fun _ => none
          searchLimit := settings.searchLimit
          importMode := settings.importMode }
      serveLines server (← IO.getStdin) (← IO.getStdout) .empty
      return 0

end MemoryGraph

def main (words : List String) : IO UInt32 := do
  match MemoryGraph.Options.read words with
  | .error .help => IO.println MemoryGraph.usage; return 0
  | .error .version =>
    IO.println (MemoryGraph.serverName ++ " " ++ MemoryGraph.serverVersion)
    return 0
  | .error .usage => IO.eprintln MemoryGraph.usage; return 2
  | .ok options => MemoryGraph.start options
