-- SUMMARY: The settings of the server and the layers they are resolved from.
import MemoryGraph.Embedding.Service
import MemoryGraph.Import.Mode
import MemoryGraph.Toml.Reader

/-!
# Settings

Settings start from their defaults; environment variables override these, and a
configuration file overrides both. A variable that is blank or cannot be read is
passed over, and so is the whole file when it is no TOML or one of its known
keys has a value of another type.
-/
namespace MemoryGraph

open Text

/-- The settings of the server. -/
structure Settings where
  dbPath : String := "graph-memory.db"
  embeddingEndpoint : Option String := none
  embeddingModel : String := "text-embedding-3-small"
  embeddingApiKey : Option String := none
  embeddingTimeoutSeconds : Nat := 30
  searchLimit : Nat := 20
  importMode : ImportMode := .bestEffort
  deriving DecidableEq, Repr

/-- The variables of an environment. -/
abbrev Environment := String → Option String

/-- A text that is not blank. -/
def usable (text : Option String) : Option String := text.filter (fun t => !allBlank t)

/-- A natural number of 64 bits, blanks around it apart. -/
def naturalOfText? (text : String) : Option Nat :=
  (readNumeral .unsigned64 (trim text)).toOption.map Int.toNat

/-! ## Keys -/

def dbPathKey : String := "GRAPH_MEMORY_DB_PATH"
def endpointKey : String := "GRAPH_MEMORY_EMBEDDING_ENDPOINT"
def modelKey : String := "GRAPH_MEMORY_EMBEDDING_MODEL"
def apiKeyKey : String := "GRAPH_MEMORY_EMBEDDING_API_KEY"
def timeoutKey : String := "GRAPH_MEMORY_EMBEDDING_TIMEOUT_SECS"
def searchLimitKey : String := "GRAPH_MEMORY_SEARCH_LIMIT"
def importModeKey : String := "GRAPH_MEMORY_IMPORT_MODE"

/-- The variable that stands in for a missing API key. -/
def fallbackApiKey : String := "OPENAI_API_KEY"

/-! ## Layers -/

/-- Override settings by environment variables. -/
def Settings.withEnvironment (settings : Settings) (env : Environment) : Settings :=
  let settings := match usable (env dbPathKey) with
    | some path => { settings with dbPath := path }
    | none => settings
  let settings := match env endpointKey with
    | some endpoint => { settings with embeddingEndpoint := usable (some endpoint) }
    | none => settings
  let settings := match usable (env modelKey) with
    | some model => { settings with embeddingModel := model }
    | none => settings
  let settings := match usable (env apiKeyKey) with
    | some key => { settings with embeddingApiKey := some key }
    | none => settings
  let settings := match settings.embeddingApiKey, usable (env fallbackApiKey) with
    | none, some key => { settings with embeddingApiKey := some key }
    | _, _ => settings
  let settings := match (env timeoutKey).bind naturalOfText? with
    | some seconds => { settings with embeddingTimeoutSeconds := seconds }
    | none => settings
  let settings := match (env searchLimitKey).bind naturalOfText? with
    | some limit => { settings with searchLimit := limit }
    | none => settings
  match (env importModeKey).bind (fun text => (ImportMode.parse text).toOption) with
  | some mode => { settings with importMode := mode }
  | none => settings

/-- The settings that a configuration file gives. -/
structure FileSettings where
  dbPath : Option String
  embeddingEndpoint : Option String
  embeddingModel : Option String
  embeddingApiKey : Option String
  embeddingTimeoutSeconds : Option Nat
  searchLimit : Option Nat
  importMode : Option String
  deriving DecidableEq, Repr

namespace FileSettings

/-- The value of a key that may be absent but must be a text; a moment counts as the text of its
usual form. -/
def text? (entries : List (String × Toml)) (key : String) : Option (Option String) :=
  match entries.lookup key with
  | none => some none
  | some (.string s) | some (.moment s) => some (some s)
  | some _ => none

/-- The value of a key that may be absent but must be a natural number. -/
def natural? (entries : List (String × Toml)) (key : String) : Option (Option Nat) :=
  match entries.lookup key with
  | none => some none
  | some (.integer n) => if 0 ≤ n then some (some n.toNat) else none
  | some _ => none

/-- The settings of the entries of a file; unknown keys are passed over. -/
def ofEntries? (entries : List (String × Toml)) : Option FileSettings := do
  return {
    dbPath := ← text? entries dbPathKey
    embeddingEndpoint := ← text? entries endpointKey
    embeddingModel := ← text? entries modelKey
    embeddingApiKey := ← text? entries apiKeyKey
    embeddingTimeoutSeconds := ← natural? entries timeoutKey
    searchLimit := ← natural? entries searchLimitKey
    importMode := ← text? entries importModeKey }

/-- The settings of the text of a file, when it has any to give. -/
def ofText? (text : String) : Option FileSettings :=
  if allBlank text then none else (Toml.read? text).bind ofEntries?

end FileSettings

/-- Override settings by those of a file. -/
def Settings.withFile (settings : Settings) (file : FileSettings) : Settings :=
  let settings := match file.dbPath with
    | some path => { settings with dbPath := path }
    | none => settings
  let settings := match file.embeddingEndpoint with
    | some endpoint => { settings with embeddingEndpoint := usable (some endpoint) }
    | none => settings
  let settings := match file.embeddingModel with
    | some model => { settings with embeddingModel := model }
    | none => settings
  let settings := match file.embeddingApiKey with
    | some key => { settings with embeddingApiKey := usable (some key) }
    | none => settings
  let settings := match file.embeddingTimeoutSeconds with
    | some seconds => { settings with embeddingTimeoutSeconds := seconds }
    | none => settings
  let settings := match file.searchLimit with
    | some limit => { settings with searchLimit := limit }
    | none => settings
  match file.importMode.bind (fun text => (ImportMode.parse text).toOption) with
  | some mode => { settings with importMode := mode }
  | none => settings

/-! ## Loading -/

/-- What is found at the path of a configuration file. -/
inductive FileContent where
  | absent
  /-- Bytes that are no text. -/
  | unreadable
  | text (content : String)
  deriving DecidableEq, Repr

/-- The bytes of a file, read as a text. -/
def FileContent.ofBytes (bytes : ByteArray) : FileContent :=
  match String.fromUTF8? bytes with
  | some content => .text content
  | none => .unreadable

/-- Why settings cannot be loaded. -/
inductive SettingsError where
  | missingFile (path : String)
  | unreadableFile (path : String)
  deriving DecidableEq, Repr

def SettingsError.message : SettingsError → String
  | .missingFile path => s!"Config file {path} does not exist"
  | .unreadableFile path => s!"Failed to read config {path}"

namespace Settings

/-- The settings of an environment and the text of a file. -/
def ofText (env : Environment) (text : String) : Settings :=
  let settings := ({} : Settings).withEnvironment env
  match FileSettings.ofText? text with
  | some file => settings.withFile file
  | none => settings

/-- Resolve the settings. A file that was asked for by its path must be there. -/
def load (env : Environment) (path : String) (isExplicit : Bool) (file : FileContent) :
    Except SettingsError Settings :=
  match file with
  | .absent =>
    if isExplicit then .error (.missingFile path) else .ok (({} : Settings).withEnvironment env)
  | .unreadable => .error (.unreadableFile path)
  | .text content => .ok (ofText env content)

/-- Whether there is a service that answers texts with vectors. -/
def usesEmbeddings (settings : Settings) : Bool := settings.embeddingEndpoint.isSome

/-- The service that the settings name. -/
def service? (settings : Settings) : Option EmbeddingService :=
  settings.embeddingEndpoint.map fun endpoint =>
    { endpoint, model := settings.embeddingModel, apiKey := settings.embeddingApiKey
      timeoutSeconds := settings.embeddingTimeoutSeconds }

/-- The embedder that the settings call for. -/
def embedder (settings : Settings) (send : Transport) : Embedder :=
  match settings.service? with
  | some service => service.embedder send
  | none => .disabled

end Settings
end MemoryGraph
