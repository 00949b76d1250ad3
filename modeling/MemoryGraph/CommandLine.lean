-- SUMMARY: The options of the command line.
import MemoryGraph.Number.Numeral

/-!
# Command line

Options are read from the left. A long option takes its value behind an equals
sign or from the next word, a short one also from the rest of its own word; a
word that looks like an option is never taken as a value. Flags may share a
word. The first thing that goes wrong, or asks for help or the version, ends the
reading.
-/
namespace MemoryGraph

/-- The options of the server. -/
structure Options where
  db : Option String := none
  config : Option String := none
  stream : Bool := false
  port : Nat := 8000
  bind : String := "127.0.0.1"
  log : Option String := none
  deriving DecidableEq, Repr

/-- Why the options are not to be followed. -/
inductive OptionsEnd where
  | usage
  | help
  | version
  deriving DecidableEq, Repr

namespace Options

/-- An option that takes a value. -/
inductive Valued where
  | db
  | config
  | port
  | bind
  | log
  deriving DecidableEq, Repr

/-- An option that takes no value. -/
inductive Flag where
  | stream
  | help
  | version
  deriving DecidableEq, Repr

/-- An option of either kind. -/
inductive Name where
  | valued (option : Valued)
  | flag (flag : Flag)
  deriving DecidableEq, Repr

/-- The option of a long name. -/
def ofLong? : String → Option Name
  | "db" => some (.valued .db)
  | "config" => some (.valued .config)
  | "port" => some (.valued .port)
  | "bind" => some (.valued .bind)
  | "log" => some (.valued .log)
  | "stream" => some (.flag .stream)
  | "help" => some (.flag .help)
  | "version" => some (.flag .version)
  | _ => none

/-- The option of a letter. -/
def ofShort? : Char → Option Name
  | 'p' => some (.valued .port)
  | 'b' => some (.valued .bind)
  | 'l' => some (.valued .log)
  | 's' => some (.flag .stream)
  | 'h' => some (.flag .help)
  | 'V' => some (.flag .version)
  | _ => none

/-- The file that a log goes to when none is named. -/
def usualLog : String := "graph-memory-mcp.log"

/-- The port that a text names. -/
def portOf? (text : String) : Option Nat :=
  match readNumeral .signed64 text with
  | .ok n => if 0 ≤ n ∧ n ≤ 65535 then some n.toNat else none
  | .error _ => none

/-- The options so far, those that were seen, and one that still waits for its value. -/
structure Reading where
  options : Options := {}
  seen : List Name := []
  pending : Option Valued := none
  /-- Whether all further words are taken as they are. -/
  trailing : Bool := false
  deriving DecidableEq, Repr

namespace Reading

/-- Note that an option was seen, which must not be seen twice. -/
def mark (reading : Reading) (name : Name) : Except OptionsEnd Reading :=
  if reading.seen.contains name then .error .usage
  else .ok { reading with seen := name :: reading.seen }

/-- Set an option to a value. Only the log may do without one; paths are not empty. -/
def assign (reading : Reading) (option : Valued) (value : Option String) :
    Except OptionsEnd Reading := do
  if value.isNone ∧ option ≠ .log then throw .usage
  let reading ← reading.mark (.valued option)
  let text := value.getD usualLog
  let options ← match option with
    | .db => if text.isEmpty then throw .usage else pure { reading.options with db := some text }
    | .config =>
      if text.isEmpty then throw .usage else pure { reading.options with config := some text }
    | .port =>
      match portOf? text with
      | some port => pure { reading.options with port }
      | none => throw .usage
    | .bind => pure { reading.options with bind := text }
    | .log => pure { reading.options with log := some text }
  return { reading with options }

/-- Settle the option that waits for its value. -/
def settle (reading : Reading) (value : Option String) : Except OptionsEnd Reading :=
  match reading.pending with
  | none => .ok reading
  | some option => { reading with pending := none }.assign option value

/-- A flag. -/
def raise (reading : Reading) (flag : Flag) : Except OptionsEnd Reading := do
  let reading ← reading.settle none
  match flag with
  | .help => throw .help
  | .version => throw .version
  | .stream =>
    let reading ← reading.mark (.flag .stream)
    return { reading with options := { reading.options with stream := true } }

/-- An option with the value attached to it, if there is one. -/
def take (reading : Reading) (option : Valued) (attached : Option String) :
    Except OptionsEnd Reading := do
  let reading ← reading.settle none
  match attached with
  | some value => reading.assign option (some value)
  | none => return { reading with pending := some option }

/-- A word that starts with two dashes, without them. -/
def readLong (reading : Reading) (word : List Char) : Except OptionsEnd Reading :=
  let name := String.ofList (word.takeWhile (· ≠ '='))
  let attached := match word.dropWhile (· ≠ '=') with
    | [] => none
    | _ :: value => some (String.ofList value)
  match ofLong? name, attached with
  | some (.valued option), attached => reading.take option attached
  | some (.flag flag), none => reading.raise flag
  | _, _ => .error .usage

/-- A word that starts with one dash, without it: flags, then perhaps an option with its value. -/
def readShort (reading : Reading) : List Char → Except OptionsEnd Reading
  | [] => .ok reading
  | c :: rest =>
    match ofShort? c with
    | none => .error .usage
    | some (.flag flag) => do readShort (← reading.raise flag) rest
    | some (.valued option) =>
      match rest with
      | [] => reading.take option none
      | '=' :: value => reading.take option (some (String.ofList value))
      | value => reading.take option (some (String.ofList value))

/-- One word of the command line. -/
def readWord (reading : Reading) (word : String) : Except OptionsEnd Reading :=
  if reading.trailing then .error .usage
  else match word.toList with
    | ['-', '-'] => .ok { reading with trailing := true }
    | '-' :: '-' :: rest => reading.readLong rest
    | '-' :: c :: rest => reading.readShort (c :: rest)
    | _ => if reading.pending.isSome then reading.settle (some word) else .error .usage

end Reading

/-- The options of the words behind the name of the program. -/
def read (words : List String) : Except OptionsEnd Options := do
  let reading ← words.foldlM Reading.readWord {}
  let reading ← reading.settle none
  return reading.options

end Options
end MemoryGraph
