-- SUMMARY: The messages between a client and the server as JSON values.
import MemoryGraph.Server.Session

/-!
# Messages

A message names a method and may carry parameters. One with an id is answered
under the same id, with a result or an error; one without an id is a notice and
gets no answer.
-/
namespace MemoryGraph

/-- A message of a client. -/
structure Message where
  id : Option Json
  method : String
  parameters : Json
  deriving Repr

/-- Why a message gets an error for its answer. -/
inductive MessageError where
  | malformed
  | unknownMethod
  | missingTool
  | call (cause : CallError)
  deriving DecidableEq, Repr

namespace MessageError

def code : MessageError → Int
  | .malformed => -32700
  | .unknownMethod => -32601
  | .missingTool => -32602
  | .call cause => cause.code

def message : MessageError → String
  | .malformed => "parse error"
  | .unknownMethod => "method not found"
  | .missingTool => "tool name is missing"
  | .call cause => cause.message

end MessageError

namespace Message

/-- The message that a value stands for. -/
def ofJson? (j : Json) : Option Message := do
  let method ← (← j.get? "method").string?
  return { id := j.get? "id", method, parameters := (j.get? "params").getD .null }

/-- The request that a message makes. -/
def request (message : Message) : Except MessageError Request :=
  match message.method with
  | "initialize" => .ok .introduction
  | "ping" => .ok .liveness
  | "tools/list" => .ok .tools
  | "tools/call" =>
    let arguments := match message.parameters.get? "arguments" with
      | some (.object fields) => fields
      | _ => []
    match (message.parameters.get? "name").bind Json.string? with
    | some name => .ok (.call name arguments)
    | none => .error .missingTool
  | _ => .error .unknownMethod

end Message

/-- A tool as clients are told of it. -/
def Tool.toJson (tool : Tool) : Json :=
  .object [("name", .string tool.name), ("description", .string tool.description),
    ("inputSchema", tool.inputSchema)]

/-- A reply to a message with the given parameters. -/
def Reply.toJson (parameters : Json) : Reply → Json
  | .introduction =>
    .object [("protocolVersion", (parameters.get? "protocolVersion").getD .null),
      ("capabilities", .object [("tools", .object [])]),
      ("serverInfo", .object [("name", .string serverName), ("version", .string serverVersion)]),
      ("instructions", .string serverInstructions)]
  | .liveness => .object []
  | .tools offered => .object [("tools", Json.list Tool.toJson offered)]
  | .result answer =>
    .object [
      ("content", .array [.object [("type", .string "text"), ("text", .string answer.text)]]),
      ("structuredContent", answer.value), ("isError", .bool false)]

/-- The answer under an id. -/
def answerJson (id : Json) (outcome : Except MessageError Json) : Json :=
  let field : String × Json := match outcome with
    | .ok result => ("result", result)
    | .error e =>
      ("error", .object [("code", .int e.code), ("message", .string e.message)])
  .object [("jsonrpc", .string "2.0"), ("id", id), field]

namespace Server

/-- What a message leads to, and the store after it. -/
def respond (server : Server) (now : Timestamp) (message : Message) (s : Store) :
    Except MessageError Json × Store :=
  match message.request with
  | .error e => (.error e, s)
  | .ok request =>
    match server.answer now request s with
    | .error cause => (.error (.call cause), s)
    | .ok (reply, s) => (.ok (reply.toJson message.parameters), s)

/-- Take in one line of a client; notices are not answered. -/
def receive (server : Server) (now : Timestamp) (line : String) (s : Store) :
    Option Json × Store :=
  match (Json.read line).toOption.bind Message.ofJson? with
  | none => (some (answerJson .null (.error .malformed)), s)
  | some message =>
    match message.id with
    | none => (none, s)
    | some id =>
      let (outcome, s) := server.respond now message s
      (some (answerJson id outcome), s)

end Server
end MemoryGraph
