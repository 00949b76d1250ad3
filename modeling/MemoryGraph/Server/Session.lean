-- SUMMARY: What a client can ask the server for, and the answers.
import MemoryGraph.Server.Perform
import MemoryGraph.Server.Tool

/-!
# Requests

A client asks the server who it is, whether it is there, which tools it offers,
and to carry out a call of one of them. Only calls look at the store.
-/
namespace MemoryGraph

/-- What a client asks for. -/
inductive Request where
  | introduction
  | liveness
  | tools
  | call (tool : String) (arguments : Arguments)
  deriving Repr

/-- What the server answers. -/
inductive Reply where
  | introduction
  | liveness
  | tools (offered : List Tool)
  | result (result : ToolResult)
  deriving Repr

/-- Answer a request. -/
def Server.answer (server : Server) (now : Timestamp) (request : Request) (s : Store) :
    Except CallError (Reply × Store) := do
  match request with
  | .introduction => return (.introduction, s)
  | .liveness => return (.liveness, s)
  | .tools => return (.tools Tool.all, s)
  | .call tool arguments =>
    let (result, s) ← server.perform now (← ToolCall.read tool arguments) s
    return (.result result, s)

end MemoryGraph
