/-
  The MCP server: JSON-RPC requests, sessions, the handlers and the transport (`src/mcp/`
  without `tools/`).

  `McpLib` is what the server takes from `serde_json`: the request in a body, or the parse
  error's text, and the texts of a value. `all_tools` is static data, and a parameter too.
  Sessions live in the process: a `SessionManager` is the map behind the mutex, and a handler is
  a program over `Op` that passes it on.

  `serveMcp` is one HTTP request from the middleware to the reply, with nothing in between.
-/
import CaldavMcp.Mcp.Tools
import CaldavMcp.Caldav.Http
import CaldavMcp.Db.Tokens

namespace CaldavMcp

open Program

/-! ## `jsonrpc.rs` -/

/-- A JSON-RPC request; without an id it is a notification. -/
structure JsonRpcRequest where
  id : Option Json
  method : String
  params : Json

/-- What the server takes from libraries, and the static tool definitions. -/
structure McpLib where
  fromSlice : ByteArray → Except String JsonRpcRequest
  toVec : Json → String
  toStringPretty : Json → String
  allTools : (toolMode : String) → List Json

/-- The id of a request, left out when there is none. -/
def idField (id : Option Json) : List (String × Json) :=
  match id with
  | some id => [("id", id)]
  | none => []

namespace JsonRpc

def success (id : Option Json) (result : Json) : Json :=
  .object ([("jsonrpc", .string "2.0")] ++ idField id ++ [("result", result)])

def error (id : Option Json) (code : String) (message : String) : Json :=
  .object ([("jsonrpc", .string "2.0")] ++ idField id ++
    [("error", .object [("code", .number (.other code)), ("message", .string message)])])

def methodNotFound (id : Option Json) : Json := error id "-32601" "Method not found"

def invalidParams (id : Option Json) (msg : String) : Json := error id "-32602" msg

end JsonRpc

/-! ## `session.rs` -/

/-- Session ids and the ids of their users. -/
structure SessionManager where
  sessions : String → Option String

namespace SessionManager

def new : SessionManager := ⟨fun _ => none⟩

/-- Look up the user id for a session. -/
def getUserId (m : SessionManager) (sessionId : String) : Option String := m.sessions sessionId

def insert (m : SessionManager) (sessionId userId : String) : SessionManager :=
  ⟨Function.update m.sessions sessionId (some userId)⟩

/-- Remove a session. -/
def removeSession (m : SessionManager) (sessionId : String) : SessionManager :=
  ⟨Function.update m.sessions sessionId none⟩

end SessionManager

/-- A program of the MCP server. -/
abbrev McpAction (α : Type) := StateT SessionManager (Prog Op Op.Resp) α

/-- Create a session for a user. Returns its id. -/
def createSession (userId : String) : McpAction String := do
  let sessionId : String ← StateT.lift (Prog.perform Op.newV4)
  modify fun m => m.insert sessionId userId
  return sessionId

/-! ## `handlers.rs` -/

section

variable (mcp : McpLib)

def instructions (toolMode : String) : String :=
  if toolMode = "simple" then
    "Calendar server. Tools: add_event (create event), delete_event (remove event), " ++
      "list_events (show events, optional time range filter)."
  else
    "This MCP server provides tools to manage CalDAV calendars and events. Use list_calendars " ++
      "to see available calendars, then create_event, query_events, etc. to manage events."

/-- Handle `initialize`: the new session's id is dropped. -/
def handleInitialize (userId : String) (request : JsonRpcRequest) (toolMode : String) :
    McpAction Json := do
  let _sessionId ← createSession userId
  let result := Json.object
    [("protocolVersion", .string "2025-03-26"),
      ("capabilities", .object [("tools", .object [("listChanged", .bool false)])]),
      ("serverInfo", .object
        [("name", .string "caldav-mcp-server"), ("version", .string "0.1.0")]),
      ("instructions", .string (instructions toolMode))]
  return JsonRpc.success request.id result

/-- Handle `tools/list`. -/
def handleToolsList (request : JsonRpcRequest) (toolMode : String) : Json :=
  JsonRpc.success request.id (.object [("tools", .array (mcp.allTools toolMode))])

/-- The content of a tool's answer. -/
def toolContent (text : String) (isError : Bool) : List (String × Json) :=
  [("content", .array [.object [("type", .string "text"), ("text", .string text)]]),
    ("isError", .bool isError)]

/-- Handle `tools/call`. -/
def handleToolsCall (userId : String) (request : JsonRpcRequest) (toolMode : String) :
    Action Json :=
  match request.params.str? "name" with
  | none => return JsonRpc.invalidParams request.id "Missing 'name' in params"
  | some toolName => do
    let arguments := (request.params.get? "arguments").getD (.object [])
    match ← (dispatch userId toolName arguments toolMode).run with
    | .ok result =>
      let content := toolContent (mcp.toStringPretty result) false
      return JsonRpc.success request.id (.object
        (if result.isObject then content ++ [("structuredContent", result)] else content))
    | .error err => return JsonRpc.success request.id (.object (toolContent err true))

/-- Handle a JSON-RPC request. -/
def handleRequest (userId : String) (request : JsonRpcRequest) (toolMode : String) :
    McpAction Json :=
  if request.method = "initialize" then handleInitialize userId request toolMode
  else if request.method = "notifications/initialized" then return .null
  else if request.method = "tools/list" then return handleToolsList mcp request toolMode
  else if request.method = "tools/call" then
    StateT.lift (handleToolsCall mcp userId request toolMode)
  else if request.method = "ping" then return JsonRpc.success request.id (.object [])
  else return JsonRpc.methodNotFound request.id

/-! ## `transport.rs` -/

def sessionHeader : String := "mcp-session-id"

def jsonHeader : String × String := ("content-type", "application/json")

/-- Handle POST /mcp. -/
def handlePost (userId : String) (toolMode : String) (request : Request) : McpAction Reply :=
  if 1024 * 1024 < request.body.size then return plain 400 "Request body too large"
  else match mcp.fromSlice request.body with
  | .error e => return .response ⟨200, [jsonHeader], .text (mcp.toVec (.object
      [("jsonrpc", .string "2.0"), ("id", .null),
        ("error", .object [("code", .number (.other "-32700")),
          ("message", .string ("Parse error: " ++ e))])]))⟩
  | .ok rpcRequest =>
    if rpcRequest.id.isNone then do
      let _ ← handleRequest mcp userId rpcRequest toolMode
      return plain 202 ""
    else do
      let response ← handleRequest mcp userId rpcRequest toolMode
      let sessions ← get
      let sessionHeaders :=
        if rpcRequest.method = "initialize" then
          -- the user's id is looked up as if it were a session id
          match sessions.getUserId userId with
          | some sessionId => [(sessionHeader, sessionId)]
          | none => []
        else []
      return buildResponse 200 (jsonHeader :: sessionHeaders) (.text (mcp.toVec response))

end

/-- Handle GET /mcp. -/
def handleStream : Reply :=
  .response ⟨200, [("content-type", "text/event-stream"), ("cache-control", "no-cache")],
    .text ""⟩

/-- Handle DELETE /mcp: the session of the header is removed, whoever sends it. -/
def handleDeleteSession (request : Request) : McpAction Reply := do
  match request.header? sessionHeader with
  | some sessionId => modify fun m => m.removeSession sessionId
  | none => pure ()
  return plain 200 "Session terminated"

/-! ## `auth.rs` and the router -/

/-- A 401 response. -/
def bearerUnauthorized (msg : String) : Reply :=
  .response ⟨401, [("www-authenticate", "Bearer realm=\"CalDAV MCP\"")], .text msg⟩

/-- The bearer token of a request. -/
def bearerToken (request : Request) : Except String String :=
  match request.authHeader with
  | none => .error "Missing Authorization header"
  | some authHeader =>
    match authHeader.stripStart? "Bearer " with
    | none => .error "Invalid authorization scheme, expected Bearer"
    | some token => .ok token

/-- The database, the tokens and the sessions. -/
structure McpWorld where
  store : TokenWorld
  sessions : SessionManager

/-- The handler of a method. -/
def mcpHandler (mcp : McpLib) (toolMode userId : String) (request : Request) : McpAction Reply :=
  if request.method = "POST" then handlePost mcp userId toolMode request
  else if request.method = "GET" ∨ request.method = "HEAD" then return handleStream
  else if request.method = "DELETE" then handleDeleteSession request
  else return .response ⟨405, [("allow", "GET,HEAD,POST,DELETE")], .text ""⟩

/-- Run a program of the MCP server in a world. -/
def McpAction.exec {α : Type} (env : TokenEnv) (a : McpAction α) (w : McpWorld) : α × McpWorld :=
  let out := (a.run w.sessions).run (CaldavMcp.exec env.toEnv) w.store.world
  (out.1.1, { store := { w.store with world := out.2 }, sessions := out.1.2 })

/-- One request to /mcp. -/
def serveMcp (env : TokenEnv) (lib : Lib) (mcp : McpLib) (toolMode : String) (request : Request)
    (w : McpWorld) : Reply × McpWorld :=
  match bearerToken request with
  | .error msg => (bearerUnauthorized msg, w)
  | .ok token =>
    match (validateToken lib token).exec env w.store with
    | (.error _, store) => (bearerUnauthorized "Token validation failed", { w with store := store })
    | (.ok none, store) => (bearerUnauthorized "Invalid or expired token", { w with store := store })
    | (.ok (some userId), store) =>
      (mcpHandler mcp toolMode userId request).exec env { w with store := store }

end CaldavMcp
