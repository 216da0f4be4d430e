/-
  `src/mcp/tools/`: the tools of the MCP server.

  A tool reads its arguments from a JSON value and answers a JSON value or an error text. An
  argument of another type reads as a missing one, as `as_str` and `as_u64` answer `None`. The
  tools take the id of the authenticated user; those of `calendars.rs`, `events.rs` and
  `sharing.rs` that name a calendar do not look at it.

  Left out: the tool definitions that `tools/list` shows.
-/
import CaldavMcp.Db.Events
import CaldavMcp.Db.Shares
import CaldavMcp.Db.Users
import CaldavMcp.Ical

namespace CaldavMcp

open Program

/-! ## JSON -/

/-- A JSON number: an integer of 64 bits, or any other number by its text. -/
inductive JsonNumber where
  | posInt (n : UInt64)
  | other (text : String)
  deriving DecidableEq, Repr

/-- A JSON value. An object lists each key once. -/
inductive Json where
  | null
  | bool (b : Bool)
  | number (n : JsonNumber)
  | string (s : String)
  | array (values : List Json)
  | object (fields : List (String × Json))
  deriving Repr

namespace Json

/-- The field of an object. -/
def get? (key : String) : Json → Option Json
  | object fields => fields.lookup key
  | _ => none

def asStr : Json → Option String
  | string s => some s
  | _ => none

def asU64 : Json → Option UInt64
  | number (.posInt n) => some n
  | _ => none

def isObject : Json → Bool
  | object _ => true
  | _ => false

/-- A text field: `args[key].as_str()`, and `args.get(key).and_then(as_str)`. -/
def str? (args : Json) (key : String) : Option String := (args.get? key).bind asStr

/-- A nullable text. -/
def ofOption : Option String → Json
  | some s => string s
  | none => null

/-- A count. -/
def ofNat (n : Nat) : Json := number (.posInt (UInt64.ofNat n))

end Json

/-! ## Tool calls -/

/-- A tool: it answers a value or an error text. -/
abbrev ToolCall (α : Type) := ExceptT String (Prog Op Op.Resp) α

/-- `map_err(|e| format!("{message}: {e}"))`. -/
def orFail {α : Type} (message : String) (c : Call α) : ToolCall α := ExceptT.mk do
  match ← c.run with
  | .ok a => return .ok a
  | .error e => return .error (message ++ ": " ++ e.display)

/-- `ok_or(message)`. -/
def orMissing {α : Type} (message : String) : Option α → ToolCall α
  | some a => pure a
  | none => throw message

/-- A text argument that has to be there. -/
def required (args : Json) (key : String) : ToolCall String :=
  orMissing ("Missing " ++ key) (args.str? key)

/-- The time of an event's stamp. -/
def utcNow : Action String := Prog.perform Op.utcNow

/-! ## `calendars.rs` -/

/-- List the calendars accessible to the user. -/
def listCalendarsTool (userId : String) (_args : Json) : ToolCall Json := do
  let cals ← orFail "Failed to list calendars" (listCalendarsForUser userId)
  return .object [("calendars", .array (cals.map fun c => .object
    [("id", .string c.id), ("name", .string c.name), ("description", .string c.description),
      ("color", .string c.color), ("timezone", .string c.timezone),
      ("owner_id", .string c.ownerId)]))]

/-- Get a calendar by id. -/
def getCalendarTool (_userId : String) (args : Json) : ToolCall Json := do
  let calendarId ← required args "calendar_id"
  let cal ← orMissing "Calendar not found" (← orFail "Database error" (getCalendarById calendarId))
  return .object
    [("id", .string cal.id), ("name", .string cal.name), ("description", .string cal.description),
      ("color", .string cal.color), ("timezone", .string cal.timezone),
      ("owner_id", .string cal.ownerId), ("ctag", .string cal.ctag)]

/-- Create a calendar for the user. -/
def createCalendarTool (userId : String) (args : Json) : ToolCall Json := do
  let name ← required args "name"
  let description := (args.str? "description").getD ""
  let color := (args.str? "color").getD "#0E61B9"
  let timezone := (args.str? "timezone").getD "UTC"
  let cal ← orFail "Failed to create calendar"
    (createCalendar userId name description color timezone)
  return .object
    [("id", .string cal.id), ("name", .string cal.name), ("description", .string cal.description),
      ("color", .string cal.color), ("timezone", .string cal.timezone)]

/-- Delete a calendar by id. -/
def deleteCalendarTool (_userId : String) (args : Json) : ToolCall Json := do
  let calendarId ← required args "calendar_id"
  let _ ← orFail "Failed to delete calendar" (deleteCalendar calendarId)
  return .object [("deleted", .bool true), ("calendar_id", .string calendarId)]

/-! ## `events.rs` -/

/-- The columns of an event a tool stores: straight from the arguments. -/
def eventFields (title start stop : String) : ObjectFields :=
  { componentType := "VEVENT", dtstart := some start, dtend := some stop, summary := some title }

/-- Create an event in a calendar. -/
def createEvent (_userId : String) (args : Json) : ToolCall Json := do
  let calendarId ← required args "calendar_id"
  let title ← required args "title"
  let start ← required args "start"
  let stop ← required args "end"
  let description := args.str? "description"
  let location := args.str? "location"
  let timezone := args.str? "timezone"
  let uid ← ExceptT.lift generateUid
  let now ← ExceptT.lift utcNow
  let icalData := buildVevent now uid title start stop description location timezone
  let (obj, _) ← orFail "Failed to create event"
    (upsertObject calendarId uid icalData (eventFields title start stop))
  return .object
    [("uid", .string obj.uid), ("calendar_id", .string calendarId), ("title", .string title),
      ("start", .string start), ("end", .string stop), ("etag", .string obj.etag)]

/-- Get an event by uid. -/
def getEvent (_userId : String) (args : Json) : ToolCall Json := do
  let calendarId ← required args "calendar_id"
  let eventUid ← required args "event_uid"
  let obj ← orMissing "Event not found"
    (← orFail "Database error" (getObjectByUid calendarId eventUid))
  return .object
    [("uid", .string obj.uid), ("calendar_id", .string obj.calendarId),
      ("summary", .ofOption obj.summary), ("dtstart", .ofOption obj.dtstart),
      ("dtend", .ofOption obj.dtend), ("etag", .string obj.etag),
      ("ical_data", .string obj.icalData)]

/-- Update an event, replacing all fields. -/
def updateEvent (_userId : String) (args : Json) : ToolCall Json := do
  let calendarId ← required args "calendar_id"
  let eventUid ← required args "event_uid"
  let title ← required args "title"
  let start ← required args "start"
  let stop ← required args "end"
  let description := args.str? "description"
  let location := args.str? "location"
  let timezone := args.str? "timezone"
  let _ ← orMissing "Event not found"
    (← orFail "Database error" (getObjectByUid calendarId eventUid))
  let now ← ExceptT.lift utcNow
  let icalData := buildVevent now eventUid title start stop description location timezone
  let (obj, _) ← orFail "Failed to update event"
    (upsertObject calendarId eventUid icalData (eventFields title start stop))
  return .object
    [("uid", .string obj.uid), ("calendar_id", .string calendarId), ("title", .string title),
      ("etag", .string obj.etag), ("updated", .bool true)]

/-- Delete an event by uid. -/
def deleteEvent (_userId : String) (args : Json) : ToolCall Json := do
  let calendarId ← required args "calendar_id"
  let eventUid ← required args "event_uid"
  let _ ← orFail "Failed to delete event" (deleteObject calendarId eventUid)
  return .object [("deleted", .bool true), ("event_uid", .string eventUid)]

/-- The events of a calendar, in a range when both ends of it are given. -/
def eventsOf (calendarId : String) (args : Json) : ToolCall (List CalendarObject) :=
  match args.str? "start", args.str? "end" with
  | some s, some e => orFail "Database error" (listObjectsInRange calendarId s e)
  | _, _ => orFail "Database error" (listObjects calendarId)

/-- The number of events asked for. -/
def limitOf (args : Json) : Nat := (((args.get? "limit").bind Json.asU64).getD 50).toNat

/-- Query the events of a calendar. -/
def queryEvents (_userId : String) (args : Json) : ToolCall Json := do
  let calendarId ← required args "calendar_id"
  let objects ← eventsOf calendarId args
  let events := (objects.take (limitOf args)).map fun obj => Json.object
    [("uid", .string obj.uid), ("summary", .ofOption obj.summary),
      ("dtstart", .ofOption obj.dtstart), ("dtend", .ofOption obj.dtend),
      ("etag", .string obj.etag)]
  return .object [("calendar_id", .string calendarId), ("count", .ofNat events.length),
    ("events", .array events)]

/-! ## `sharing.rs` -/

/-- The user a calendar is shared with. -/
def targetUser (username : String) : ToolCall User := do
  let user ← orFail "Database error" (getUserByUsername username)
  orMissing ("User '" ++ username ++ "' not found") user

/-- Share a calendar with another user. -/
def shareCalendarTool (_userId : String) (args : Json) : ToolCall Json := do
  let calendarId ← required args "calendar_id"
  let username ← required args "username"
  let permissionStr ← required args "permission"
  let permission ← orMissing "Invalid permission value" (Permission.fromStrValue permissionStr)
  let user ← targetUser username
  let share ← orFail "Failed to share calendar" (shareCalendar calendarId user.id permission)
  return .object
    [("calendar_id", .string share.calendarId), ("shared_with", .string username),
      ("permission", .string share.permission.asStr)]

/-- Revoke a user's access to a calendar. -/
def unshareCalendarTool (_userId : String) (args : Json) : ToolCall Json := do
  let calendarId ← required args "calendar_id"
  let username ← required args "username"
  let user ← targetUser username
  let _ ← orFail "Failed to unshare calendar" (unshareCalendar calendarId user.id)
  return .object
    [("unshared", .bool true), ("calendar_id", .string calendarId),
      ("username", .string username)]

/-- List the calendars shared with the user. -/
def listSharedCalendarsTool (userId : String) (_args : Json) : ToolCall Json := do
  let shared ← orFail "Database error" (listSharedCalendars userId)
  return .object [("shared_calendars", .array (shared.map fun (cal, perm) => .object
    [("id", .string cal.id), ("name", .string cal.name), ("owner_id", .string cal.ownerId),
      ("permission", .string perm.asStr), ("color", .string cal.color)]))]

/-! ## `simple.rs` -/

namespace Simple

/-- The user's default calendar: the first one accessible, or a new one. -/
def resolveCalendar (userId : String) : ToolCall String := do
  match ← orFail "Failed to list calendars" (listCalendarsForUser userId) with
  | cal :: _ => return cal.id
  | [] =>
    let cal ← orFail "Failed to create default calendar"
      (createCalendar userId "Calendar" "" "#0E61B9" "UTC")
    return cal.id

/-- Add an event to the user's calendar. -/
def handleAdd (userId : String) (args : Json) : ToolCall Json := do
  let title ← required args "title"
  let start ← required args "start"
  let stop ← required args "end"
  let description := args.str? "description"
  let location := args.str? "location"
  let timezone := args.str? "timezone"
  let calendarId ← resolveCalendar userId
  let uid ← ExceptT.lift generateUid
  let now ← ExceptT.lift utcNow
  let icalData := buildVevent now uid title start stop description location timezone
  let (obj, _) ← orFail "Failed to create event"
    (upsertObject calendarId uid icalData (eventFields title start stop))
  return .object
    [("uid", .string obj.uid), ("title", .string title), ("start", .string start),
      ("end", .string stop)]

/-- Delete an event of the user's calendar by uid. -/
def handleDelete (userId : String) (args : Json) : ToolCall Json := do
  let eventUid ← required args "event_uid"
  let calendarId ← resolveCalendar userId
  let _ ← orFail "Failed to delete event" (deleteObject calendarId eventUid)
  return .object [("deleted", .bool true), ("event_uid", .string eventUid)]

/-- List the events of the user's calendar. -/
def handleList (userId : String) (args : Json) : ToolCall Json := do
  let calendarId ← resolveCalendar userId
  let objects ← eventsOf calendarId args
  let events := (objects.take (limitOf args)).map fun obj => Json.object
    [("uid", .string obj.uid), ("summary", .ofOption obj.summary),
      ("start", .ofOption obj.dtstart), ("end", .ofOption obj.dtend)]
  return .object [("count", .ofNat events.length), ("events", .array events)]

/-- Dispatch a call in simple mode. -/
def dispatch (userId toolName : String) (args : Json) : ToolCall Json :=
  if toolName = "add_event" then handleAdd userId args
  else if toolName = "delete_event" then handleDelete userId args
  else if toolName = "list_events" then handleList userId args
  else throw ("Unknown tool: " ++ toolName)

end Simple

/-! ## `tools/mod.rs` -/

/-- Dispatch a call of a tool. -/
def dispatch (userId toolName : String) (arguments : Json) (toolMode : String) :
    ToolCall Json :=
  if toolMode = "simple" then Simple.dispatch userId toolName arguments
  else if toolName = "list_calendars" then listCalendarsTool userId arguments
  else if toolName = "get_calendar" then getCalendarTool userId arguments
  else if toolName = "create_calendar" then createCalendarTool userId arguments
  else if toolName = "delete_calendar" then deleteCalendarTool userId arguments
  else if toolName = "create_event" then createEvent userId arguments
  else if toolName = "get_event" then getEvent userId arguments
  else if toolName = "update_event" then updateEvent userId arguments
  else if toolName = "delete_event" then deleteEvent userId arguments
  else if toolName = "query_events" then queryEvents userId arguments
  else if toolName = "share_calendar" then shareCalendarTool userId arguments
  else if toolName = "unshare_calendar" then unshareCalendarTool userId arguments
  else if toolName = "list_shared_calendars" then listSharedCalendarsTool userId arguments
  else throw ("Unknown tool: " ++ toolName)

end CaldavMcp
