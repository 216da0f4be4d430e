/-
  Row types of the database (`src/db/models.rs`, `migrations/001_initial.sql`) and the
  application error (`src/error.rs`).

  Left out: the timestamp columns `created_at` and `updated_at` (no query selects on them
  and no answer shows them), and the `mcp_tokens` table. A column with a CHECK over fixed
  words is an enumeration here (`Permission`, `ChangeType`); the words are its `asStr`.
-/
import CaldavMcp.Program.Basic

namespace CaldavMcp

/-- A registered user. -/
structure User where
  id : String
  username : String
  email : Option String
  passwordHash : String
  deriving DecidableEq, Repr

/-- A calendar collection owned by a user. -/
structure Calendar where
  id : String
  ownerId : String
  name : String
  description : String
  color : String
  timezone : String
  ctag : String
  syncToken : String
  deriving DecidableEq, Repr

/-- Extracted iCalendar fields stored beside the raw data. -/
structure ObjectFields where
  componentType : String
  dtstart : Option String
  dtend : Option String
  summary : Option String
  deriving DecidableEq, Repr

/-- A calendar object, stored as raw iCalendar data. -/
structure CalendarObject extends ObjectFields where
  id : String
  calendarId : String
  uid : String
  etag : String
  icalData : String
  deriving DecidableEq, Repr

/-- Permission level for calendar sharing. -/
inductive Permission where
  | read
  | readWrite
  deriving DecidableEq, Repr

namespace Permission

/-- The wire-format string. -/
def asStr : Permission → String
  | read => "read"
  | readWrite => "read-write"

/-- Parse the wire-format string. -/
def fromStrValue (s : String) : Option Permission :=
  if s = "read" then some read
  else if s = "read-write" then some readWrite
  else none

theorem fromStrValue_asStr (p : Permission) : fromStrValue p.asStr = some p := by
  cases p <;> decide

end Permission

/-- A sharing grant. -/
structure CalendarShare where
  id : String
  calendarId : String
  userId : String
  permission : Permission
  deriving DecidableEq, Repr

/-- The kind of a logged change. -/
inductive ChangeType where
  | created
  | modified
  | deleted
  deriving DecidableEq, Repr

/-- A record of the change log. -/
structure SyncChange where
  id : Nat
  calendarId : String
  objectUid : String
  changeType : ChangeType
  syncToken : String
  deriving DecidableEq, Repr

/-! ## Errors -/

/-- What the database answers when a statement fails. `failed` is every failure that is not
    a constraint of the schema (I/O, a locked file, a closed pool), with its text. -/
inductive DbError where
  | primaryKey (column : String)
  | unique (columns : String)
  | foreignKey
  | failed (text : String)
  deriving DecidableEq, Repr

/-- The `Display` text of a database error, with SQLite's extended result codes. -/
def DbError.display : DbError → String
  | primaryKey column =>
    "error returned from database: (code: 1555) UNIQUE constraint failed: " ++ column
  | unique columns =>
    "error returned from database: (code: 2067) UNIQUE constraint failed: " ++ columns
  | foreignKey => "error returned from database: (code: 787) FOREIGN KEY constraint failed"
  | failed text => text

/-- Application-level errors. -/
inductive AppError where
  | notFound (what : String)
  | conflict (what : String)
  | database (e : DbError)
  | internal (what : String)
  deriving DecidableEq, Repr

/-- The `Display` text of an application error. -/
def AppError.display : AppError → String
  | notFound what => "not found: " ++ what
  | conflict what => "conflict: " ++ what
  | database e => "database error: " ++ e.display
  | internal what => "internal error: " ++ what

end CaldavMcp
