/-
  `src/db/shares.rs`.
-/
import CaldavMcp.Db.Calendars

namespace CaldavMcp

/-- Share a calendar with a user at a given permission level. -/
def shareCalendar (calendarId userId : String) (permission : Permission) :
    Call CalendarShare := do
  let id ← nowV7
  let _ ← sql (.upsertShare
    { id := id, calendarId := calendarId, userId := userId, permission := permission })
  match ← sql (.selectShare calendarId userId) with
  | some share => return share
  -- `fetch_one` answers `RowNotFound`
  | none => throw (.database (.failed
      "no rows returned by a query that expected to return at least one row"))

/-- Revoke a user's access to a calendar. -/
def unshareCalendar (calendarId userId : String) : Call Unit := do
  let rows ← sql (.deleteShare calendarId userId)
  if rows = 0 then
    throw (.notFound "Share not found")

/-- All shares of a calendar. -/
def listSharesForCalendar (calendarId : String) : Call (List CalendarShare) :=
  sql (.selectSharesOfCalendar calendarId)

/-- The loop of `list_shared_calendars`. -/
def sharedCalendars : List CalendarShare → Call (List (Calendar × Permission))
  | [] => return []
  | share :: shares => do
    match ← getCalendarById share.calendarId with
    | some cal => return (cal, share.permission) :: (← sharedCalendars shares)
    | none => sharedCalendars shares

/-- All calendars shared with a user, sorted by name. -/
def listSharedCalendars (userId : String) : Call (List (Calendar × Permission)) := do
  let results ← sharedCalendars (← sql (.selectSharesOfUser userId))
  return results.insertionSort fun a b => a.1.name ≤ b.1.name

/-- What permission a user has on a calendar (owner = ReadWrite, shared, or none). -/
def getUserPermission (calendarId userId : String) : Call (Option Permission) := do
  let isOwner ← sql (.selectOwned calendarId userId)
  if isOwner.isSome then
    return some .readWrite
  else
    sql (.selectPermission calendarId userId)

end CaldavMcp
