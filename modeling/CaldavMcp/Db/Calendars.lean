/-
  `src/db/calendars.rs`.
-/
import CaldavMcp.Db.Exec

namespace CaldavMcp

/-- A sync token, a valid URI. -/
def syncTokenOf (uuid : String) : String := "data:,sync-" ++ uuid

theorem syncTokenOf_inj {a b : String} (h : syncTokenOf a = syncTokenOf b) : a = b := by
  unfold syncTokenOf at h
  rwa [String.append_right_inj] at h

/-- Generate a new sync token. -/
def newSyncToken : Call String := do
  return syncTokenOf (← nowV7)

/-- Get a calendar by its id. -/
def getCalendarById (id : String) : Call (Option Calendar) :=
  sql (.selectCalendarById id)

/-- Create a calendar with a specific id. -/
def createCalendarWithId (id ownerId name description color timezone : String) :
    Call Calendar := do
  let syncToken ← newSyncToken
  let _ ← sql (.insertCalendar
    { id := id, ownerId := ownerId, name := name, description := description, color := color,
      timezone := timezone, ctag := syncToken, syncToken := syncToken })
  match ← getCalendarById id with
  | some cal => return cal
  | none => throw (.internal "Calendar created but not found")

/-- Create a calendar for a user. -/
def createCalendar (ownerId name description color timezone : String) : Call Calendar := do
  let id ← nowV7
  createCalendarWithId id ownerId name description color timezone

/-- The calendars a user owns. -/
def listCalendarsForOwner (ownerId : String) : Call (List Calendar) :=
  sql (.selectCalendarsOfOwner ownerId)

/-- The calendars accessible to a user: owned, and shared with them. -/
def listCalendarsForUser (userId : String) : Call (List Calendar) :=
  sql (.selectCalendarsOfUser userId)

/-- Update a calendar's properties: read the row, merge, write all four columns back. -/
def updateCalendar (id : String) (name description color timezone : Option String) :
    Call Calendar := do
  match ← getCalendarById id with
  | none => throw (.notFound ("Calendar " ++ id ++ " not found"))
  | some cal =>
    let _ ← sql (.updateCalendar (name.getD cal.name) (description.getD cal.description)
      (color.getD cal.color) (timezone.getD cal.timezone) id)
    match ← getCalendarById id with
    | some cal => return cal
    | none => throw (.internal "Calendar updated but not found")

/-- Delete a calendar; its objects, shares and changes go by cascade. -/
def deleteCalendar (id : String) : Call Unit := do
  let rows ← sql (.deleteCalendar id)
  if rows = 0 then
    throw (.notFound ("Calendar " ++ id ++ " not found"))

/-- Give a calendar a new ctag and sync token. -/
def bumpCtag (calendarId : String) : Call String := do
  let newToken ← newSyncToken
  let _ ← sql (.updateCtag newToken newToken calendarId)
  return newToken

end CaldavMcp
