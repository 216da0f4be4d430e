/-
  `src/db/events.rs`.
-/
import CaldavMcp.Db.Calendars

namespace CaldavMcp

/-- The quoted form of an ETag. -/
def etagOf (uuid : String) : String := "\"" ++ uuid ++ "\""

theorem etagOf_inj {a b : String} (h : etagOf a = etagOf b) : a = b := by
  unfold etagOf at h
  rwa [String.append_left_inj, String.append_right_inj] at h

/-- Generate a new ETag. -/
def newEtag : Call String := do
  return etagOf (← newV4)

/-- Get a calendar object by its uid within a calendar. -/
def getObjectByUid (calendarId uid : String) : Call (Option CalendarObject) :=
  sql (.selectObjectByUid calendarId uid)

/-- Log a change for the sync-collection REPORT. -/
def logSyncChange (calendarId objectUid : String) (changeType : ChangeType)
    (syncToken : String) : Call Unit := do
  let _ ← sql (.insertChange calendarId objectUid changeType syncToken)

/-- Create or update a calendar object. Returns it and whether it was created. -/
def upsertObject (calendarId uid icalData : String) (fields : ObjectFields) :
    Call (CalendarObject × Bool) := do
  let existing ← getObjectByUid calendarId uid
  let isNew := existing.isNone
  let etag ← newEtag
  let newSyncToken := syncTokenOf (← nowV7)
  if isNew then
    let id ← nowV7
    let _ ← sql (.insertObject
      { id := id, calendarId := calendarId, uid := uid, etag := etag, icalData := icalData,
        toObjectFields := fields })
    logSyncChange calendarId uid .created newSyncToken
  else
    let _ ← sql (.updateObject etag icalData fields calendarId uid)
    logSyncChange calendarId uid .modified newSyncToken
  let _ ← bumpCtag calendarId
  match ← getObjectByUid calendarId uid with
  | some obj => return (obj, isNew)
  | none => throw (.internal "Object upserted but not found")

/-- All objects of a calendar. -/
def listObjects (calendarId : String) : Call (List CalendarObject) :=
  sql (.selectObjects calendarId)

/-- The objects of a calendar that overlap a time range. -/
def listObjectsInRange (calendarId start stop : String) : Call (List CalendarObject) :=
  sql (.selectObjectsInRange calendarId stop start)

/-- The objects of a calendar with the given uids. -/
def getObjectsByUids (calendarId : String) (uids : List String) : Call (List CalendarObject) :=
  if uids.isEmpty then return [] else sql (.selectObjectsByUids calendarId uids)

/-- Delete a calendar object by uid. -/
def deleteObject (calendarId uid : String) : Call Unit := do
  let rows ← sql (.deleteObject calendarId uid)
  if rows = 0 then
    throw (.notFound ("Object with UID '" ++ uid ++ "' not found in calendar"))
  let newSyncToken := syncTokenOf (← nowV7)
  logSyncChange calendarId uid .deleted newSyncToken
  let _ ← bumpCtag calendarId

/-- The changes after a given sync token; all of them when the token is not in the log. -/
def getSyncChangesSince (calendarId sinceToken : String) : Call (List SyncChange) := do
  match ← sql (.selectAnchor calendarId sinceToken) with
  | some anchorId => sql (.selectChangesAfter calendarId anchorId)
  | none => sql (.selectChanges calendarId)

end CaldavMcp
