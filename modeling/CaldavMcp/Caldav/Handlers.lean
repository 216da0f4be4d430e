/-
  The method handlers: `src/caldav/get.rs`, `put.rs`, `delete.rs`, `mkcalendar.rs`,
  `proppatch.rs`, `propfind.rs` and `report.rs`.

  A handler gets the resolved user and the href context as arguments (the request extensions
  of the source). A failed database call is a value here, as in the source: `.run` gives the
  `Result`, and the match on it is the source's match.
-/
import CaldavMcp.Caldav.Http
import CaldavMcp.Db.Events
import CaldavMcp.Ical

namespace CaldavMcp

open Program

/-! ## GET -/

/-- GET of a calendar object. -/
def handleGet (calendarId filename : String) : Action Reply := do
  let uid := filename.trimEnds ".ics"
  match ← (getObjectByUid calendarId uid).run with
  | .ok (some obj) =>
    return buildResponse 200
      [("content-type", "text/calendar; charset=utf-8"), ("etag", obj.etag)] (.text obj.icalData)
  | .ok none => return plain 404 "Object not found"
  | .error _ => return plain 500 "Internal error"

/-! ## PUT -/

/-- The uid a PUT writes to: the body's own, else the one of the URL. -/
def putUid (filename icalData : String) : String :=
  (extractFields icalData).uid.getD (filename.trimEnds ".ics")

/-- The columns stored beside a body. -/
def fieldsOf (icalData : String) : ObjectFields :=
  let fields := extractFields icalData
  { componentType := fields.componentType, dtstart := fields.dtstart, dtend := fields.dtend,
    summary := fields.summary }

/-- The reply to a finished upsert. -/
def putReply : Except AppError (CalendarObject × Bool) → Reply
  | .ok (obj, isNew) => buildResponse (if isNew then 201 else 204) [("etag", obj.etag)] (.text "")
  | .error _ => plain 500 "Failed to save event"

/-- The text form of a Uuid, in quotes, is a header value. -/
theorem validHeaderValue_etagOf {v : String} (hv : v.toList.all isUuidChar = true) :
    validHeaderValue (etagOf v) = true := by
  have hchar : ∀ c : Char, isUuidChar c = true → 32 ≤ c.toNat ∧ c.toNat < 127 := by
    intro c hc
    simp only [isUuidChar, Bool.or_eq_true, Bool.and_eq_true, decide_eq_true_eq,
      Char.le_def, UInt32.le_iff_toNat_le] at hc
    rcases hc with (rfl | hc) | hc
    · decide
    · have h1 : 48 ≤ c.toNat := hc.1
      have h2 : c.toNat ≤ 57 := hc.2
      omega
    · have h1 : 97 ≤ c.toNat := hc.1
      have h2 : c.toNat ≤ 102 := hc.2
      omega
  unfold validHeaderValue etagOf
  rw [List.all_eq_true] at hv ⊢
  intro c hc
  have hc' : c = '"' ∨ c ∈ v.toList := by
    simp only [String.toList_append, List.mem_append] at hc
    rcases hc with (hc | hc) | hc
    · exact Or.inl (List.mem_singleton.mp hc)
    · exact Or.inr hc
    · exact Or.inl (List.mem_singleton.mp hc)
  rcases hc' with rfl | hc'
  · decide
  · have := hchar c (hv c hc')
    simp only [Bool.or_eq_true, Bool.and_eq_true, decide_eq_true_eq]
    exact Or.inl ⟨this.1, by omega⟩

/-- The If-Match check of a PUT: the reply that ends the request, if it fails. -/
def checkIfMatch (ifMatch : Option String) (calendarId uid : String) : Action (Option Reply) :=
  match ifMatch with
  | none => return none
  | some expectedEtag =>
    if expectedEtag = "*" then return none
    else do
      match ← (getObjectByUid calendarId uid).run with
      | .ok (some existing) =>
        if existing.etag ≠ expectedEtag then return some (plain 412 "ETag mismatch")
        else return none
      | .ok none => return some (plain 412 "Object does not exist")
      | .error _ => return some (plain 500 "Internal error")

/-- A PUT once its body has been read. -/
def putObject (calendarId filename : String) (ifMatch : Option String) (icalData : String) :
    Action Reply := do
  let uid := putUid filename icalData
  match ← checkIfMatch ifMatch calendarId uid with
  | some reply => return reply
  | none =>
    return putReply (← (upsertObject calendarId uid icalData (fieldsOf icalData)).run)

/-- PUT of a calendar object. -/
def handlePut (calendarId filename : String) (request : Request) : Action Reply :=
  if request.body.size ≤ 1024 * 1024 then
    match String.fromUTF8? request.body with
    | some icalData => putObject calendarId filename (request.header? "if-match") icalData
    | none => return plain 400 "Invalid UTF-8 in request body"
  else return plain 400 "Request body too large"

/-! ## DELETE -/

/-- The reply to a finished delete. -/
def deleteReply (missing : String) : Except AppError Unit → Reply
  | .ok () => plain 204 ""
  | .error (.notFound _) => plain 404 missing
  | .error _ => plain 500 "Internal error"

/-- DELETE of a calendar object. -/
def handleDeleteObject (calendarId filename : String) : Action Reply := do
  let uid := filename.trimEnds ".ics"
  return deleteReply "Object not found" (← (deleteObject calendarId uid).run)

/-- DELETE of a calendar collection. -/
def handleDeleteCalendar (calendarId : String) : Action Reply := do
  return deleteReply "Calendar not found" (← (deleteCalendar calendarId).run)

/-! ## MKCALENDAR and PROPPATCH -/

/-- `extract_xml_value`, on the lossily decoded body. -/
def extractXmlValue (lib : Lib) (body : ByteArray) (localName : String) : Option String :=
  extractValueFrom localName false (lib.readXml (String.fromUtf8Lossy body).toUTF8)

/-- MKCALENDAR. -/
def handleMkcalendar (lib : Lib) (user : User) (username calendarId : String)
    (request : Request) : Action Reply := do
  if user.username ≠ username then
    return plain 403 "Cannot create calendars for another user"
  match ← (getCalendarById calendarId).run with
  | .ok (some _) => return plain 405 "Calendar already exists"
  | _ =>
    let body := request.bodyUpTo (64 * 1024)
    let value? := fun localName =>
      if body.isEmpty then none else extractXmlValue lib body localName
    let name := (value? "displayname").getD calendarId
    let color := (value? "calendar-color").getD "#0E61B9"
    match ← (createCalendarWithId calendarId user.id name "" color "UTC").run with
    | .ok _ => return plain 201 "Calendar created"
    | .error _ => return plain 500 "Failed to create calendar"

/-- The values a PROPPATCH body sets. -/
structure PropPatch where
  name : Option String
  description : Option String
  color : Option String
  deriving DecidableEq, Repr

/-- The three `extract_prop_value` calls of a PROPPATCH. -/
def propPatchOf (lib : Lib) (request : Request) : PropPatch :=
  let body := request.bodyUpTo (64 * 1024)
  { name := extractXmlValue lib body "displayname"
    description := extractXmlValue lib body "calendar-description"
    color := extractXmlValue lib body "calendar-color" }

/-- The properties a PROPPATCH reports as set. -/
def PropPatch.found (p : PropPatch) : List PropValue :=
  (if p.name.isSome then [⟨"displayname", davNs, .empty⟩] else []) ++
  (if p.description.isSome then [⟨"calendar-description", caldavNs, .empty⟩] else []) ++
  (if p.color.isSome then [⟨"calendar-color", appleNs, .empty⟩] else [])

/-- PROPPATCH of a calendar collection. -/
def handleProppatch (lib : Lib) (user : User) (hrefCtx : Option HrefContext)
    (calendarId : String) (request : Request) : Action Reply := do
  match ← (getCalendarById calendarId).run with
  | .ok (some calendar) =>
    let patch := propPatchOf lib request
    match ← (updateCalendar calendar.id patch.name patch.description patch.color none).run with
    | .ok _ =>
      let href := match hrefCtx with
        | some ctx => calendarHrefForContext ctx calendar.id
        | none => "/caldav/users/" ++ user.username ++ "/" ++ calendar.id ++ "/"
      return buildResponse 207 [("content-type", "application/xml; charset=utf-8")]
        (.multistatus (Multistatus.new.addResponse href patch.found []))
    | .error _ => return plain 500 "Failed to update properties"
  | _ => return plain 404 "Calendar not found"

/-! ## PROPFIND -/

/-- A list query whose failure reads as no rows: `unwrap_or_default`. -/
def orEmpty {α : Type} (c : Call (List α)) : Action (List α) := do
  match ← c.run with
  | .ok rows => return rows
  | .error _ => return []

/-- An entry of a PROPFIND answer. -/
def propfindEntry (propfind : PropfindRequest) (href : String) (available : List PropValue) :
    ResponseEntry :=
  ⟨href, (filterProps propfind available).1, (filterProps propfind available).2⟩

/-- PROPFIND of a calendar home. -/
def handlePropfindHome (lib : Lib) (user : User) (request : Request) : Action Reply := do
  let propfind := parsePropfind lib (request.bodyUpTo (64 * 1024))
  let home := propfindEntry propfind ("/caldav/users/" ++ user.username ++ "/")
    (calendarHomeProps user.username)
  let cals ← if request.depth ≥ 1 then orEmpty (listCalendarsForUser user.id) else pure []
  let entries := cals.map fun cal =>
    propfindEntry propfind (calendarHref user.username cal.id) (calendarProps user.username cal)
  return multistatusResponse ⟨home :: entries, none⟩

/-- The href context of a handler: the extension, or the username-based one. -/
def contextOf (user : User) (hrefCtx : Option HrefContext) : HrefContext :=
  hrefCtx.getD ⟨none, user.username⟩

/-- PROPFIND of a calendar collection. -/
def handlePropfindCalendar (lib : Lib) (user : User) (hrefCtx : Option HrefContext)
    (calendarId : String) (request : Request) : Action Reply := do
  let propfind := parsePropfind lib (request.bodyUpTo (64 * 1024))
  match ← (getCalendarById calendarId).run with
  | .ok (some calendar) =>
    let ctx := contextOf user hrefCtx
    let collection := propfindEntry propfind (calendarHrefForContext ctx calendar.id)
      (calendarPropsForContext ctx calendar)
    let objects ← if request.depth ≥ 1 then orEmpty (listObjects calendar.id) else pure []
    let entries := objects.map fun obj =>
      propfindEntry propfind (calendarObjectHrefForContext ctx calendar.id obj.uid)
        (calendarObjectProps obj false)
    return multistatusResponse ⟨collection :: entries, none⟩
  | _ => return plain 404 "Calendar not found"

/-- PROPFIND of the email home. -/
def handleEmailHome (user : User) (requestPath : String) (depth : Nat) (email : String)
    (propfind : PropfindRequest) : Action Reply := do
  let ctx : HrefContext := ⟨some (encodeEmailForPath email), user.username⟩
  let home := propfindEntry propfind requestPath (emailHomeProps user.username email requestPath)
  let cals ← if depth ≥ 1 then orEmpty (listCalendarsForUser user.id) else pure []
  let entries := cals.map fun cal =>
    propfindEntry propfind (calendarHrefForContext ctx cal.id) (calendarPropsForContext ctx cal)
  return multistatusResponse ⟨home :: entries, none⟩

/-! ## REPORT -/

def hexDigit (c : Char) : Option Nat :=
  let n := c.toNat
  if 48 ≤ n ∧ n ≤ 57 then some (n - 48)
  else if 65 ≤ n ∧ n ≤ 70 then some (n - 55)
  else if 97 ≤ n ∧ n ≤ 102 then some (n - 87)
  else none

/-- `u8::from_str_radix` on two characters, base 16; a leading plus sign is allowed. -/
def hexByte (h1 h2 : Char) : Option Nat :=
  if h1 = '+' then hexDigit h2
  else do return (← hexDigit h1) * 16 + (← hexDigit h2)

/-- Percent-decode a URL path segment, character by character. -/
def percentDecode : List Char → List Char
  | [] => []
  | '%' :: h1 :: h2 :: rest =>
    match hexByte h1 h2 with
    | some byte => Char.ofNat byte :: percentDecode rest
    | none => '%' :: percentDecode rest
  -- a `%` with fewer than two characters behind it: these are consumed, the `%` is kept
  | '%' :: _ => ['%']
  | c :: rest => c :: percentDecode rest

/-- The entry of an object in a REPORT answer. -/
def objectEntry (ctx : HrefContext) (calendarId : String) (includeData : Bool)
    (obj : CalendarObject) : ResponseEntry :=
  ⟨calendarObjectHrefForContext ctx calendarId obj.uid, calendarObjectProps obj includeData, []⟩

/-- The uids a multiget asks for. -/
def multigetUids (hrefs : List String) : List String :=
  hrefs.filterMap fun href =>
    (Text.stripSuffix? ".ics".toList (Text.afterLast '/' href.toList)).map fun f =>
      String.ofList (percentDecode f)

/-- calendar-multiget: fetch specific events by href. -/
def handleMultiget (ctx : HrefContext) (calendarId : String) (hrefs : List String) :
    Action Reply := do
  let objects ← orEmpty (getObjectsByUids calendarId (multigetUids hrefs))
  return multistatusResponse ⟨objects.map (objectEntry ctx calendarId true), none⟩

/-- calendar-query: fetch events matching a time range. -/
def handleQuery (ctx : HrefContext) (calendarId : String)
    (timeRange : Option (String × String)) : Action Reply := do
  let objects ← match timeRange with
    | some (start, stop) => orEmpty (listObjectsInRange calendarId start stop)
    | none => orEmpty (listObjects calendarId)
  return multistatusResponse ⟨objects.map (objectEntry ctx calendarId true), none⟩

/-- The delta loop of `handle_sync`: one entry for each change, the object looked up now. -/
def deltaEntries (ctx : HrefContext) (calendarId : String) (includeData : Bool) :
    List SyncChange → Action (List ResponseEntry)
  | [] => return []
  | change :: rest => do
    let href := calendarObjectHrefForContext ctx calendarId change.objectUid
    if change.changeType = .deleted then
      return ⟨href, [], []⟩ :: (← deltaEntries ctx calendarId includeData rest)
    else
      match ← (getObjectByUid calendarId change.objectUid).run with
      | .ok (some obj) =>
        return ⟨href, calendarObjectProps obj includeData, []⟩ ::
          (← deltaEntries ctx calendarId includeData rest)
      | _ => deltaEntries ctx calendarId includeData rest

/-- The document of `handle_sync`; none when the calendar is not found. -/
def syncDocument (ctx : HrefContext) (calendarId : String) (props : List PropRequest)
    (syncToken : String) : Action (Option Multistatus) := do
  match ← (getCalendarById calendarId).run with
  | .ok (some calendar) =>
    let includeData := props.any (·.localName = "calendar-data")
    let entries ←
      if syncToken = "" then do
        let objects ← orEmpty (listObjects calendarId)
        pure (objects.map (objectEntry ctx calendarId includeData))
      else do
        let changes ← orEmpty (getSyncChangesSince calendarId syncToken)
        deltaEntries ctx calendarId includeData changes
    return some ⟨entries, some (ensureSyncTokenUri calendar.syncToken)⟩
  | _ => return none

/-- sync-collection: return changes since a sync token. -/
def handleSync (ctx : HrefContext) (calendarId : String) (props : List PropRequest)
    (syncToken : String) : Action Reply := do
  match ← syncDocument ctx calendarId props syncToken with
  | some doc => return multistatusResponse doc
  | none => return plain 404 "Calendar not found"

/-- REPORT of a calendar collection. -/
def handleReport (lib : Lib) (user : User) (hrefCtx : Option HrefContext)
    (calendarId : String) (request : Request) : Action Reply :=
  let ctx := contextOf user hrefCtx
  match parseReport lib (request.bodyUpTo (256 * 1024)) with
  | none => return plain 400 "Invalid REPORT body"
  | some report => do
    let reply ← match report with
      | .calendarMultiget _ hrefs => handleMultiget ctx calendarId hrefs
      | .calendarQuery _ timeRange => handleQuery ctx calendarId timeRange
      | .syncCollection props syncToken => handleSync ctx calendarId props syncToken
    return reply.buffered (512 * 1024)

end CaldavMcp
