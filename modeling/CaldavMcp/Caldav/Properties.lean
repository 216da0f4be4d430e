/-
  `src/caldav/xml/properties.rs`, with `HrefContext` and `encode_email_for_path` of
  `src/caldav/mod.rs`.
-/
import CaldavMcp.Caldav.Xml

namespace CaldavMcp

/-- Context for building hrefs: email-based when `email` is set, username-based otherwise. -/
structure HrefContext where
  email : Option String
  username : String
  deriving DecidableEq, Repr

/-- Percent-encode an email for use in URL path segments. -/
def encodeEmailForPath (email : String) : String :=
  String.ofList (email.toList.flatMap fun c => if c = '@' then "%40".toList else [c])

/-- Ensure a sync token is a valid URI; old tokens without a scheme are wrapped. -/
def ensureSyncTokenUri (token : String) : String :=
  if ':' ∈ token.toList then token else "data:," ++ token

/-- Whether a property was requested. -/
def PropRequest.names (r : PropRequest) (p : PropValue) : Bool :=
  r.localName = p.name && r.ns = p.ns

/-- Filter available properties by what the client requested. -/
def filterProps (request : PropfindRequest) (available : List PropValue) :
    List PropValue × List String :=
  match request with
  | .allProp => (available, [])
  | .propName => (available.map fun p => { p with value := .empty }, [])
  | .props requested =>
    let found := available.filter fun p => requested.any (·.names p)
    let missing := requested.filter fun r => !found.any (r.names ·)
    (found, missing.map fun r => nsPrefix r.ns ++ ":" ++ r.localName)

/-! ## Hrefs -/

/-- The href of a calendar object. -/
def calendarObjectHref (username calendarId uid : String) : String :=
  "/caldav/users/" ++ username ++ "/" ++ calendarId ++ "/" ++ uid ++ ".ics"

/-- The href of a calendar collection. -/
def calendarHref (username calendarId : String) : String :=
  "/caldav/users/" ++ username ++ "/" ++ calendarId ++ "/"

/-- The href of a calendar collection in a context. -/
def calendarHrefForContext (ctx : HrefContext) (calendarId : String) : String :=
  match ctx.email with
  | some email => "/calendar/dav/" ++ email ++ "/user/" ++ calendarId ++ "/"
  | none => calendarHref ctx.username calendarId

/-- The href of a calendar object in a context. -/
def calendarObjectHrefForContext (ctx : HrefContext) (calendarId uid : String) : String :=
  match ctx.email with
  | some email => "/calendar/dav/" ++ email ++ "/user/" ++ calendarId ++ "/" ++ uid ++ ".ics"
  | none => calendarObjectHref ctx.username calendarId uid

/-- Within one context and calendar, an object's href determines its uid. -/
theorem calendarObjectHrefForContext_inj {ctx : HrefContext} {calendarId uid uid' : String}
    (h : calendarObjectHrefForContext ctx calendarId uid =
      calendarObjectHrefForContext ctx calendarId uid') : uid = uid' := by
  unfold calendarObjectHrefForContext calendarObjectHref at h
  split at h
  · rwa [String.append_left_inj, String.append_right_inj] at h
  · rwa [String.append_left_inj, String.append_right_inj] at h

/-! ## Properties -/

def textProp (ns name text : String) : PropValue := ⟨name, ns, .text text⟩

def xmlProp (ns name xml : String) : PropValue := ⟨name, ns, .xml xml⟩

def hrefXml (href : String) : String := "<D:href>" ++ href ++ "</D:href>"

def supportedReportSet : String :=
  "<D:supported-report><D:report><C:calendar-multiget/></D:report></D:supported-report>" ++
  "<D:supported-report><D:report><C:calendar-query/></D:report></D:supported-report>" ++
  "<D:supported-report><D:report><D:sync-collection/></D:report></D:supported-report>"

/-- Properties of the CalDAV root. -/
def rootProps (username : String) : List PropValue :=
  [xmlProp davNs "resourcetype" "<D:collection/>",
    xmlProp davNs "current-user-principal" (hrefXml ("/caldav/users/" ++ username ++ "/")),
    textProp davNs "displayname" "CalDAV Server"]

/-- Properties of the CalDAV root when the user is not authenticated. -/
def rootPropsUnauthenticated : List PropValue :=
  [xmlProp davNs "resourcetype" "<D:collection/>",
    xmlProp davNs "current-user-principal" "<D:unauthenticated/>",
    textProp davNs "displayname" "CalDAV Server"]

/-- Properties of a calendar home. -/
def calendarHomeProps (username : String) : List PropValue :=
  [xmlProp davNs "resourcetype" "<D:collection/>",
    textProp davNs "displayname" (username ++ "'s calendars"),
    xmlProp davNs "current-user-principal" (hrefXml ("/caldav/users/" ++ username ++ "/"))]

/-- Properties of the email home. -/
def emailHomeProps (username email requestPath : String) : List PropValue :=
  [xmlProp davNs "resourcetype" "<D:collection/><D:principal/>",
    textProp davNs "displayname" username,
    xmlProp davNs "current-user-principal" (hrefXml requestPath),
    xmlProp davNs "principal-URL" (hrefXml requestPath),
    xmlProp caldavNs "calendar-home-set" (hrefXml requestPath),
    xmlProp caldavNs "calendar-user-address-set" (hrefXml ("mailto:" ++ email)),
    xmlProp csNs "email-address-set"
      ("<CS:email-address>" ++ email ++ "</CS:email-address>"),
    xmlProp caldavNs "schedule-inbox-URL" (hrefXml (requestPath ++ "inbox/")),
    xmlProp caldavNs "schedule-outbox-URL" (hrefXml (requestPath ++ "outbox/")),
    xmlProp davNs "supported-report-set" supportedReportSet,
    xmlProp davNs "current-user-privilege-set"
      "<D:privilege><D:read/></D:privilege><D:privilege><D:write/></D:privilege>",
    xmlProp csNs "notification-URL" (hrefXml (requestPath ++ "notifications/")),
    xmlProp csNs "dropbox-home-URL" (hrefXml (requestPath ++ "dropbox/")),
    xmlProp davNs "principal-collection-set" (hrefXml requestPath),
    xmlProp davNs "resource-id" (hrefXml ("urn:uuid:" ++ username)),
    xmlProp davNs "owner" (hrefXml requestPath)]

def calendarPrivileges : String :=
  "<D:privilege><D:read/></D:privilege><D:privilege><D:write/></D:privilege>" ++
  "<D:privilege><D:write-content/></D:privilege>"

/-- Properties of a calendar collection, as the calendar home lists it. -/
def calendarProps (username : String) (calendar : Calendar) : List PropValue :=
  [xmlProp davNs "resourcetype" "<D:collection/><C:calendar/>",
    textProp davNs "displayname" calendar.name,
    textProp caldavNs "calendar-description" calendar.description,
    textProp appleNs "calendar-color" calendar.color,
    textProp caldavNs "calendar-timezone" calendar.timezone,
    xmlProp caldavNs "supported-calendar-component-set"
      "<C:comp name=\"VEVENT\"/><C:comp name=\"VTODO\"/>",
    textProp csNs "getctag" (ensureSyncTokenUri calendar.ctag),
    textProp davNs "sync-token" (ensureSyncTokenUri calendar.syncToken),
    xmlProp davNs "current-user-principal" (hrefXml ("/caldav/users/" ++ username ++ "/")),
    xmlProp davNs "current-user-privilege-set" calendarPrivileges,
    xmlProp davNs "owner" (hrefXml ("/caldav/users/" ++ username ++ "/")),
    xmlProp davNs "supported-report-set" supportedReportSet]

/-- Properties of a calendar collection with context-aware hrefs. -/
def calendarPropsForContext (ctx : HrefContext) (calendar : Calendar) : List PropValue :=
  let principalHref := match ctx.email with
    | some email => "/calendar/dav/" ++ email ++ "/user/"
    | none => "/caldav/users/" ++ ctx.username ++ "/"
  [xmlProp davNs "resourcetype" "<D:collection/><C:calendar/>",
    textProp davNs "displayname" calendar.name,
    textProp caldavNs "calendar-description" calendar.description,
    textProp appleNs "calendar-color" calendar.color,
    textProp appleNs "calendar-order" "1",
    textProp caldavNs "calendar-timezone" calendar.timezone,
    xmlProp caldavNs "supported-calendar-component-set"
      "<C:comp name=\"VEVENT\"/><C:comp name=\"VTODO\"/>",
    textProp csNs "getctag" (ensureSyncTokenUri calendar.ctag),
    textProp davNs "sync-token" (ensureSyncTokenUri calendar.syncToken),
    xmlProp davNs "current-user-principal" (hrefXml principalHref),
    xmlProp davNs "current-user-privilege-set" calendarPrivileges,
    xmlProp davNs "owner" (hrefXml principalHref),
    xmlProp davNs "supported-report-set" supportedReportSet,
    xmlProp caldavNs "schedule-calendar-transp" "<C:opaque/>",
    xmlProp caldavNs "schedule-default-calendar-URL"
      (hrefXml (calendarHrefForContext ctx calendar.id)),
    textProp davNs "getcontenttype" "text/calendar; charset=utf-8",
    xmlProp davNs "resource-id" (hrefXml ("urn:uuid:" ++ calendar.id))]

/-- Properties of a calendar object. -/
def calendarObjectProps (object : CalendarObject) (includeData : Bool) : List PropValue :=
  [textProp davNs "getetag" object.etag,
    textProp davNs "getcontenttype" "text/calendar; charset=utf-8"] ++
  if includeData then [textProp caldavNs "calendar-data" object.icalData] else []

end CaldavMcp
