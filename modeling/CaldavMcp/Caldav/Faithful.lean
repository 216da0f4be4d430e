/-
  The documents of the server read back.

  For every call with a multistatus answer, `DavCall.meant` says what the answer is to tell its
  reader. The answer's document is what this is written as (`meant_multistatus`), so it is read
  back exactly when the data in it are safe (`faithful_iff`).
-/
import CaldavMcp.Caldav.Meaning

namespace CaldavMcp

open Program
open Markup (Plain isChar isName isInert)

/-! ## Hrefs and tokens -/

/-- The href of a user's home. -/
def homeHref (username : String) : Composed := .single "/caldav/users/" username "/" (by decide)

/-- The href of a principal in a context. -/
def principalHref (ctx : HrefContext) : Composed :=
  match ctx.email with
  | some email => .single "/calendar/dav/" email "/user/" (by decide)
  | none => homeHref ctx.username

/-- The href of a collection in a context. -/
def collectionHref (ctx : HrefContext) (calendarId : String) : Composed :=
  match ctx.email with
  | some email => .double "/calendar/dav/" email "/user/" calendarId "/" (by decide)
  | none => .double "/caldav/users/" ctx.username "/" calendarId "/" (by decide)

/-- The href of an object in a context. -/
def objectHref (ctx : HrefContext) (calendarId uid : String) : Composed :=
  match ctx.email with
  | some email => .triple "/calendar/dav/" email "/user/" calendarId "/" uid ".ics" (by decide)
  | none => .triple "/caldav/users/" ctx.username "/" calendarId "/" uid ".ics" (by decide)

/-- A sync token as a URI. -/
def tokenUri (token : String) : Composed :=
  if ':' ∈ token.toList then .single "" token "" (by decide)
  else .single "data:," token "" (by decide)

theorem collectionHref_text (ctx : HrefContext) (calendarId : String) :
    (collectionHref ctx calendarId).text = calendarHrefForContext ctx calendarId := by
  obtain ⟨email, username⟩ := ctx
  cases email <;> exact Composed.double_text (by decide)

theorem objectHref_text (ctx : HrefContext) (calendarId uid : String) :
    (objectHref ctx calendarId uid).text = calendarObjectHrefForContext ctx calendarId uid := by
  obtain ⟨email, username⟩ := ctx
  cases email <;> exact Composed.triple_text (by decide)

theorem single_text (literal data last : String) (h) :
    (Composed.single literal data last h).text = literal ++ data ++ last := rfl

theorem fixed_text (last : String) (h) : (Composed.fixed last h).text = last := rfl

theorem tokenUri_text (token : String) : (tokenUri token).text = ensureSyncTokenUri token := by
  unfold tokenUri ensureSyncTokenUri
  split
  · rw [single_text, String.append_empty, String.empty_append]
  · rw [single_text, String.append_empty]

/-! ## Properties -/

/-- A text. -/
def textProperty (ns name : String) (c : Composed) : Property := ⟨ns, name, .text c⟩

/-- An href, written as it stands. -/
def hrefProperty (ns name : String) (c : Composed) : Property := ⟨ns, name, .raw "D:href" c⟩

/-- Tags without data. -/
def tagsProperty (ns name : String) (chains : List Chain) : Property := ⟨ns, name, .tags chains⟩

/-- A text that is data as a whole. -/
def dataProperty (ns name data : String) : Property :=
  textProperty ns name (.single "" data "" (by decide))

/-- Tags beside each other. -/
def plainTags (names : List String) : List Chain := names.map fun name => ⟨[], name, []⟩

def reportTags : List Chain :=
  ["C:calendar-multiget", "C:calendar-query", "D:sync-collection"].map fun name =>
    ⟨["D:supported-report", "D:report"], name, []⟩

def privilegeTags (names : List String) : List Chain :=
  names.map fun name => ⟨["D:privilege"], name, []⟩

def componentTags : List Chain :=
  ["VEVENT", "VTODO"].map fun name => ⟨[], "C:comp", [("name", name)]⟩

/-- The properties of the discovery paths. -/
def discoveryProperties : Option User → List Property
  | some user =>
    [tagsProperty davNs "resourcetype" (plainTags ["D:collection"]),
      hrefProperty davNs "current-user-principal" (homeHref user.username),
      textProperty davNs "displayname" (.fixed "CalDAV Server" (by decide))]
  | none =>
    [tagsProperty davNs "resourcetype" (plainTags ["D:collection"]),
      tagsProperty davNs "current-user-principal" (plainTags ["D:unauthenticated"]),
      textProperty davNs "displayname" (.fixed "CalDAV Server" (by decide))]

/-- The properties of a calendar home. -/
def homeProperties (username : String) : List Property :=
  [tagsProperty davNs "resourcetype" (plainTags ["D:collection"]),
    textProperty davNs "displayname" (.single "" username "'s calendars" (by decide)),
    hrefProperty davNs "current-user-principal" (homeHref username)]

/-- The properties of an email home. -/
def emailHomeProperties (username email : String) : List Property :=
  let path := fun last (h : last.toList.all isInert = true) =>
    Composed.single "/calendar/dav/" (encodeEmailForPath email) last ⟨by decide, h⟩
  let home := path "/user/" (by decide)
  [tagsProperty davNs "resourcetype" (plainTags ["D:collection", "D:principal"]),
    dataProperty davNs "displayname" username,
    hrefProperty davNs "current-user-principal" home,
    hrefProperty davNs "principal-URL" home,
    hrefProperty caldavNs "calendar-home-set" home,
    hrefProperty caldavNs "calendar-user-address-set" (.single "mailto:" email "" (by decide)),
    ⟨csNs, "email-address-set", .raw "CS:email-address" (.single "" email "" (by decide))⟩,
    hrefProperty caldavNs "schedule-inbox-URL" (path "/user/inbox/" (by decide)),
    hrefProperty caldavNs "schedule-outbox-URL" (path "/user/outbox/" (by decide)),
    tagsProperty davNs "supported-report-set" reportTags,
    tagsProperty davNs "current-user-privilege-set" (privilegeTags ["D:read", "D:write"]),
    hrefProperty csNs "notification-URL" (path "/user/notifications/" (by decide)),
    hrefProperty csNs "dropbox-home-URL" (path "/user/dropbox/" (by decide)),
    hrefProperty davNs "principal-collection-set" home,
    hrefProperty davNs "resource-id" (.single "urn:uuid:" username "" (by decide)),
    hrefProperty davNs "owner" home]

/-- The properties of a calendar, as the calendar home lists it. -/
def calendarProperties (username : String) (calendar : Calendar) : List Property :=
  [tagsProperty davNs "resourcetype" (plainTags ["D:collection", "C:calendar"]),
    dataProperty davNs "displayname" calendar.name,
    dataProperty caldavNs "calendar-description" calendar.description,
    dataProperty appleNs "calendar-color" calendar.color,
    dataProperty caldavNs "calendar-timezone" calendar.timezone,
    tagsProperty caldavNs "supported-calendar-component-set" componentTags,
    textProperty csNs "getctag" (tokenUri calendar.ctag),
    textProperty davNs "sync-token" (tokenUri calendar.syncToken),
    hrefProperty davNs "current-user-principal" (homeHref username),
    tagsProperty davNs "current-user-privilege-set"
      (privilegeTags ["D:read", "D:write", "D:write-content"]),
    hrefProperty davNs "owner" (homeHref username),
    tagsProperty davNs "supported-report-set" reportTags]

/-- The properties of a calendar with hrefs in a context. -/
def collectionProperties (ctx : HrefContext) (calendar : Calendar) : List Property :=
  [tagsProperty davNs "resourcetype" (plainTags ["D:collection", "C:calendar"]),
    dataProperty davNs "displayname" calendar.name,
    dataProperty caldavNs "calendar-description" calendar.description,
    dataProperty appleNs "calendar-color" calendar.color,
    textProperty appleNs "calendar-order" (.fixed "1" (by decide)),
    dataProperty caldavNs "calendar-timezone" calendar.timezone,
    tagsProperty caldavNs "supported-calendar-component-set" componentTags,
    textProperty csNs "getctag" (tokenUri calendar.ctag),
    textProperty davNs "sync-token" (tokenUri calendar.syncToken),
    hrefProperty davNs "current-user-principal" (principalHref ctx),
    tagsProperty davNs "current-user-privilege-set"
      (privilegeTags ["D:read", "D:write", "D:write-content"]),
    hrefProperty davNs "owner" (principalHref ctx),
    tagsProperty davNs "supported-report-set" reportTags,
    tagsProperty caldavNs "schedule-calendar-transp" (plainTags ["C:opaque"]),
    hrefProperty caldavNs "schedule-default-calendar-URL" (collectionHref ctx calendar.id),
    textProperty davNs "getcontenttype" (.fixed "text/calendar; charset=utf-8" (by decide)),
    hrefProperty davNs "resource-id" (.single "urn:uuid:" calendar.id "" (by decide))]

/-- The properties of an object. -/
def objectProperties (object : CalendarObject) (includeData : Bool) : List Property :=
  [dataProperty davNs "getetag" object.etag,
    textProperty davNs "getcontenttype" (.fixed "text/calendar; charset=utf-8" (by decide))] ++
  if includeData then [dataProperty caldavNs "calendar-data" object.icalData] else []

/-- The properties that a PROPPATCH reports as set. -/
def patchProperties (patch : PropPatch) : List Property :=
  (if patch.name.isSome then [⟨davNs, "displayname", .empty⟩] else []) ++
  (if patch.description.isSome then [⟨caldavNs, "calendar-description", .empty⟩] else []) ++
  (if patch.color.isSome then [⟨appleNs, "calendar-color", .empty⟩] else [])

/-! ### They are the source's -/

theorem textProperty_value (ns name : String) (c : Composed) :
    (textProperty ns name c).value = textProp ns name c.text := rfl

theorem dataProperty_value (ns name data : String) :
    (dataProperty ns name data).value = textProp ns name data := by
  unfold dataProperty
  rw [textProperty_value, single_text, String.append_empty, String.empty_append]

theorem hrefProperty_value (ns name : String) (c : Composed) :
    (hrefProperty ns name c).value = xmlProp ns name (hrefXml c.text) := rfl

theorem tagsProperty_value {ns name xml : String} {chains : List Chain}
    (h : Markup.write (chains.flatMap Chain.pieces) = xml.toList) :
    (tagsProperty ns name chains).value = xmlProp ns name xml := by
  unfold tagsProperty Property.value xmlProp
  dsimp only
  rw [h, String.ofList_toList]

theorem discoveryProperties_value (user : Option User) :
    (discoveryProperties user).map Property.value =
      match user with
      | some user => rootProps user.username
      | none => rootPropsUnauthenticated := by
  have hcollection := @tagsProperty_value davNs "resourcetype" "<D:collection/>"
    (plainTags ["D:collection"]) (by decide)
  have hnobody := @tagsProperty_value davNs "current-user-principal" "<D:unauthenticated/>"
    (plainTags ["D:unauthenticated"]) (by decide)
  cases user with
  | none =>
    simp only [discoveryProperties, List.map_cons, List.map_nil, hcollection, hnobody,
      textProperty_value, fixed_text]
    rfl
  | some user =>
    simp only [discoveryProperties, List.map_cons, List.map_nil, hcollection,
      textProperty_value, fixed_text, hrefProperty_value]
    rfl

theorem homeProperties_value (username : String) :
    (homeProperties username).map Property.value = calendarHomeProps username := by
  have hcollection := @tagsProperty_value davNs "resourcetype" "<D:collection/>"
    (plainTags ["D:collection"]) (by decide)
  simp only [homeProperties, List.map_cons, List.map_nil, hcollection, textProperty_value,
    single_text, String.empty_append, hrefProperty_value]
  rfl

theorem reportTags_written : Markup.write (reportTags.flatMap Chain.pieces) =
    supportedReportSet.toList := by
  decide +kernel

theorem componentTags_written : Markup.write (componentTags.flatMap Chain.pieces) =
    "<C:comp name=\"VEVENT\"/><C:comp name=\"VTODO\"/>".toList := by
  decide +kernel

theorem privilegeTags_written : Markup.write ((privilegeTags ["D:read", "D:write",
    "D:write-content"]).flatMap Chain.pieces) = calendarPrivileges.toList := by
  decide +kernel

theorem emailHomeProperties_value (username email : String) :
    (emailHomeProperties username email).map Property.value =
      emailHomeProps username email (emailHomeHref email) := by
  have hprincipal := @tagsProperty_value davNs "resourcetype" "<D:collection/><D:principal/>"
    (plainTags ["D:collection", "D:principal"]) (by decide)
  have hprivileges := @tagsProperty_value davNs "current-user-privilege-set"
    "<D:privilege><D:read/></D:privilege><D:privilege><D:write/></D:privilege>"
    (privilegeTags ["D:read", "D:write"]) (by decide +kernel)
  have hpath : ∀ last, emailHomeHref email ++ last =
      "/calendar/dav/" ++ encodeEmailForPath email ++ ("/user/" ++ last) := by
    intro last
    unfold emailHomeHref
    simp only [String.append_assoc]
  have haddress : ∀ c : Composed, Property.value ⟨csNs, "email-address-set",
      .raw "CS:email-address" c⟩ = xmlProp csNs "email-address-set"
        ("<CS:email-address>" ++ c.text ++ "</CS:email-address>") := fun _ => rfl
  simp only [emailHomeProperties, List.map_cons, List.map_nil, hprincipal, hprivileges,
    dataProperty_value, hrefProperty_value, haddress, tagsProperty_value reportTags_written,
    single_text, String.append_empty, String.empty_append, emailHomeProps, hpath]
  rfl

theorem calendarProperties_value (username : String) (calendar : Calendar) :
    (calendarProperties username calendar).map Property.value =
      calendarProps username calendar := by
  have hcalendar := @tagsProperty_value davNs "resourcetype" "<D:collection/><C:calendar/>"
    (plainTags ["D:collection", "C:calendar"]) (by decide)
  simp only [calendarProperties, List.map_cons, List.map_nil, hcalendar, dataProperty_value,
    hrefProperty_value, textProperty_value, tokenUri_text,
    tagsProperty_value reportTags_written, tagsProperty_value componentTags_written,
    tagsProperty_value privilegeTags_written]
  rfl

theorem collectionProperties_value (ctx : HrefContext) (calendar : Calendar) :
    (collectionProperties ctx calendar).map Property.value =
      calendarPropsForContext ctx calendar := by
  have hcalendar := @tagsProperty_value davNs "resourcetype" "<D:collection/><C:calendar/>"
    (plainTags ["D:collection", "C:calendar"]) (by decide)
  have hopaque := @tagsProperty_value caldavNs "schedule-calendar-transp" "<C:opaque/>"
    (plainTags ["C:opaque"]) (by decide)
  simp only [collectionProperties, List.map_cons, List.map_nil, hcalendar, hopaque,
    dataProperty_value, hrefProperty_value, textProperty_value, tokenUri_text, fixed_text,
    tagsProperty_value reportTags_written, tagsProperty_value componentTags_written,
    tagsProperty_value privilegeTags_written, collectionHref_text, single_text,
    String.append_empty]
  obtain ⟨email, username⟩ := ctx
  cases email <;> rfl

theorem objectProperties_value (object : CalendarObject) (includeData : Bool) :
    (objectProperties object includeData).map Property.value =
      calendarObjectProps object includeData := by
  cases includeData <;> simp [objectProperties, calendarObjectProps, dataProperty_value,
    textProperty_value, fixed_text]

theorem patchProperties_value (patch : PropPatch) :
    (patchProperties patch).map Property.value = patch.found := by
  obtain ⟨name, description, color⟩ := patch
  cases name <;> cases description <;> cases color <;> rfl

/-! ### Their names are names -/

theorem named_of_all {properties : List Property} (h : properties.all Property.named = true) :
    ∀ p ∈ properties, p.Named :=
  fun p hp => p.named_iff.mp (List.all_eq_true.mp h p hp)

theorem textProperty_named (ns name : String) (c : Composed) :
    (textProperty ns name c).named = isName (prefixName ns name).toList := Bool.and_true _

theorem dataProperty_named (ns name data : String) :
    (dataProperty ns name data).named = isName (prefixName ns name).toList := Bool.and_true _

theorem hrefProperty_named (ns name : String) (c : Composed) :
    (hrefProperty ns name c).named = isName (prefixName ns name).toList := by
  have hhref : isName "D:href".toList = true := by decide
  unfold Property.named hrefProperty
  dsimp only
  rw [hhref, Bool.and_true]
  rfl

theorem tagsProperty_named (ns name : String) (chains : List Chain) :
    (tagsProperty ns name chains).named =
      (isName (prefixName ns name).toList && chains.all Chain.named) := rfl

theorem discoveryProperties_named (user : Option User) :
    ∀ p ∈ discoveryProperties user, p.Named := by
  refine named_of_all ?_
  cases user with
  | none => rfl
  | some user =>
    simp only [discoveryProperties, List.all_cons, List.all_nil, tagsProperty_named,
      hrefProperty_named, textProperty_named]
    decide

theorem homeProperties_named (username : String) : ∀ p ∈ homeProperties username, p.Named := by
  refine named_of_all ?_
  simp only [homeProperties, List.all_cons, List.all_nil, tagsProperty_named,
    hrefProperty_named, textProperty_named]
  decide

theorem emailHomeProperties_named (username email : String) :
    ∀ p ∈ emailHomeProperties username email, p.Named := by
  have haddress : ∀ c : Composed, Property.named ⟨csNs, "email-address-set",
      .raw "CS:email-address" c⟩ = (isName (prefixName csNs "email-address-set").toList &&
        isName "CS:email-address".toList) := fun _ => rfl
  refine named_of_all ?_
  simp only [emailHomeProperties, List.all_cons, List.all_nil, tagsProperty_named,
    hrefProperty_named, dataProperty_named, haddress]
  decide +kernel

theorem calendarProperties_named (username : String) (calendar : Calendar) :
    ∀ p ∈ calendarProperties username calendar, p.Named := by
  refine named_of_all ?_
  simp only [calendarProperties, List.all_cons, List.all_nil, tagsProperty_named,
    hrefProperty_named, textProperty_named, dataProperty_named]
  decide +kernel

theorem collectionProperties_named (ctx : HrefContext) (calendar : Calendar) :
    ∀ p ∈ collectionProperties ctx calendar, p.Named := by
  refine named_of_all ?_
  simp only [collectionProperties, List.all_cons, List.all_nil, tagsProperty_named,
    hrefProperty_named, textProperty_named, dataProperty_named]
  decide +kernel

theorem objectProperties_named (object : CalendarObject) (includeData : Bool) :
    ∀ p ∈ objectProperties object includeData, p.Named := by
  have hetag := dataProperty_named davNs "getetag" object.etag
  have hdata := dataProperty_named caldavNs "calendar-data" object.icalData
  refine named_of_all ?_
  unfold objectProperties
  rw [List.all_append, List.all_cons, List.all_cons, List.all_nil, textProperty_named, hetag]
  cases includeData with
  | false =>
    rw [if_neg Bool.false_ne_true, List.all_nil]
    decide
  | true =>
    rw [if_pos rfl, List.all_cons, List.all_nil, hdata]
    decide

theorem patchProperties_named (patch : PropPatch) : ∀ p ∈ patchProperties patch, p.Named := by
  obtain ⟨name, description, color⟩ := patch
  cases name <;> cases description <;> cases color <;> exact named_of_all rfl

/-! ## Calls -/

/-- The properties that a PROPFIND finds and misses. -/
def filterProperties (request : PropfindRequest) (available : List Property) :
    List Property × List PropRequest :=
  match request with
  | .allProp => (available, [])
  | .propName => (available.map fun p => { p with content := .empty }, [])
  | .props requested =>
    let found := available.filter fun p => requested.any (·.names p.value)
    (found, requested.filter fun r => !found.any (r.names ·.value))

/-- A response to a PROPFIND. -/
def propfindMeant (request : PropfindRequest) (href : Composed) (available : List Property) :
    Entry :=
  ⟨href, (filterProperties request available).1, (filterProperties request available).2⟩

/-- A response for an object in a REPORT. -/
def objectMeant (ctx : HrefContext) (calendarId : String) (includeData : Bool)
    (object : CalendarObject) : Entry :=
  ⟨objectHref ctx calendarId object.uid, objectProperties object includeData, []⟩

/-- A response for a change in a sync-collection. -/
def changeMeant (ctx : HrefContext) (calendarId : String) (includeData : Bool) (t : Tables)
    (change : SyncChange) : Option Entry :=
  if change.changeType = .deleted then
    some ⟨objectHref ctx calendarId change.objectUid, [], []⟩
  else (t.objectByUid calendarId change.objectUid).map fun object =>
    ⟨objectHref ctx calendarId change.objectUid, objectProperties object includeData, []⟩

/-- What a REPORT is to tell. -/
def reportMeant (t : Tables) (ctx : HrefContext) (calendarId : String) :
    ReportRequest → Option Meant
  | .calendarMultiget _ hrefs =>
    some ⟨(multigetRows t calendarId (multigetUids hrefs)).map
      (objectMeant ctx calendarId true), none⟩
  | .calendarQuery _ timeRange =>
    some ⟨(queryRows t calendarId timeRange).map (objectMeant ctx calendarId true), none⟩
  | .syncCollection props syncToken =>
    (t.calendarById calendarId).map fun r =>
      ⟨if syncToken = "" then (orderByDtstart (t.objectsOf calendarId)).map
          (objectMeant ctx calendarId (wantsData props))
        else (changesSince t calendarId syncToken).filterMap
          (changeMeant ctx calendarId (wantsData props) t),
        some (tokenUri r.syncToken)⟩

/-- What an answer is to tell; none when the answer is not a 207. -/
def DavCall.meant (env : Env) (lib : Lib) (w : World) : DavCall → Option Meant
  | .discovery href request =>
    some ⟨[⟨.single "" href "" (by decide), discoveryProperties
      ((inlineAuth lib request.authHeader).run (exec env) w).1, []⟩], none⟩
  | .home user request =>
    some ⟨propfindMeant (propfindOf lib request) (homeHref user.username)
        (homeProperties user.username) ::
      (if request.depth ≥ 1 then w.db.calendarsFor user.id else []).map fun cal =>
        propfindMeant (propfindOf lib request) (collectionHref ⟨none, user.username⟩ cal.id)
          (calendarProperties user.username cal), none⟩
  | .emailHome user email request =>
    some ⟨propfindMeant (propfindOf lib request)
        (principalHref ⟨some (encodeEmailForPath email), user.username⟩)
        (emailHomeProperties user.username email) ::
      (if request.depth ≥ 1 then w.db.calendarsFor user.id else []).map fun cal =>
        propfindMeant (propfindOf lib request)
          (collectionHref ⟨some (encodeEmailForPath email), user.username⟩ cal.id)
          (collectionProperties ⟨some (encodeEmailForPath email), user.username⟩ cal), none⟩
  | .calendar user hrefCtx calendarId request =>
    (w.db.calendarById calendarId).map fun r =>
      ⟨propfindMeant (propfindOf lib request) (collectionHref (contextOf user hrefCtx) r.id)
          (collectionProperties (contextOf user hrefCtx) r) ::
        (if request.depth ≥ 1 then orderByDtstart (w.db.objectsOf r.id) else []).map fun obj =>
          propfindMeant (propfindOf lib request)
            (objectHref (contextOf user hrefCtx) r.id obj.uid) (objectProperties obj false),
        none⟩
  | .proppatch user hrefCtx calendarId request =>
    (w.db.calendarById calendarId).map fun r =>
      ⟨[⟨collectionHref (contextOf user hrefCtx) r.id,
        patchProperties (propPatchOf lib request), []⟩], none⟩
  | .report ctx calendarId body => reportMeant w.db.toTables ctx calendarId body

/-! ### What is meant is what is written -/

theorem filterProperties_value (request : PropfindRequest) (available : List Property) :
    filterProps request (available.map Property.value) =
      ((filterProperties request available).1.map Property.value,
        (filterProperties request available).2.map PropRequest.missingName) := by
  cases request with
  | allProp => rfl
  | propName =>
    unfold filterProps filterProperties
    simp only [List.map_map, List.map_nil, Prod.mk.injEq, and_true]
    rfl
  | props requested =>
    unfold filterProps filterProperties
    dsimp only
    rw [List.filter_map]
    refine Prod.ext rfl ?_
    dsimp only
    refine congrArg (List.map _) (List.filter_congr fun r _ => ?_)
    rw [List.any_map]
    rfl

theorem propfindMeant_response {request : PropfindRequest} {href : Composed}
    {available : List Property} {props : List PropValue}
    (h : available.map Property.value = props) :
    (propfindMeant request href available).response =
      propfindEntry request href.text props := by
  unfold propfindMeant Entry.response propfindEntry
  rw [← h, filterProperties_value]

theorem propfindMeant_named {request : PropfindRequest} {href : Composed}
    {available : List Property} (h : ∀ p ∈ available, p.Named) :
    (propfindMeant request href available).Named := by
  unfold propfindMeant Entry.Named filterProperties
  dsimp only
  cases request with
  | allProp => exact h
  | propName =>
    intro p hp
    obtain ⟨q, hq, rfl⟩ := List.mem_map.mp hp
    exact ⟨(h q hq).1, trivial⟩
  | props requested => exact fun p hp => h p (List.mem_filter.mp hp).1

theorem objectMeant_response (ctx : HrefContext) (calendarId : String) (includeData : Bool)
    (object : CalendarObject) : (objectMeant ctx calendarId includeData object).response =
      objectEntry ctx calendarId includeData object := by
  unfold objectMeant Entry.response objectEntry
  dsimp only
  rw [objectHref_text, objectProperties_value, List.map_nil]

theorem changeMeant_response (ctx : HrefContext) (calendarId : String) (includeData : Bool)
    (t : Tables) (change : SyncChange) :
    (changeMeant ctx calendarId includeData t change).map Entry.response =
      deltaEntry ctx calendarId includeData t change := by
  unfold changeMeant deltaEntry
  dsimp only
  split
  · simp only [Option.map_some, Entry.response, objectHref_text, List.map_nil]
  · rw [Option.map_map]
    refine congrArg (fun f => Option.map f _) (funext fun object => ?_)
    simp only [Function.comp_apply, Entry.response, objectHref_text, objectProperties_value,
      List.map_nil]

theorem reportMeant_multistatus (t : Tables) (ctx : HrefContext) (calendarId : String)
    (body : ReportRequest) : (reportMeant t ctx calendarId body).map Meant.multistatus =
      reportDocument t ctx calendarId body := by
  have hobjects : ∀ (includeData : Bool) (rows : List CalendarObject),
      (rows.map (objectMeant ctx calendarId includeData)).map Entry.response =
        rows.map (objectEntry ctx calendarId includeData) := by
    intro includeData rows
    rw [List.map_map]
    exact List.map_congr_left fun o _ => objectMeant_response ctx calendarId includeData o
  cases body with
  | calendarMultiget props hrefs =>
    unfold reportMeant reportDocument Meant.multistatus
    dsimp only [Option.map_some, Option.map_none]
    rw [hobjects]
  | calendarQuery props timeRange =>
    unfold reportMeant reportDocument Meant.multistatus
    dsimp only [Option.map_some, Option.map_none]
    rw [hobjects]
  | syncCollection props syncToken =>
    unfold reportMeant reportDocument
    dsimp only
    rw [Option.map_map]
    refine congrArg (fun f => Option.map f _) (funext fun r => ?_)
    unfold Function.comp Meant.multistatus syncAnswer
    dsimp only [Option.map_some]
    rw [tokenUri_text]
    split
    · rw [hobjects]
    · rw [List.map_filterMap]
      have hchange : (fun c => (changeMeant ctx calendarId (wantsData props) t c).map
          Entry.response) = deltaEntry ctx calendarId (wantsData props) t :=
        funext fun c => changeMeant_response ctx calendarId (wantsData props) t c
      rw [hchange]

section

variable {env : Env} {lib : Lib} {w : World}

/-- The answer's document is what is meant, written. -/
theorem DavCall.meant_multistatus (q : DavCall) :
    (q.meant env lib w).map Meant.multistatus = q.document env lib w := by
  cases q with
  | discovery href request =>
    unfold DavCall.meant DavCall.document Meant.multistatus Entry.response discoveryProps
    dsimp only [Option.map_some, Option.map_none]
    rw [List.map_cons, List.map_nil, discoveryProperties_value, single_text, String.append_empty, String.empty_append]
    rfl
  | home user request =>
    unfold DavCall.meant DavCall.document Meant.multistatus
    dsimp only [Option.map_some, Option.map_none]
    rw [List.map_cons, propfindMeant_response (homeProperties_value _), List.map_map]
    refine congrArg some (congrArg₂ Multistatus.mk (congrArg₂ List.cons rfl ?_) rfl)
    refine List.map_congr_left fun cal _ => ?_
    dsimp only [Function.comp_apply]
    rw [propfindMeant_response (calendarProperties_value _ _), collectionHref_text]
    rfl
  | emailHome user email request =>
    unfold DavCall.meant DavCall.document Meant.multistatus
    dsimp only [Option.map_some, Option.map_none]
    rw [List.map_cons, propfindMeant_response (emailHomeProperties_value _ _), List.map_map]
    refine congrArg some (congrArg₂ Multistatus.mk (congrArg₂ List.cons rfl ?_) rfl)
    refine List.map_congr_left fun cal _ => ?_
    dsimp only [Function.comp_apply]
    rw [propfindMeant_response (collectionProperties_value _ _), collectionHref_text]
  | calendar user hrefCtx calendarId request =>
    unfold DavCall.meant DavCall.document
    dsimp only
    rw [Option.map_map]
    refine congrArg (fun f => Option.map f _) (funext fun r => ?_)
    unfold Function.comp Meant.multistatus
    dsimp only [Option.map_none]
    rw [List.map_cons, propfindMeant_response (collectionProperties_value _ _),
      collectionHref_text, List.map_map]
    refine congrArg₂ Multistatus.mk (congrArg₂ List.cons rfl ?_) rfl
    refine List.map_congr_left fun obj _ => ?_
    dsimp only [Function.comp_apply]
    rw [propfindMeant_response (objectProperties_value _ _), objectHref_text]
  | proppatch user hrefCtx calendarId request =>
    unfold DavCall.meant DavCall.document
    dsimp only
    rw [Option.map_map]
    refine congrArg (fun f => Option.map f _) (funext fun r => ?_)
    unfold Function.comp Meant.multistatus Entry.response
    dsimp only [Option.map_none]
    rw [List.map_cons, List.map_nil, patchProperties_value, collectionHref_text]
    rfl
  | report ctx calendarId body => exact reportMeant_multistatus _ _ _ _

/-- The literal names in what is meant are names. -/
theorem DavCall.meant_named {q : DavCall} {m : Meant} (h : q.meant env lib w = some m) :
    ∀ e ∈ m.entries, e.Named := by
  cases q with
  | discovery href request =>
    rw [← Option.some.inj h, List.forall_mem_singleton]
    exact discoveryProperties_named _
  | home user request =>
    rw [← Option.some.inj h, List.forall_mem_cons, List.forall_mem_map]
    exact ⟨propfindMeant_named (homeProperties_named _),
      fun cal _ => propfindMeant_named (calendarProperties_named _ _)⟩
  | emailHome user email request =>
    rw [← Option.some.inj h, List.forall_mem_cons, List.forall_mem_map]
    exact ⟨propfindMeant_named (emailHomeProperties_named _ _),
      fun cal _ => propfindMeant_named (collectionProperties_named _ _)⟩
  | calendar user hrefCtx calendarId request =>
    obtain ⟨r, -, rfl⟩ := Option.map_eq_some_iff.mp h
    rw [List.forall_mem_cons, List.forall_mem_map]
    exact ⟨propfindMeant_named (collectionProperties_named _ _),
      fun obj _ => propfindMeant_named (objectProperties_named _ _)⟩
  | proppatch user hrefCtx calendarId request =>
    obtain ⟨r, -, rfl⟩ := Option.map_eq_some_iff.mp h
    rw [List.forall_mem_singleton]
    exact patchProperties_named _
  | report ctx calendarId body =>
    cases body with
    | calendarMultiget props hrefs =>
      rw [← Option.some.inj h, List.forall_mem_map]
      exact fun o _ => objectProperties_named _ _
    | calendarQuery props timeRange =>
      rw [← Option.some.inj h, List.forall_mem_map]
      exact fun o _ => objectProperties_named _ _
    | syncCollection props syncToken =>
      obtain ⟨r, -, rfl⟩ := Option.map_eq_some_iff.mp h
      dsimp only
      split
      · rw [List.forall_mem_map]
        exact fun o _ => objectProperties_named _ _
      · intro e he
        obtain ⟨change, -, hchange⟩ := List.mem_filterMap.mp he
        unfold changeMeant at hchange
        split at hchange
        · rw [← Option.some.inj hchange]
          nofun
        · obtain ⟨o, -, rfl⟩ := Option.map_eq_some_iff.mp hchange
          exact objectProperties_named _ _

end

/-- The document of an answer is well formed, and its reader finds in it what is meant. -/
def DavCall.Faithful (env : Env) (lib : Lib) (w : World) (q : DavCall) (doc : Multistatus) :
    Prop :=
  ∃ m, q.meant env lib w = some m ∧ Markup.read doc.build.toList = some m.node

/-- All data that the answer tells can be written the way they are. -/
def DavCall.Safe (env : Env) (lib : Lib) (w : World) (q : DavCall) : Prop :=
  ∀ m, q.meant env lib w = some m → m.Safe

/-- **Well-formed documents.** In every state, a PROPFIND, PROPPATCH or REPORT that is answered
    with a multistatus document is answered with a well-formed one that is read back as it is
    meant, exactly when its data are safe: what is written as it stands has no markup, all data
    consist of XML characters, and the properties that are missing have names. -/
theorem faithful_iff (env : Env) (lib : Lib) (w : World) (q : DavCall) (doc : Multistatus)
    (hdoc : ((q.handler lib).run (exec env) w).1.document? = some doc) :
    q.Faithful env lib w doc ↔ q.Safe env lib w := by
  rw [DavCall.document_eq, ← DavCall.meant_multistatus] at hdoc
  obtain ⟨m, hm, rfl⟩ := Option.map_eq_some_iff.mp hdoc
  have hread := Meant.read_iff (DavCall.meant_named hm)
  constructor
  · rintro ⟨m', hm', hfound⟩ m'' hm''
    rw [hm] at hm' hm''
    obtain rfl := Option.some.inj hm'
    obtain rfl := Option.some.inj hm''
    exact hread.mp hfound
  · exact fun hsafe => ⟨m, hm, hread.mpr (hsafe m hm)⟩

/-- Alice's home is told to its reader. -/
theorem faithful_iff_home : ∃ doc,
    (((DavCall.home alice plainRequest).handler sampleLib).run (exec countingEnv)
      foundedWorld).1.document? = some doc ∧
    (DavCall.home alice plainRequest).Faithful countingEnv sampleLib foundedWorld doc := by
  have hdoc : (((DavCall.home alice plainRequest).handler sampleLib).run (exec countingEnv)
      foundedWorld).1.document? = some ⟨[⟨"/caldav/users/alice/", calendarHomeProps "alice", []⟩],
        none⟩ := by
    rw [DavCall.document_eq]
    rfl
  refine ⟨_, hdoc, (faithful_iff _ _ _ _ _ hdoc).mpr fun m hm => ?_⟩
  have halice : Plain "alice".toList := Markup.plain_of_inert (by decide)
  have hmeant : m = ⟨[⟨homeHref "alice", homeProperties "alice", []⟩], none⟩ :=
    (Option.some.inj hm).symm
  have hchars : ∀ part ∈ [("/caldav/users/", "alice")], ∀ d ∈ part.2.toList, isChar d = true := by
    rw [List.forall_mem_singleton]
    exact halice.chars
  rw [hmeant]
  refine ⟨?_, nofun⟩
  rw [List.forall_mem_singleton]
  refine ⟨hchars, ?_, nofun⟩
  simp only [homeProperties, List.forall_mem_cons]
  refine ⟨trivial, ?_, ?_, nofun⟩
  · exact List.forall_mem_singleton.mpr halice.chars
  · exact List.forall_mem_singleton.mpr halice

/-- Alice makes a calendar at the path `a%26b`. -/
def ampersandWorld : World :=
  ((handleMkcalendar sampleLib alice "alice" "a&b" ⟨"MKCALENDAR", [], ByteArray.empty⟩).run
    (exec countingEnv) foundedWorld).2

theorem ampersandWorld_reachable : Reachable countingEnv sampleLib ampersandWorld :=
  .call (.createCalendarWithId "a&b" (countingEnv.uuid 0) "a&b" "" "#0E61B9" "UTC")
    foundedWorld_reachable

/-- A PROPFIND of that calendar has a bare ampersand in it. -/
theorem ampersand_garbled : ¬ ∀ (env : Env) (lib : Lib), Function.Injective env.uuid →
    ∀ w, Reachable env lib w → ∀ (q : DavCall) (doc : Multistatus),
      ((q.handler lib).run (exec env) w).1.document? = some doc → q.Faithful env lib w doc := by
  intro h
  obtain ⟨m, hm⟩ : ∃ m, (DavCall.calendar alice none "a&b" plainRequest).meant countingEnv
    sampleLib ampersandWorld = some m := ⟨_, rfl⟩
  obtain ⟨m', hm', hread⟩ := h countingEnv sampleLib countingEnv_uuid_injective ampersandWorld
    ampersandWorld_reachable (.calendar alice none "a&b" plainRequest) m.multistatus (by
      rw [DavCall.document_eq, ← DavCall.meant_multistatus, hm]
      rfl)
  rw [hm] at hm'
  rw [← Option.some.inj hm'] at hread
  have hsafe := (Meant.read_iff (DavCall.meant_named hm)).mp hread
  unfold DavCall.meant at hm
  dsimp only at hm
  obtain ⟨r, hr, rfl⟩ := Option.map_eq_some_iff.mp hm
  have hall : propfindOf sampleLib plainRequest = .allProp := rfl
  have hid : r.id = "a&b" := Tables.calendarById_id hr
  have hresource := (hsafe.entries _ List.mem_cons_self).found
    (hrefProperty davNs "resource-id" (.single "urn:uuid:" r.id "" (by decide)))
    (by
      rw [hall]
      unfold propfindMeant filterProperties collectionProperties
      simp only [List.mem_cons, List.not_mem_nil, or_false, or_true])
  have hplain : Plain r.id.toList := hresource _ (List.mem_singleton.mpr rfl)
  rw [hid] at hplain
  exact hplain.noReference (by decide)

end CaldavMcp
