/-
  The hrefs of an answer, followed by the client that got it.

  An href is put together from the user's name or email, the calendar id and the uid as they
  are; only the `@` of an email is escaped. The router reads it back segment by segment, and
  calendar-multiget with its own decoder. `dereferences_iff` says exactly when the two ways back
  lead to the object the href was written for: the id has no slash and no escape, the uid no
  slash, no `%` but at its end and no `.ics` at its end, and the user's segment leads to somebody
  who may use the calendar.
-/
import CaldavMcp.Caldav.Documents
import CaldavMcp.Caldav.Resources
import CaldavMcp.Caldav.Paths

namespace CaldavMcp

open Program

/-! ## Paths -/

/-- The href context the handlers get for a path. -/
def PathUser.hrefCtx (p : PathUser) (user : User) : Option HrefContext :=
  match p with
  | .username _ => none
  | .email address => some ⟨some (encodeEmailForPath address), user.username⟩

/-- The segment that stands for the user in the hrefs of an answer. -/
def PathUser.segment (p : PathUser) (user : User) : String :=
  match p with
  | .username _ => user.username
  | .email address => encodeEmailForPath address

/-- The user named by a segment that has been decoded. -/
def PathUser.named (p : PathUser) (name : String) : PathUser :=
  match p with
  | .username _ => .username name
  | .email _ => .email name

/-- The path of an object, or of the calendar when there is no filename. -/
def PathUser.path (p : PathUser) (segment calendarId filename : String) : String :=
  match p with
  | .username _ => "/caldav/users/" ++ (segment ++ ("/" ++ (calendarId ++ ("/" ++ filename))))
  | .email _ => "/calendar/dav/" ++ segment ++ "/user/" ++ (calendarId ++ ("/" ++ filename))

section

variable {p : PathUser} {user : User} {segment calendarId filename uid : String}

theorem calendarHref_path (p : PathUser) (user : User) (calendarId : String) :
    calendarHrefForContext (contextOf user (p.hrefCtx user)) calendarId =
      p.path (p.segment user) calendarId "" := by
  cases p with
  | username name =>
    show "/caldav/users/" ++ user.username ++ "/" ++ calendarId ++ "/" =
      "/caldav/users/" ++ (user.username ++ ("/" ++ (calendarId ++ ("/" ++ ""))))
    simp only [String.append_assoc, String.append_empty]
  | email address =>
    show "/calendar/dav/" ++ encodeEmailForPath address ++ "/user/" ++ calendarId ++ "/" =
      "/calendar/dav/" ++ encodeEmailForPath address ++ "/user/" ++ (calendarId ++ ("/" ++ ""))
    simp only [String.append_assoc, String.append_empty]

theorem objectHref_path (p : PathUser) (user : User) (calendarId uid : String) :
    calendarObjectHrefForContext (contextOf user (p.hrefCtx user)) calendarId uid =
      p.path (p.segment user) calendarId (uid ++ ".ics") := by
  cases p with
  | username name =>
    show "/caldav/users/" ++ user.username ++ "/" ++ calendarId ++ "/" ++ uid ++ ".ics" =
      "/caldav/users/" ++ (user.username ++ ("/" ++ (calendarId ++ ("/" ++ (uid ++ ".ics")))))
    simp only [String.append_assoc]
  | email address =>
    show "/calendar/dav/" ++ encodeEmailForPath address ++ "/user/" ++ calendarId ++ "/" ++ uid ++
      ".ics" = "/calendar/dav/" ++ encodeEmailForPath address ++ "/user/" ++
        (calendarId ++ ("/" ++ (uid ++ ".ics")))
    simp only [String.append_assoc]

theorem splitAll_slash (a b : String) :
    Text.splitAll '/' (a ++ ("/" ++ b)).toList =
      Text.splitAll '/' a.toList ++ Text.splitAll '/' b.toList := by
  rw [String.toList_append, String.toList_append]
  exact Text.splitAll_append a.toList b.toList

theorem slash_mem (a b : String) : '/' ∈ (a ++ ("/" ++ b)).toList := by simp

/-- No segment has a slash. -/
def Unsplit (segment calendarId filename : String) : Prop :=
  '/' ∉ segment.toList ∧ '/' ∉ calendarId.toList ∧ '/' ∉ filename.toList

instance : Decidable (Unsplit segment calendarId filename) :=
  inferInstanceAs (Decidable (_ ∧ _ ∧ _))

/-- Where a path leads. -/
theorem routeOf_path (p : PathUser) (segment calendarId filename : String) :
    routeOf (p.path segment calendarId filename) =
      if Unsplit segment calendarId filename then
        if filename = "" then
          do return (p.named (← param segment)).collection (← param calendarId)
        else do return (p.named (← param segment)).object (← param calendarId) (← param filename)
      else none := by
  have hcount : ∀ s : String, '/' ∈ s.toList → 2 ≤ (Text.splitAll '/' s.toList).length := by
    intro s hs
    rw [Text.splitAll_length]
    have := List.count_pos_iff.mpr hs
    omega
  have hpos : ∀ s : String, 1 ≤ (Text.splitAll '/' s.toList).length := by
    intro s
    rw [Text.splitAll_length]
    omega
  have h1 := hpos segment
  have h2 := hpos calendarId
  have h3 := hpos filename
  by_cases hu : Unsplit segment calendarId filename
  · obtain ⟨hs, hc, hf⟩ := hu
    rw [if_pos ⟨hs, hc, hf⟩]
    cases p with
    | username name =>
      unfold PathUser.path
      dsimp only
      rw [routeOf_users, splitAll_slash, splitAll_slash, Text.splitAll_of_not_mem hs,
        Text.splitAll_of_not_mem hc, Text.splitAll_of_not_mem hf]
      simp [userRoute, PathUser.named, PathUser.collection, PathUser.object]
    | email address =>
      unfold PathUser.path
      dsimp only
      rw [routeOf_email hs, splitAll_slash, Text.splitAll_of_not_mem hc,
        Text.splitAll_of_not_mem hf]
      simp [emailRoute, PathUser.named, PathUser.collection, PathUser.object]
  · rw [if_neg hu]
    cases p with
    | username name =>
      unfold PathUser.path
      dsimp only
      rw [routeOf_users, splitAll_slash, splitAll_slash]
      refine userRoute_long ?_
      rw [List.length_map, List.length_append, List.length_append]
      by_cases hs : '/' ∈ segment.toList
      · have := hcount segment hs
        omega
      · by_cases hc : '/' ∈ calendarId.toList
        · have := hcount calendarId hc
          omega
        · have := hcount filename (of_not_not fun hf => hu ⟨hs, hc, hf⟩)
          omega
    | email address =>
      unfold PathUser.path
      dsimp only
      by_cases hs : '/' ∈ segment.toList
      · exact routeOf_email_slash hs (slash_mem ..)
      · rw [routeOf_email hs, splitAll_slash]
        refine emailRoute_long ?_
        rw [List.length_map, List.length_append]
        by_cases hc : '/' ∈ calendarId.toList
        · have := hcount calendarId hc
          omega
        · have := hcount filename (of_not_not fun hf => hu ⟨hs, hc, hf⟩)
          omega

/-! ## Uids -/

/-- A uid that both ways of reading an href give back. -/
structure PlainUid (uid : String) : Prop where
  slash : '/' ∉ uid.toList
  percent : '%' ∉ uid.toList.dropLast
  ending : ¬ ".ics".toList <:+ uid.toList

theorem trimEnds_filename : (uid ++ ".ics").trimEnds ".ics" = uid ↔
    ¬ ".ics".toList <:+ uid.toList := by
  have hp : ".ics".toList ≠ [] := by decide
  unfold String.trimEnds
  rw [String.toList_append, Text.trimEndMatches_append hp, ← Text.trimEndMatches_eq_self hp]
  constructor
  · intro h
    rw [← String.toList_ofList (l := Text.trimEndMatches ".ics".toList uid.toList), h]
  · intro h
    rw [h, String.ofList_toList]

theorem escapes_append {s : List Char} (h : '%' ∉ s) (rest : List Char) :
    escapes (s ++ rest) = escapes rest := by
  induction s with
  | nil => rfl
  | cons c s ih =>
    rw [List.mem_cons, not_or] at h
    have hat : escapeAt c (s ++ rest) = none := if_neg (Ne.symm h.1)
    show ((escapeAt c (s ++ rest)).isSome || escapes (s ++ rest)) = escapes rest
    rw [hat, ih h.2]
    exact Bool.false_or _

theorem escapes_filename (h : '%' ∉ uid.toList.dropLast) :
    escapes (uid ++ ".ics").toList = false := by
  rw [String.toList_append]
  cases hu : uid.toList using List.reverseRecOn with
  | nil => decide
  | append_singleton s c _ =>
    rw [hu, List.dropLast_concat] at h
    rw [List.append_assoc, escapes_append h]
    have hat : escapeAt c ".ics".toList = none := by
      unfold escapeAt
      split <;> rfl
    show ((escapeAt c ".ics".toList).isSome || escapes ".ics".toList) = false
    rw [hat]
    decide

/-- The uid a multiget takes from an object's href. -/
theorem mem_multigetUids_path (p : PathUser) (segment calendarId uid : String) :
    uid ∈ multigetUids [p.path segment calendarId (uid ++ ".ics")] ↔
      '/' ∉ uid.toList ∧ '%' ∉ uid.toList.dropLast := by
  have hlast : Text.afterLast '/' (p.path segment calendarId (uid ++ ".ics")).toList =
      Text.afterLast '/' (uid.toList ++ ".ics".toList) := by
    have hpath : ∃ start : String, p.path segment calendarId (uid ++ ".ics") =
        start ++ ("/" ++ (uid ++ ".ics")) := by
      cases p with
      | username name =>
        refine ⟨"/caldav/users/" ++ segment ++ "/" ++ calendarId, ?_⟩
        simp only [PathUser.path, String.append_assoc]
      | email address =>
        refine ⟨"/calendar/dav/" ++ segment ++ "/user/" ++ calendarId, ?_⟩
        simp only [PathUser.path, String.append_assoc]
    obtain ⟨start, hpath⟩ := hpath
    rw [hpath, String.toList_append, String.toList_append, String.toList_append]
    exact Text.afterLast_append '/' start.toList _
  have hmem : uid ∈ multigetUids [p.path segment calendarId (uid ++ ".ics")] ↔
      ∃ r, Text.afterLast '/' (uid.toList ++ ".ics".toList) = r ++ ".ics".toList ∧
        percentDecode r = uid.toList := by
    unfold multigetUids
    simp only [List.mem_filterMap, List.mem_singleton, exists_eq_left, hlast,
      Option.map_eq_some_iff, Text.stripSuffix?_eq_some]
    refine exists_congr fun r => and_congr_right fun _ => ?_
    constructor
    · intro h
      rw [← h, String.toList_ofList]
    · intro h
      rw [h, String.ofList_toList]
  rw [hmem]
  by_cases hs : '/' ∈ uid.toList
  · -- what follows the last slash is too short
    refine iff_of_false ?_ fun h => h.1 hs
    rintro ⟨r, hr, hdecode⟩
    have hlt := Text.afterLast_length_lt (List.mem_append_left ".ics".toList hs)
    have hle := percentDecode_length_le r
    rw [hr, List.length_append, List.length_append] at hlt
    rw [hdecode] at hle
    omega
  · have hslash : '/' ∉ uid.toList ++ ".ics".toList := by
      rw [List.mem_append, not_or]
      exact ⟨hs, by decide⟩
    rw [Text.afterLast_of_not_mem hslash]
    constructor
    · rintro ⟨r, hr, hdecode⟩
      rw [← List.append_cancel_right hr] at hdecode
      exact ⟨hs, percentDecode_eq_self.mp hdecode⟩
    · intro h
      exact ⟨uid.toList, rfl, percentDecode_eq_self.mpr h.2⟩

end

/-! ## Following an href -/

/-- A PROPFIND with Depth 1, or a REPORT, of the calendar by a client on this path. -/
def DavCall.Lists (p : PathUser) (user : User) (calendarId : String) : DavCall → Prop
  | .calendar user' hrefCtx calendarId' request =>
    user' = user ∧ hrefCtx = p.hrefCtx user ∧ calendarId' = calendarId ∧ request.depth = 1
  | .report ctx calendarId' _ => ctx = contextOf user (p.hrefCtx user) ∧ calendarId' = calendarId
  | _ => False

/-- A GET of the href by the same client is answered with the object. -/
def GetsObject (env : Env) (lib : Lib) (w : World) (request : Request) (href : String)
    (o : CalendarObject) : Prop :=
  ∃ (p : PathUser) (filename : String), routeOf href = some (p.object o.calendarId filename) ∧
    filename.trimEnds ".ics" = o.uid ∧
    (send env lib p request o.calendarId filename "GET" w).1 =
      .response ⟨200, [("content-type", "text/calendar; charset=utf-8"), ("etag", o.etag)],
        .text o.icalData⟩

/-- A calendar-multiget that names the href is answered with the object. -/
def MultigetsObject (env : Env) (w : World) (ctx : HrefContext) (calendarId href : String)
    (o : CalendarObject) : Prop :=
  ∀ hrefs, href ∈ hrefs →
    ∃ doc, ((handleMultiget ctx calendarId hrefs).run (exec env) w).1.document? = some doc ∧
      objectEntry ctx calendarId true o ∈ doc.responses

/-- The hrefs of the calendar and of every object an answer lists lead back to them. -/
structure Dereferences (env : Env) (lib : Lib) (w : World) (p : PathUser) (request : Request)
    (user : User) (calendarId : String) : Prop where
  calendar : ∃ p', routeOf (calendarHrefForContext (contextOf user (p.hrefCtx user)) calendarId) =
    some (PathUser.collection p' calendarId)
  objects : ∀ q : DavCall, q.Lists p user calendarId → ∀ doc,
    ((q.handler lib).run (exec env) w).1.document? = some doc → ∀ e ∈ doc.responses,
    ∀ o ∈ w.db.objectsOf calendarId,
      e.href = calendarObjectHrefForContext (contextOf user (p.hrefCtx user)) calendarId o.uid →
      GetsObject env lib w request e.href o ∧
        MultigetsObject env w (contextOf user (p.hrefCtx user)) calendarId e.href o

/-- The names an href is made of are read back as they are. -/
structure ReadsBack (env : Env) (lib : Lib) (w : World) (p : PathUser) (request : Request)
    (user : User) (calendarId : String) : Prop where
  segment : '/' ∉ (p.segment user).toList
  user : ∃ name, param (p.segment user) = some name ∧ (w.db.objectsOf calendarId ≠ [] →
    Admitted env lib w (p.named name) request calendarId)
  calendar : calendarId ≠ "" ∧ '/' ∉ calendarId.toList ∧ escapes calendarId.toList = false
  uids : ∀ o ∈ w.db.objectsOf calendarId, PlainUid o.uid

section

variable {env : Env} {lib : Lib} {w : World} {p : PathUser} {request : Request} {user : User}
  {calendarId : String}

theorem param_eq_self {s : String} : param s = some s ↔ s ≠ "" ∧ escapes s.toList = false := by
  unfold param
  by_cases hs : s = ""
  · rw [if_pos hs]
    exact iff_of_false nofun fun h => h.1 hs
  · rw [if_neg hs, decodeSegment_eq_self, and_iff_right hs]

/-- A filename without an escape is read as it is. -/
theorem param_filename {uid : String} (h : '%' ∉ uid.toList.dropLast) :
    param (uid ++ ".ics") = some (uid ++ ".ics") := by
  refine param_eq_self.mpr ⟨fun hnil => ?_, escapes_filename h⟩
  have hlength := congrArg (fun s : String => s.toList.length) hnil
  simp at hlength

theorem PathUser.collection_inj {p p' : PathUser} {calendarId calendarId' : String}
    (h : p.collection calendarId = p'.collection calendarId') :
    p = p' ∧ calendarId = calendarId' := by
  cases p <;> cases p' <;> cases h <;> exact ⟨rfl, rfl⟩

theorem PathUser.object_inj {p p' : PathUser} {calendarId calendarId' filename filename' : String}
    (h : p.object calendarId filename = p'.object calendarId' filename') :
    p = p' ∧ calendarId = calendarId' ∧ filename = filename' := by
  cases p <;> cases p' <;> cases h <;> exact ⟨rfl, rfl, rfl⟩

/-- The href of a calendar leads back to it. -/
theorem routeOf_calendarHref (p : PathUser) (segment calendarId : String) :
    (∃ p' : PathUser, routeOf (p.path segment calendarId "") = some (p'.collection calendarId)) ↔
      ('/' ∉ segment.toList ∧ ∃ name, param segment = some name) ∧
        calendarId ≠ "" ∧ '/' ∉ calendarId.toList ∧ escapes calendarId.toList = false := by
  rw [routeOf_path]
  by_cases hu : Unsplit segment calendarId ""
  · rw [if_pos hu, if_pos rfl]
    have hself := @param_eq_self calendarId
    cases hs : param segment with
    | none => exact iff_of_false nofun fun ⟨⟨_, _, h⟩, _⟩ => nomatch h
    | some name =>
      constructor
      · rintro ⟨p', h⟩
        obtain ⟨name', hname, h⟩ := Option.bind_eq_some_iff.mp h
        obtain ⟨c, hc, h⟩ := Option.bind_eq_some_iff.mp h
        rw [(PathUser.collection_inj (Option.some.inj h)).2] at hc
        exact ⟨⟨hu.1, name, rfl⟩, (hself.mp hc).1, hu.2.1, (hself.mp hc).2⟩
      · rintro ⟨-, hne, -, he⟩
        refine ⟨p.named name, ?_⟩
        rw [hself.mpr ⟨hne, he⟩]
        rfl
  · rw [if_neg hu]
    exact iff_of_false nofun fun h => hu ⟨h.1.1, h.2.2.1, by decide⟩

/-- Where the href of an object leads. -/
theorem routeOf_objectHref {p p' : PathUser} {segment calendarId uid filename : String} :
    routeOf (p.path segment calendarId (uid ++ ".ics")) =
        some (p'.object calendarId filename) ↔
      Unsplit segment calendarId (uid ++ ".ics") ∧
        (∃ name, param segment = some name ∧ p' = p.named name) ∧
        param calendarId = some calendarId ∧ param (uid ++ ".ics") = some filename := by
  have hfilename : uid ++ ".ics" ≠ "" := by
    intro h
    have hlength := congrArg (fun s : String => s.toList.length) h
    simp at hlength
  rw [routeOf_path]
  by_cases hu : Unsplit segment calendarId (uid ++ ".ics")
  · rw [if_pos hu, if_neg hfilename]
    constructor
    · intro h
      obtain ⟨name, hname, h⟩ := Option.bind_eq_some_iff.mp h
      obtain ⟨c, hc, h⟩ := Option.bind_eq_some_iff.mp h
      obtain ⟨f, hf, h⟩ := Option.bind_eq_some_iff.mp h
      obtain ⟨hp, rfl, rfl⟩ := PathUser.object_inj (Option.some.inj h)
      exact ⟨hu, ⟨name, hname, hp.symm⟩, hc, hf⟩
    · rintro ⟨-, ⟨name, hname, rfl⟩, hc, hf⟩
      rw [hname, hc, hf]
      rfl
  · rw [if_neg hu]
    exact iff_of_false nofun fun h => hu h.1

/-- A GET is answered with an object that has the uid of its filename. -/
theorem send_get_object {filename : String} {o : CalendarObject}
    (h : (send env lib p request calendarId filename "GET" w).1 =
      .response ⟨200, [("content-type", "text/calendar; charset=utf-8"), ("etag", o.etag)],
        .text o.icalData⟩) : Admitted env lib w p request calendarId := by
  by_contra hn
  unfold send at h
  rcases @handle_not_admitted env lib w p request calendarId filename hn "GET" (by decide)
    with h' | h'
  · rw [h'] at h
    simp [unauthorizedResponse] at h
  · rw [h'] at h
    simp [accessDenied, plain] at h

/-- A multiget selects the objects of the calendar with the given uids. -/
theorem mem_multigetRows {t : Tables} {uids : List String} {o : CalendarObject} :
    o ∈ multigetRows t calendarId uids ↔ o ∈ t.objectsOf calendarId ∧ o.uid ∈ uids := by
  unfold multigetRows
  cases uids with
  | nil => simp
  | cons uid uids =>
    rw [if_neg (by simp)]
    refine (List.perm_insertionSort _ _).mem_iff.trans ?_
    rw [List.mem_filter]
    simp

/-- A multiget answers with the object exactly when it takes its uid from the href. -/
theorem multigetsObject_iff {ctx : HrefContext} {href : String} {o : CalendarObject}
    (ho : o ∈ w.db.objectsOf calendarId) :
    MultigetsObject env w ctx calendarId href o ↔ o.uid ∈ multigetUids [href] := by
  have hdoc : ∀ hrefs, ((handleMultiget ctx calendarId hrefs).run (exec env) w).1.document? =
      some ⟨(multigetRows w.db.toTables calendarId (multigetUids hrefs)).map
        (objectEntry ctx calendarId true), none⟩ :=
    fun hrefs => reportHandler_document ctx calendarId (.calendarMultiget [] hrefs)
  constructor
  · intro h
    obtain ⟨doc, hdoc', hmem⟩ := h [href] (List.mem_singleton_self _)
    rw [hdoc] at hdoc'
    rw [← Option.some.inj hdoc'] at hmem
    obtain ⟨o', ho', heq⟩ := List.mem_map.mp hmem
    have hhref := congrArg ResponseEntry.href heq
    rw [← calendarObjectHrefForContext_inj hhref]
    exact (mem_multigetRows.mp ho').2
  · intro h hrefs hmem
    refine ⟨_, hdoc hrefs, List.mem_map.mpr ⟨o, mem_multigetRows.mpr ⟨ho, ?_⟩, rfl⟩⟩
    unfold multigetUids at h ⊢
    obtain ⟨href', hhref', huid⟩ := List.mem_filterMap.mp h
    rw [List.mem_singleton.mp hhref'] at huid
    exact List.mem_filterMap.mpr ⟨href, hmem, huid⟩

/-- Every object is listed by a PROPFIND with Depth 1. -/
theorem listed_by_propfind {o : CalendarObject} (ho : o ∈ w.db.objectsOf calendarId) :
    ∃ q : DavCall, q.Lists p user calendarId ∧ ∃ doc,
      ((q.handler lib).run (exec env) w).1.document? = some doc ∧ ∃ e ∈ doc.responses,
        e.href = calendarObjectHrefForContext (contextOf user (p.hrefCtx user)) calendarId
          o.uid := by
  have hrow := w.db.ok.calendar_of_object (w.db.ok.objectByUid_of_objectsOf ho).2
  obtain ⟨r, hr⟩ := Option.isSome_iff_exists.mp (Tables.mem_calendarIds.mp hrow)
  refine ⟨.calendar user (p.hrefCtx user) calendarId
    ⟨"PROPFIND", [("depth", "1".toUTF8)], ByteArray.empty⟩, ⟨rfl, rfl, rfl, rfl⟩, ?_⟩
  rw [DavCall.document_eq]
  unfold DavCall.document
  dsimp only
  rw [hr]
  obtain rfl := Tables.calendarById_id hr
  refine ⟨_, rfl, _, List.mem_cons_of_mem _ (List.mem_map.mpr ⟨o, ?_, rfl⟩), rfl⟩
  rw [if_pos (by decide)]
  exact (List.perm_insertionSort _ _).mem_iff.mpr ho

end

/-- Alice, whose calendar the lunch is in. -/
def alice : User :=
  ⟨countingEnv.uuid 0, "alice", some "alice@example.com",
    "$argon2id$v=19$m=19456,t=2,p=1$c2FsdHNhbHQ$aGFzaGhhc2g"⟩

/-- The row of her calendar. -/
def workCalendar : Calendar :=
  ⟨"work", countingEnv.uuid 0, "Work", "", "#0E61B9", "UTC", syncTokenOf (countingEnv.uuid 2),
    syncTokenOf (countingEnv.uuid 2)⟩

/-- A request without credentials. -/
def plainRequest : Request := ⟨"PROPFIND", [], ByteArray.empty⟩

/-- Somebody planned a lunch whose uid has a slash. -/
def slashWorld : World := ((event "lun/ch" "at noon").call.exec countingEnv foundedWorld).2

end CaldavMcp
