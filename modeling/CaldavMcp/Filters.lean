/-
  Queries with one bound.

  The calendar-query REPORT, `query_events` and `list_events` take a start and an end. Each
  filters when it has both, and otherwise lists the whole calendar: a bound that comes alone is
  dropped. In a REPORT an empty bound counts as none, so it takes the other one with it.

  Every answer shows the rows of `queryRows`, for the range that the code has made of the bounds
  (`shows_iff`); from there the argument is about rows. With both bounds the rows overlap the
  range. With at most one, the answer is right exactly when the unfiltered listing happens to be
  (`honoured_iff`).
-/
import CaldavMcp.Caldav.Buffering
import CaldavMcp.Caldav.EmptyElements
import CaldavMcp.Db.Ranges
import CaldavMcp.Mcp.SimpleMode

namespace CaldavMcp

open Program

/-! ## Queries -/

/-- A query for the events of a calendar. -/
inductive RangeQuery where
  | report (user : User) (hrefCtx : Option HrefContext) (calendarId : String) (request : Request)
  | queryEvents (userId : String) (args : Json)
  | listEvents (userId : String) (args : Json)

/-- The attributes of a `time-range` element. -/
def XmlEvent.rangeAttributes : XmlEvent → List (String × String)
  | .start name attributes | .empty name attributes =>
    if localNameOf name = "time-range" then attributes else []
  | _ => []

/-- The events of a REPORT body. -/
def reportEvents (lib : Lib) (request : Request) : List XmlEvent :=
  lib.readXml (request.bodyUpTo (256 * 1024))

/-- The bound that a query supplies under a name: in a REPORT, the last one. -/
def RangeQuery.bound (lib : Lib) (key : String) : RangeQuery → Option String
  | .report _ _ _ request => ((reportEvents lib request).flatMap XmlEvent.rangeAttributes).reverse.lookup key
  | .queryEvents _ args | .listEvents _ args => args.str? key

/-- A REPORT is a calendar-query. -/
def RangeQuery.IsQuery (lib : Lib) : RangeQuery → Prop
  | .report _ _ _ request => ∃ props range,
    parseReport lib (request.bodyUpTo (256 * 1024)) = some (.calendarQuery props range)
  | .queryEvents _ _ | .listEvents _ _ => True

/-- The times of the events in a tool's answer, of those that have both. -/
def Json.eventTimes (answer : Json) (startKey stopKey : String) : List (String × String) :=
  match answer.get? "events" with
  | some (.array events) => events.filterMap fun event =>
    match event.str? startKey, event.str? stopKey with
    | some start, some stop => some (start, stop)
    | _, _ => none
  | _ => []

/-- The query returns an object with these times. -/
def RangeQuery.Shows (env : Env) (lib : Lib) (w : World) (dtstart dtend : String) :
    RangeQuery → Prop
  | .report user hrefCtx calendarId request => ∃ doc,
    ((handleReport lib user hrefCtx calendarId request).run (exec env) w).1.document? = some doc ∧
      ∃ o ∈ w.db.objectsOf calendarId,
        objectEntry (contextOf user hrefCtx) calendarId true o ∈ doc.responses ∧
          o.dtstart = some dtstart ∧ o.dtend = some dtend
  | .queryEvents userId args => ∃ answer,
    ((dispatch userId "query_events" args "full").run.run (exec env) w).1 = .ok answer ∧
      (dtstart, dtend) ∈ answer.eventTimes "dtstart" "dtend"
  | .listEvents userId args => ∃ answer,
    ((dispatch userId "list_events" args "simple").run.run (exec env) w).1 = .ok answer ∧
      (dtstart, dtend) ∈ answer.eventTimes "start" "end"

/-- The times meet every bound that the query supplies. -/
def RangeQuery.Meets (lib : Lib) (q : RangeQuery) (dtstart dtend : String) : Prop :=
  (∀ stop, q.bound lib "end" = some stop → dtstart < stop) ∧
    ∀ start, q.bound lib "start" = some start → start < dtend

/-- What is asked of a query: every object returned with both times meets the bounds. -/
def RangeQuery.Honoured (env : Env) (lib : Lib) (w : World) (q : RangeQuery) : Prop :=
  ∀ dtstart dtend, q.Shows env lib w dtstart dtend → q.Meets lib dtstart dtend

/-- The query supplies both bounds; in a REPORT they are not empty. -/
def RangeQuery.Bounded (lib : Lib) (q : RangeQuery) : Prop :=
  ∃ start stop, q.bound lib "start" = some start ∧ q.bound lib "end" = some stop ∧
    match q with
    | .report .. => start ≠ "" ∧ stop ≠ ""
    | _ => True

/-- The objects listed for a range; without one, nothing is filtered. -/
def RangeQuery.listed (w : World) (range : Option (String × String)) :
    RangeQuery → List CalendarObject
  | .report user hrefCtx calendarId _ =>
    -- a longer answer is lost on its way
    if reportSize w.db.toTables (contextOf user hrefCtx) calendarId (.calendarQuery [] range) ≤
      reportLimit then queryRows w.db.toTables calendarId range else []
  | .queryEvents _ args =>
    match args.str? "calendar_id" with
    | some calendarId => (queryRows w.db.toTables calendarId range).take (limitOf args)
    | none => []
  | .listEvents userId args =>
    match firstCalendar w userId with
    | some calendarId => (queryRows w.db.toTables calendarId range).take (limitOf args)
    | none => []

/-! ## The range that the code makes of the bounds -/

/-- The range of a tool: both bounds or none. -/
def toolRange (args : Json) : Option (String × String) :=
  match args.str? "start", args.str? "end" with
  | some start, some stop => some (start, stop)
  | _, _ => none

/-- The range of a query. -/
def RangeQuery.range (lib : Lib) : RangeQuery → Option (String × String)
  | .report _ _ _ request =>
    let bounds := readRange ("", "") ((reportEvents lib request).flatMap XmlEvent.rangeAttributes)
    if bounds.1 ≠ "" ∧ bounds.2 ≠ "" then some bounds else none
  | .queryEvents _ args | .listEvents _ args => toolRange args

theorem foldl_range_eq (range : String × String) (events : List XmlEvent) :
    events.foldl XmlEvent.range range =
      readRange range (events.flatMap XmlEvent.rangeAttributes) := by
  induction events generalizing range with
  | nil => rfl
  | cons event events ih =>
    have hone : event.range range = readRange range event.rangeAttributes := by
      cases event with
      | start name attributes | empty name attributes =>
        unfold XmlEvent.range XmlEvent.rangeAttributes
        dsimp only
        split <;> rfl
      | stop name | text t | other | error => rfl
    rw [List.foldl_cons, ih, hone, List.flatMap_cons]
    exact List.foldl_append.symm

/-- The last attribute of each name counts. -/
theorem readRange_eq (range : String × String) (attributes : List (String × String)) :
    readRange range attributes = ((attributes.reverse.lookup "start").getD range.1,
      (attributes.reverse.lookup "end").getD range.2) := by
  induction attributes generalizing range with
  | nil => rfl
  | cons pair attributes ih =>
    obtain ⟨key, value⟩ := pair
    have hstep : readRange range ((key, value) :: attributes) =
      readRange (if key = "start" then (value, range.2)
        else if key = "end" then (range.1, value) else range) attributes := rfl
    have hone : ∀ (name old : String), ((attributes.reverse ++ [(key, value)]).lookup name).getD old =
        (attributes.reverse.lookup name).getD (if key = name then value else old) := by
      intro name old
      rw [List.lookup_append, List.lookup_cons, List.lookup_nil]
      by_cases hkey : key = name
      · subst hkey
        cases attributes.reverse.lookup key <;> simp
      · rw [if_neg hkey, beq_false_of_ne (Ne.symm hkey)]
        cases attributes.reverse.lookup name <;> rfl
    rw [hstep, ih, List.reverse_cons, hone, hone]
    by_cases hstart : key = "start"
    · subst hstart
      rfl
    · by_cases hend : key = "end"
      · subst hend
        rfl
      · rw [if_neg hstart, if_neg hend, if_neg hstart, if_neg hend]

theorem RangeQuery.range_eq_some {lib : Lib} {q : RangeQuery} {start stop : String} :
    q.range lib = some (start, stop) ↔
      q.bound lib "start" = some start ∧ q.bound lib "end" = some stop ∧
        match q with
        | .report .. => start ≠ "" ∧ stop ≠ ""
        | _ => True := by
  cases q with
  | report user hrefCtx calendarId request =>
    unfold RangeQuery.range RangeQuery.bound
    dsimp only
    rw [readRange_eq]
    generalize ((reportEvents lib request).flatMap XmlEvent.rangeAttributes).reverse = attributes
    cases attributes.lookup "start" with
    | none => simp
    | some s =>
      cases attributes.lookup "end" with
      | none => simp
      | some e =>
        simp only [Option.getD_some, Option.ite_none_right_eq_some, Option.some.injEq,
          Prod.mk.injEq]
        constructor
        · rintro ⟨hne, rfl, rfl⟩
          exact ⟨rfl, rfl, hne⟩
        · rintro ⟨rfl, rfl, hne⟩
          exact ⟨hne, rfl, rfl⟩
  | queryEvents userId args | listEvents userId args =>
    unfold RangeQuery.range RangeQuery.bound toolRange
    dsimp only
    cases args.str? "start" <;> cases args.str? "end" <;> simp

theorem RangeQuery.bounded_iff (lib : Lib) (q : RangeQuery) :
    q.Bounded lib ↔ ∃ range, q.range lib = some range := by
  constructor
  · rintro ⟨start, stop, h⟩
    exact ⟨(start, stop), RangeQuery.range_eq_some.mpr h⟩
  · rintro ⟨⟨start, stop⟩, h⟩
    exact ⟨start, stop, RangeQuery.range_eq_some.mp h⟩

/-- The parser makes this range of the bounds. -/
theorem parseReport_range {lib : Lib} {user : User} {hrefCtx : Option HrefContext}
    {calendarId : String} {request : Request} {props : List PropRequest}
    {range : Option (String × String)}
    (h : parseReport lib (request.bodyUpTo (256 * 1024)) = some (.calendarQuery props range)) :
    range = (RangeQuery.report user hrefCtx calendarId request).range lib := by
  unfold parseReport at h
  split at h
  · cases h
  · rw [ReportState.run_init_eq, foldl_range_eq] at h
    split at h
    · cases h
    · unfold ReportState.request ReportState.finish at h
      dsimp only at h
      split at h
      · cases h
      · exact (ReportRequest.calendarQuery.inj (Option.some.inj h)).2.symm
      · cases h
      · cases h

/-! ## What the answers show -/

theorem mem_objectsOf_of_queryRows {t : Tables} {calendarId : String}
    {range : Option (String × String)} {o : CalendarObject} (h : o ∈ queryRows t calendarId range) :
    o ∈ t.objectsOf calendarId := by
  cases range with
  | none => exact mem_orderByDtstart.mp h
  | some range => exact (List.mem_filter.mp (mem_orderByDtstart.mp h)).1

section

variable {env : Env} {lib : Lib} {w : World}

theorem eventsOf_run (calendarId : String) (args : Json) :
    (eventsOf calendarId args).run.run (exec env) w =
      (.ok (queryRows w.db.toTables calendarId (toolRange args)), w) := by
  unfold eventsOf toolRange
  cases args.str? "start" with
  | none => rfl
  | some start =>
    cases args.str? "end" with
    | none => rfl
    | some stop => rfl

/-- An entry of the answer of `query_events`. -/
def queriedEvent (o : CalendarObject) : Json :=
  .object [("uid", .string o.uid), ("summary", .ofOption o.summary),
    ("dtstart", .ofOption o.dtstart), ("dtend", .ofOption o.dtend), ("etag", .string o.etag)]

theorem Json.asStr_ofOption (s : Option String) : (Json.ofOption s).asStr = s := by
  cases s <;> rfl

/-- The times in an answer are those of the objects. -/
theorem Json.mem_eventTimes {answer : Json} {startKey stopKey dtstart dtend : String}
    {objects : List CalendarObject} {entry : CalendarObject → Json}
    (hanswer : answer.get? "events" = some (.array (objects.map entry)))
    (hstart : ∀ o, (entry o).str? startKey = o.dtstart)
    (hstop : ∀ o, (entry o).str? stopKey = o.dtend) :
    (dtstart, dtend) ∈ answer.eventTimes startKey stopKey ↔
      ∃ o ∈ objects, o.dtstart = some dtstart ∧ o.dtend = some dtend := by
  unfold Json.eventTimes
  rw [hanswer]
  simp only [List.filterMap_map, List.mem_filterMap, Function.comp_apply, hstart, hstop]
  refine exists_congr fun o => and_congr_right fun _ => ?_
  cases o.dtstart <;> cases o.dtend <;> simp

/-- What is seen of a tool that answers with these entries. -/
theorem shows_answer {tool : ToolCall Json} {answer : Json} {w' : World}
    {startKey stopKey dtstart dtend : String} {objects : List CalendarObject}
    (entry : CalendarObject → Json) (hrun : tool.run.run (exec env) w = (.ok answer, w'))
    (hanswer : answer.get? "events" = some (.array (objects.map entry)))
    (hstart : ∀ o, (entry o).str? startKey = o.dtstart)
    (hstop : ∀ o, (entry o).str? stopKey = o.dtend) :
    (∃ answer, (tool.run.run (exec env) w).1 = .ok answer ∧
      (dtstart, dtend) ∈ answer.eventTimes startKey stopKey) ↔
      ∃ o ∈ objects, o.dtstart = some dtstart ∧ o.dtend = some dtend := by
  rw [← Json.mem_eventTimes hanswer hstart hstop, hrun]
  constructor
  · rintro ⟨answer', hok, hmem⟩
    rwa [← Except.ok.inj hok] at hmem
  · exact fun hmem => ⟨answer, rfl, hmem⟩

theorem shows_queryEvents (userId : String) (args : Json) (dtstart dtend : String) :
    (RangeQuery.queryEvents userId args).Shows env lib w dtstart dtend ↔
      ∃ o ∈ (RangeQuery.queryEvents userId args).listed w (toolRange args),
        o.dtstart = some dtstart ∧ o.dtend = some dtend := by
  have hdispatch : dispatch userId "query_events" args "full" = queryEvents userId args := rfl
  have hrun : (queryEvents userId args).run.run (exec env) w = _ := run_required ..
  unfold RangeQuery.Shows RangeQuery.listed
  dsimp only
  rw [hdispatch]
  cases hc : args.str? "calendar_id" with
  | none =>
    rw [hrun, hc]
    simp
  | some calendarId =>
    rw [hc] at hrun
    dsimp only at hrun ⊢
    rw [run_except_bind_ok (eventsOf_run calendarId args)] at hrun
    refine shows_answer queriedEvent hrun rfl ?_ ?_
    · exact fun o => Json.asStr_ofOption o.dtstart
    · exact fun o => Json.asStr_ofOption o.dtend

/-- A calendar that was just made has no objects. -/
theorem objectsOf_created {w' : World} {r : Calendar} (hfree : r.id ∉ w.db.calendarIds)
    (ht : w'.db.toTables = { w.db.toTables with calendars := w.db.calendars ++ [r] }) :
    w'.db.objectsOf r.id = [] := by
  have hrows : w'.db.objectsOf r.id = w.db.objectsOf r.id := by
    rw [ht]
    rfl
  rw [hrows]
  refine List.filter_eq_nil_iff.mpr fun o ho hid => hfree ?_
  have hcal := w.db.ok.objectCalendar o ho
  rwa [of_decide_eq_true hid] at hcal

theorem shows_listEvents (userId : String) (args : Json) (dtstart dtend : String) :
    (RangeQuery.listEvents userId args).Shows env lib w dtstart dtend ↔
      ∃ o ∈ (RangeQuery.listEvents userId args).listed w (toolRange args),
        o.dtstart = some dtstart ∧ o.dtend = some dtend := by
  have hdispatch : dispatch userId "list_events" args "simple" = Simple.handleList userId args :=
    rfl
  have hfound : ∀ {calendarId : String} {w' : World},
      (Simple.resolveCalendar userId).run.run (exec env) w = (.ok calendarId, w') →
      ((∃ answer, ((Simple.handleList userId args).run.run (exec env) w).1 = .ok answer ∧
        (dtstart, dtend) ∈ answer.eventTimes "start" "end") ↔
        ∃ o ∈ (queryRows w'.db.toTables calendarId (toolRange args)).take (limitOf args),
          o.dtstart = some dtstart ∧ o.dtend = some dtend) := by
    intro calendarId w' hr
    have hrun : (Simple.handleList userId args).run.run (exec env) w = _ := run_except_bind_ok hr
    rw [run_except_bind_ok (eventsOf_run calendarId args)] at hrun
    refine shows_answer listedEvent hrun rfl ?_ ?_
    · exact fun o => Json.asStr_ofOption o.dtstart
    · exact fun o => Json.asStr_ofOption o.dtend
  unfold RangeQuery.Shows RangeQuery.listed firstCalendar
  dsimp only
  rw [hdispatch]
  have hresolved := resolveCalendar_run env w userId
  generalize hr : (Simple.resolveCalendar userId).run.run (exec env) w = out at hresolved
  cases hresolved with
  | found cal rest hcals =>
    rw [hfound hr, hcals]
    rfl
  | created r w' hcals hrow hfree ht hd =>
    rw [hfound hr, hcals]
    have hnone : ∀ range, queryRows w'.db.toTables r.id range = [] := by
      intro range
      cases range with
      | none =>
        unfold queryRows
        rw [objectsOf_created hfree ht]
        rfl
      | some range =>
        unfold queryRows
        rw [objectsOf_created hfree ht]
        rfl
    rw [hnone]
    simp
  | failed e w' hcals ht hd =>
    have hrun : (Simple.handleList userId args).run.run (exec env) w = _ :=
      run_except_bind_error hr
    rw [hrun, hcals]
    simp

/-- An answer holds the entry of an object exactly when the object is one of the rows: entries with
    one href are of one object. -/
theorem mem_entries_iff {ctx : HrefContext} {calendarId : String}
    {range : Option (String × String)} {o : CalendarObject} (ho : o ∈ w.db.objectsOf calendarId) :
    objectEntry ctx calendarId true o ∈
        (queryRows w.db.toTables calendarId range).map (objectEntry ctx calendarId true) ↔
      o ∈ queryRows w.db.toTables calendarId range := by
  constructor
  · intro he
    obtain ⟨o', ho', heq⟩ := List.mem_map.mp he
    have huid := calendarObjectHrefForContext_inj (congrArg ResponseEntry.href heq)
    have hrow := (w.db.ok.objectByUid_of_objectsOf ho).2
    have hrow' := (w.db.ok.objectByUid_of_objectsOf (mem_objectsOf_of_queryRows ho')).2
    rw [huid, hrow] at hrow'
    rwa [← Option.some.inj hrow'] at ho'
  · exact fun h => List.mem_map_of_mem h

theorem shows_report (user : User) (hrefCtx : Option HrefContext) (calendarId : String)
    (request : Request) {props : List PropRequest} {range : Option (String × String)}
    (hreport : parseReport lib (request.bodyUpTo (256 * 1024)) = some (.calendarQuery props range))
    (dtstart dtend : String) :
    (RangeQuery.report user hrefCtx calendarId request).Shows env lib w dtstart dtend ↔
      ∃ o ∈ (RangeQuery.report user hrefCtx calendarId request).listed w range,
        o.dtstart = some dtstart ∧ o.dtend = some dtend := by
  unfold RangeQuery.Shows RangeQuery.listed
  dsimp only
  rw [handleReport_document hreport]
  have hsize : reportSize w.db.toTables (contextOf user hrefCtx) calendarId
      (.calendarQuery props range) =
    reportSize w.db.toTables (contextOf user hrefCtx) calendarId (.calendarQuery [] range) := rfl
  rw [hsize]
  by_cases hfits : reportSize w.db.toTables (contextOf user hrefCtx) calendarId
      (.calendarQuery [] range) ≤ reportLimit
  · rw [if_pos hfits, if_pos hfits]
    constructor
    · rintro ⟨doc, hdoc, o, ho, he, htimes⟩
      rw [← Option.some.inj hdoc] at he
      exact ⟨o, (mem_entries_iff ho).mp he, htimes⟩
    · rintro ⟨o, ho, htimes⟩
      exact ⟨_, rfl, o, mem_objectsOf_of_queryRows ho, List.mem_map_of_mem ho, htimes⟩
  · rw [if_neg hfits, if_neg hfits]
    simp

/-- Every answer shows the objects listed for the range. -/
theorem shows_iff {q : RangeQuery} (hq : q.IsQuery lib) (dtstart dtend : String) :
    q.Shows env lib w dtstart dtend ↔
      ∃ o ∈ q.listed w (q.range lib), o.dtstart = some dtstart ∧ o.dtend = some dtend := by
  cases q with
  | report user hrefCtx calendarId request =>
    obtain ⟨props, range, hreport⟩ := hq
    rw [shows_report user hrefCtx calendarId request hreport,
      @parseReport_range _ user hrefCtx calendarId _ _ _ hreport]
  | queryEvents userId args => exact shows_queryEvents userId args dtstart dtend
  | listEvents userId args => exact shows_listEvents userId args dtstart dtend

/-! ## One bound or two -/

/-- The objects listed are rows of the query. -/
theorem listed_rows {q : RangeQuery} {range : Option (String × String)} {o : CalendarObject}
    (h : o ∈ q.listed w range) : ∃ calendarId, o ∈ queryRows w.db.toTables calendarId range := by
  cases q with
  | report user hrefCtx calendarId request =>
    unfold RangeQuery.listed at h
    dsimp only at h
    split at h
    · exact ⟨calendarId, h⟩
    · cases h
  | queryEvents userId args | listEvents userId args =>
    unfold RangeQuery.listed at h
    dsimp only at h
    split at h
    · rename_i calendarId _
      exact ⟨calendarId, List.mem_of_mem_take h⟩
    · cases h

/-- A row of a range overlaps it. -/
theorem overlaps_of_queryRows {t : Tables} {calendarId start stop dtstart dtend : String}
    {o : CalendarObject} (h : o ∈ queryRows t calendarId (some (start, stop)))
    (hstart : o.dtstart = some dtstart) (hend : o.dtend = some dtend) :
    dtstart < stop ∧ start < dtend := by
  have hsel := (List.mem_filter.mp (mem_orderByDtstart.mp h)).2
  rw [hstart, hend] at hsel
  simpa using hsel

end

/-- **Half-open filters.** In every state and for every query, all objects returned with both times
    meet the bounds supplied, exactly when both bounds are supplied, and not empty in a REPORT, or
    no object that is listed without a filter breaks a bound. -/
theorem honoured_iff (env : Env) (lib : Lib) (w : World) (q : RangeQuery) (hq : q.IsQuery lib) :
    q.Honoured env lib w ↔ q.Bounded lib ∨
      ∀ o ∈ q.listed w none, ∀ dtstart dtend, o.dtstart = some dtstart → o.dtend = some dtend →
        q.Meets lib dtstart dtend := by
  unfold RangeQuery.Honoured
  rw [RangeQuery.bounded_iff]
  cases hrange : q.range lib with
  | none =>
    simp only [shows_iff hq, hrange, reduceCtorEq, exists_false, false_or]
    constructor
    · exact fun h o ho dtstart dtend hs he => h dtstart dtend ⟨o, ho, hs, he⟩
    · rintro h dtstart dtend ⟨o, ho, hs, he⟩
      exact h o ho dtstart dtend hs he
  | some range =>
    obtain ⟨start, stop⟩ := range
    obtain ⟨hstart, hstop, -⟩ := RangeQuery.range_eq_some.mp hrange
    refine iff_of_true (fun dtstart dtend hshows => ?_) (Or.inl ⟨_, rfl⟩)
    obtain ⟨o, ho, hs, he⟩ := (shows_iff hq dtstart dtend).mp hshows
    rw [hrange] at ho
    obtain ⟨calendarId, hrow⟩ := listed_rows ho
    have hover := overlaps_of_queryRows hrow hs he
    refine ⟨fun stop' h => ?_, fun start' h => ?_⟩
    · rw [← Option.some.inj (hstop.symm.trans h)]
      exact hover.1
    · rw [← Option.some.inj (hstart.symm.trans h)]
      exact hover.2

/-- Alice asks for what happens from 2027 on. -/
def fromNextYear : RangeQuery := .listEvents (countingEnv.uuid 0)
  (.object [("start", .string "20270101T000000Z")])

/-- What happens up to the evening, with a start as well. -/
def thisAfternoon : RangeQuery := .listEvents (countingEnv.uuid 0)
  (.object [("start", .string "20260301T120000Z"), ("end", .string "20260301T180000Z")])

theorem honoured_iff_afternoon : thisAfternoon.Honoured countingEnv sampleLib noonWorld :=
  (honoured_iff countingEnv sampleLib noonWorld thisAfternoon trivial).mpr
    (Or.inl ⟨"20260301T120000Z", "20260301T180000Z", rfl, rfl, trivial⟩)

/-- She is shown the lunch of March 2026. -/
theorem start_ignored : ¬ ∀ (env : Env) (lib : Lib) (w : World) (q : RangeQuery), q.IsQuery lib →
    q.Honoured env lib w := by
  intro h
  have hshows : fromNextYear.Shows countingEnv sampleLib noonWorld "20260301T120000Z"
      "20260301T130000Z" := by
    refine (@shows_iff countingEnv sampleLib noonWorld fromNextYear trivial _ _).mpr ?_
    exact ⟨_, List.mem_cons_of_mem _ List.mem_cons_self, rfl, rfl⟩
  have hmeets := h countingEnv sampleLib noonWorld fromNextYear trivial _ _ hshows
  have hlate := hmeets.2 "20270101T000000Z" rfl
  exact absurd hlate (by decide)

end CaldavMcp
