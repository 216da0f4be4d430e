/-
  Events of all forms in a time range.

  DTSTART and DTEND are written in UTC, in a local time with a TZID, or as a DATE. The parser
  drops the parameters of the line, so the column holds the time as it is written, and the query
  compares it as text with the UTC bounds. What counts is therefore the time as written, taken for
  UTC (`reading`): an end counts as past the bound when its reading is (`lt_value_iff`), and a
  start as before the bound when its reading is not behind it (`value_lt_iff`). An event without
  DTEND is never selected.
-/
import CaldavMcp.Components
import CaldavMcp.Filters

namespace CaldavMcp

open Program Civil

/-! ## Times of an event -/

/-- The value of a DTSTART or DTEND line. A local time comes with the name of its zone, and the
    minutes that the zone is ahead of UTC at that time. -/
inductive EventTime where
  | utc (t : DateTime)
  | zoned (tzid : String) (plain : ':' ∉ tzid.toList) (offset : ℤ) (t : DateTime)
  | date (d : Date)

namespace EventTime

def params : EventTime → List Char
  | utc _ => []
  | zoned tzid _ _ _ => ";TZID=".toList ++ tzid.toList
  | date _ => ";VALUE=DATE".toList

def value : EventTime → List Char
  | utc t => t.basic ++ ['Z']
  | zoned _ _ _ t => t.basic
  | date d => d.basic

/-- The property line. -/
def line (name : String) (v : EventTime) : Line := name.toList ++ (v.params ++ ':' :: v.value)

/-- The point of the time line that is meant; of a day, its midnight. -/
def instant : EventTime → Instant
  | utc t => t.instant 0
  | zoned _ _ offset t => t.instant offset
  | date d => d.midnight.instant 0

/-- The time as it is written, taken for UTC. -/
def reading : EventTime → Instant
  | utc t => t.instant 0
  | zoned _ _ _ t => t.instant 0
  | date d => d.midnight.instant 0

end EventTime

/-- The name of the property that a line sets. -/
def Line.property (line : Line) : List Char := line.takeWhile fun c => c ≠ ':' && c ≠ ';'

/-- The lines that set a property. -/
def linesNamed (name : String) (lines : List Line) : List Line :=
  lines.filter fun line => Line.property line = name.toList

/-- A text with one VEVENT that has one DTSTART and at most one DTEND. -/
structure EventText (c : SingleText) (dtstart : EventTime) (dtend : Option EventTime) : Prop where
  wellFormed : c.WellFormed
  vevent : c.kind = .vevent
  dtstart : linesNamed "DTSTART" (linesOf c.parts) = [dtstart.line "DTSTART"]
  dtend : linesNamed "DTEND" (linesOf c.parts) = (dtend.map (·.line "DTEND")).toList
  due : linesNamed "DUE" (linesOf c.parts) = []

/-! ## What the parser takes from a line -/

theorem extractProperty_line {name : String} (v : EventTime) :
    extractProperty (v.line name) name = some (String.ofList v.value) := by
  unfold extractProperty EventTime.line
  rw [Text.stripPrefix?_append]
  cases v with
  | utc t => rfl
  | zoned tzid plain offset t =>
    have hnot : ':' ∉ (EventTime.zoned tzid plain offset t).params := by
      unfold EventTime.params
      rw [List.mem_append, not_or]
      exact ⟨by decide, plain⟩
    have hsplit := Text.splitOnce_append hnot (EventTime.zoned tzid plain offset t).value
    exact congrArg (Option.map fun x => String.ofList x.2) hsplit
  | date d =>
    have hnot : ':' ∉ (EventTime.date d).params := by
      show ':' ∉ ";VALUE=DATE".toList
      decide
    have hsplit := Text.splitOnce_append hnot (EventTime.date d).value
    exact congrArg (Option.map fun x => String.ofList x.2) hsplit

theorem property_of_extract {line : Line} {name value : String}
    (hname : name.toList.all fun c => c ≠ ':' && c ≠ ';') (h : extractProperty line name = some value) :
    Line.property line = name.toList := by
  have htake : ∀ (c : Char) (rest : List Char), (c = ':' ∨ c = ';') →
      (name.toList ++ c :: rest).takeWhile (fun c => c ≠ ':' && c ≠ ';') = name.toList := by
    intro c rest hc
    rw [List.takeWhile_append_of_pos (List.all_eq_true.mp hname)]
    rcases hc with rfl | rfl <;> simp
  unfold extractProperty at h
  split at h
  · rename_i rest hstrip
    rw [Text.stripPrefix?_eq_some.mp hstrip]
    exact htake ':' rest (Or.inl rfl)
  · rename_i rest hstrip
    rw [Text.stripPrefix?_eq_some.mp hstrip]
    exact htake ';' rest (Or.inr rfl)
  · cases h

/-- Only the lines of the property's name give it a value. -/
theorem valuesOf_linesNamed {name : String} (hname : name.toList.all fun c => c ≠ ':' && c ≠ ';')
    (lines : List Line) : valuesOf name lines = valuesOf name (linesNamed name lines) := by
  unfold valuesOf linesNamed
  rw [List.filterMap_filter]
  refine List.filterMap_congr fun line _ => ?_
  split
  · rfl
  · rename_i hne
    by_contra hsome
    obtain ⟨value, hvalue⟩ := Option.ne_none_iff_exists'.mp hsome
    exact hne (by simpa using property_of_extract hname hvalue)

/-- The columns of the event's row. -/
theorem EventText.fieldsOf {c : SingleText} {dtstart : EventTime} {dtend : Option EventTime}
    (h : EventText c dtstart dtend) {data : String} (hdata : linesOfText data = c.lines) :
    (fieldsOf data).dtstart = some (String.ofList dtstart.value) ∧
      (fieldsOf data).dtend = dtend.map fun e => String.ofList e.value := by
  have htaken : taken data = takenFrom false c.lines := congrArg (takenFrom false) hdata
  have hstart : valuesOf "DTSTART" (taken data) = [String.ofList dtstart.value] := by
    rw [htaken, SingleText.valuesOf_taken h.wellFormed (by simp),
      valuesOf_linesNamed (show "DTSTART".toList.all _ = true by decide), h.dtstart]
    exact List.filterMap_cons_some (extractProperty_line dtstart)
  have hend : valuesOf "DTEND" (taken data) =
      (dtend.map fun e => String.ofList e.value).toList := by
    rw [htaken, SingleText.valuesOf_taken h.wellFormed (by simp),
      valuesOf_linesNamed (show "DTEND".toList.all _ = true by decide), h.dtend]
    cases dtend with
    | none => rfl
    | some e => exact List.filterMap_cons_some (extractProperty_line e)
  have hdue : valuesOf "DUE" (taken data) = [] := by
    rw [htaken, SingleText.valuesOf_taken h.wellFormed (by simp),
      valuesOf_linesNamed (show "DUE".toList.all _ = true by decide), h.due]
    rfl
  constructor
  · refine (extractFields_dtstart data).trans ?_
    unfold lastValue
    rw [hstart]
    rfl
  · refine (extractFields_dtend data).trans ?_
    unfold endValue lastValue
    rw [hend, hdue]
    cases dtend <;> rfl

/-! ## What the query compares -/

section

variable {v : EventTime} {bound : DateTime}

/-- A text that ends where the bound goes on comes before it on a tie. -/
theorem ofList_lt_iff {a b c : List Char} (h : a.length = b.length) (hc : c ≠ []) :
    String.ofList a < String.ofList (b ++ c) ↔ a < b ∨ a = b := by
  rw [String.lt_iff, String.toList_ofList, String.toList_ofList, ← List.append_nil a,
    append_lt_append_iff (by simpa using h)]
  cases c with
  | nil => exact absurd rfl hc
  | cons x c => simp

theorem lt_ofList_iff {a b c : List Char} (h : a.length = b.length) :
    String.ofList (b ++ c) < String.ofList a ↔ b < a := by
  rw [String.lt_iff, String.toList_ofList, String.toList_ofList, ← List.append_nil a,
    append_lt_append_iff (by simpa using h.symm)]
  simp

theorem reading_date (d : Date) :
    (EventTime.date d).reading = toLex ((d.number * 1440 : ℤ), 0) := by
  unfold EventTime.reading DateTime.instant DateTime.minutes Date.midnight
  simp

theorem utcText_date (t : DateTime) :
    utcText t = String.ofList (t.toDate.basic ++ ('T' :: t.basicTime ++ ['Z'])) := by
  unfold utcText DateTime.basic
  rw [List.append_assoc]

/-- A start is before the bound when its reading is not behind it. -/
theorem value_lt_iff (h : v.instant < bound.instant 0) :
    String.ofList v.value < utcText bound ↔ v.reading ≤ bound.instant 0 := by
  cases v with
  | utc t => exact iff_of_true (utcText_lt_iff.mpr h) h.le
  | zoned tzid plain offset t =>
    have htext := ofList_lt_iff (show t.basic.length = bound.basic.length by
      rw [basic_length, basic_length]) (List.cons_ne_nil 'Z' [])
    refine htext.trans ?_
    rw [DateTime.basic_lt_iff 0, DateTime.basic_inj 0]
    exact le_iff_lt_or_eq.symm
  | date d =>
    have hhour := bound.hour_lt
    have hminute := bound.minute_lt
    rw [utcText_date]
    have htext := ofList_lt_iff (show d.basic.length = bound.toDate.basic.length by
      rw [Date.basic_length, Date.basic_length])
      (List.cons_ne_nil 'T' (bound.basicTime ++ ['Z']))
    refine htext.trans ?_
    rw [Date.basic_lt_iff, Date.basic_inj]
    rw [reading_date]
    unfold DateTime.instant DateTime.minutes
    rw [Prod.Lex.toLex_le_toLex]
    simp only
    omega

/-- An end is past the bound when its reading is. -/
theorem lt_value_iff : utcText bound < String.ofList v.value ↔ bound.instant 0 < v.reading := by
  cases v with
  | utc t => exact utcText_lt_iff
  | zoned tzid plain offset t =>
    refine (lt_ofList_iff (show t.basic.length = bound.basic.length by
      rw [basic_length, basic_length])).trans ?_
    exact DateTime.basic_lt_iff 0
  | date d =>
    have hhour := bound.hour_lt
    have hminute := bound.minute_lt
    rw [utcText_date]
    refine (lt_ofList_iff (show d.basic.length = bound.toDate.basic.length by
      rw [Date.basic_length, Date.basic_length])).trans ?_
    rw [Date.basic_lt_iff]
    rw [reading_date]
    unfold DateTime.instant DateTime.minutes
    rw [Prod.Lex.toLex_lt_toLex]
    simp only
    omega

end

/-! ## The REPORT -/

/-- A PUT has stored the text: the row holds it and the fields taken from it. -/
structure StoredText (w : World) (calendarId data : String) (o : CalendarObject) : Prop where
  row : o ∈ w.db.objectsOf calendarId
  text : o.icalData = data
  fields : o.toObjectFields = fieldsOf data

theorem storedText_of_upsert {env : Env} {w w' : World} {calendarId uid data : String}
    {o : CalendarObject} {isNew : Bool}
    (h : (upsertObject calendarId uid data (fieldsOf data)).run.run (exec env) w =
      (.ok (o, isNew), w')) : StoredText w' calendarId data o := by
  obtain ⟨-, hrow, -, hdata, hfields⟩ := upsert_stored h
  refine ⟨List.mem_filter.mpr ⟨List.mem_of_find?_eq_some hrow, ?_⟩, hdata, hfields⟩
  simpa using (Tables.objectByUid_key hrow).1

/-- The answer to a REPORT holds the object. -/
def Returned (env : Env) (lib : Lib) (w : World) (user : User) (hrefCtx : Option HrefContext)
    (calendarId : String) (request : Request) (o : CalendarObject) : Prop :=
  ∃ doc, ((handleReport lib user hrefCtx calendarId request).run (exec env) w).1.document? =
    some doc ∧ objectEntry (contextOf user hrefCtx) calendarId true o ∈ doc.responses

/-- The event begins in the range, and ends, if it says when, after it begins. -/
structure BeginsIn (start stop : DateTime) (dtstart : EventTime) (dtend : Option EventTime) :
    Prop where
  start : start.instant 0 ≤ dtstart.instant
  stop : dtstart.instant < stop.instant 0
  later : ∀ e, dtend = some e → dtstart.instant < e.instant

/-- The query selects the event's row by the times as written. -/
theorem mem_queryRows_iff {w : World} {calendarId data : String} {start stop : DateTime}
    {c : SingleText} {dtstart : EventTime} {dtend : Option EventTime}
    (hc : EventText c dtstart dtend) (hin : BeginsIn start stop dtstart dtend)
    (hdata : linesOfText data = c.lines) {o : CalendarObject}
    (ho : StoredText w calendarId data o) :
    o ∈ queryRows w.db.toTables calendarId (some (utcText start, utcText stop)) ↔
      (∃ e, dtend = some e ∧ start.instant 0 < e.reading) ∧
        dtstart.reading ≤ stop.instant 0 := by
  obtain ⟨hstart, hend⟩ := hc.fieldsOf hdata
  rw [← ho.fields] at hstart hend
  unfold queryRows
  rw [mem_orderByDtstart, List.mem_filter, and_iff_right ho.row, selected_iff, hstart, hend,
    ← value_lt_iff hin.stop]
  constructor
  · rintro ⟨s, e, hs, he, hbefore, hafter⟩
    obtain ⟨e, rfl, rfl⟩ := Option.map_eq_some_iff.mp he
    rw [Option.some.inj hs]
    exact ⟨⟨e, rfl, lt_value_iff.mp hafter⟩, hbefore⟩
  · rintro ⟨⟨e, rfl, hafter⟩, hbefore⟩
    exact ⟨_, _, rfl, rfl, hbefore, lt_value_iff.mpr hafter⟩

/-- An object is returned when its row is selected and the answer fits. -/
theorem returned_iff_row {env : Env} {lib : Lib} {w : World} {user : User}
    {hrefCtx : Option HrefContext} {calendarId : String} {request : Request}
    {props : List PropRequest} {range : Option (String × String)}
    (hreport : parseReport lib (request.bodyUpTo (256 * 1024)) = some (.calendarQuery props range))
    {o : CalendarObject} (ho : o ∈ w.db.objectsOf calendarId) :
    Returned env lib w user hrefCtx calendarId request o ↔
      o ∈ queryRows w.db.toTables calendarId range ∧
        reportSize w.db.toTables (contextOf user hrefCtx) calendarId (.calendarQuery props range) ≤
          reportLimit := by
  unfold Returned
  rw [handleReport_document hreport]
  by_cases hfits : reportSize w.db.toTables (contextOf user hrefCtx) calendarId
      (.calendarQuery props range) ≤ reportLimit
  · rw [if_pos hfits, and_iff_left hfits]
    constructor
    · rintro ⟨doc, hdoc, he⟩
      rw [← Option.some.inj hdoc] at he
      exact (mem_entries_iff ho).mp he
    · exact fun hmem => ⟨_, rfl, (mem_entries_iff ho).mpr hmem⟩
  · rw [if_neg hfits]
    exact iff_of_false (fun ⟨_, hdoc, _⟩ => nomatch hdoc) fun h => hfits h.2

/-- A calendar with an event of these times. -/
def sampleText (dtstart dtend : EventTime) : SingleText where
  before := [.property "VERSION:2.0".toList]
  kind := .vevent
  parts := [.property "UID:meal".toList, .property (dtstart.line "DTSTART"),
    .property (dtend.line "DTEND")]
  after := []

def lunchText : String :=
  "BEGIN:VCALENDAR\r\nVERSION:2.0\r\nBEGIN:VEVENT\r\nUID:meal\r\n" ++
  "DTSTART:20260301T100000Z\r\nDTEND:20260301T110000Z\r\nEND:VEVENT\r\nEND:VCALENDAR\r\n"

/-- Seven in the evening is ten o'clock UTC. -/
def tokyoText : String :=
  "BEGIN:VCALENDAR\r\nVERSION:2.0\r\nBEGIN:VEVENT\r\nUID:meal\r\n" ++
  "DTSTART;TZID=Asia/Tokyo:20260301T190000\r\nDTEND;TZID=Asia/Tokyo:20260301T200000\r\n" ++
  "END:VEVENT\r\nEND:VCALENDAR\r\n"

def tokyo (hour : Fin 24) : EventTime :=
  .zoned "Asia/Tokyo" (by decide) 540 (firstOfMarch hour)

/-- A reader that finds a query for the time from nine to noon in every body. -/
def morningLib : Lib := { sampleLib with
  readXml := fun _ => [.start "C:calendar-query" [("xmlns:C", caldavNs)],
    .empty "C:time-range" [("start", "20260301T090000Z"), ("end", "20260301T120000Z")],
    .stop "C:calendar-query"] }

/-- The body it reads so. -/
def morningRequest : Request :=
  ⟨"REPORT", [], ("<C:calendar-query xmlns:C=\"urn:ietf:params:xml:ns:caldav\">" ++
    "<C:time-range start=\"20260301T090000Z\" end=\"20260301T120000Z\"/>" ++
    "</C:calendar-query>").toUTF8⟩

theorem morningLib_parses : parseReport morningLib (morningRequest.bodyUpTo (256 * 1024)) =
    some (.calendarQuery [] (some (utcText (firstOfMarch 9), utcText (firstOfMarch 12)))) := by
  decide +kernel

theorem instant_firstOfMarch (hour : Fin 24) (offset : ℤ) :
    (firstOfMarch hour).instant offset =
      toLex (((firstOfMarch 0).number * 1440 + hour.val * 60 - offset : ℤ), 0) := by
  have hnumber : (firstOfMarch hour).number = (firstOfMarch 0).number := rfl
  unfold DateTime.instant DateTime.minutes
  rw [hnumber]
  generalize (firstOfMarch 0).number = n
  show toLex (((n * 1440 + hour.val * 60 + 0 : ℕ) : ℤ) - offset, 0) = _
  push_cast
  rw [Int.add_zero]

theorem lt_firstOfMarch {hour hour' : Fin 24} {offset offset' : ℤ}
    (h : hour.val * 60 - offset < hour'.val * 60 - offset') :
    (firstOfMarch hour).instant offset < (firstOfMarch hour').instant offset' := by
  rw [instant_firstOfMarch, instant_firstOfMarch, Prod.Lex.toLex_lt_toLex]
  left
  dsimp only
  omega

/-- The world after a PUT of the text. -/
def mealWorld (text : String) : World :=
  ((handlePut "work" "meal.ics" ⟨"PUT", [], text.toUTF8⟩).run (exec countingEnv) foundedWorld).2

/-- The row of the text. -/
def mealRow (text : String) : CalendarObject :=
  ObjectWrite.newRow countingEnv foundedWorld "work" (putUid "meal.ics" text) text (fieldsOf text)

theorem mealRow_uid (text : String) : (mealRow text).uid = putUid "meal.ics" text := rfl

/-- It is the only one. -/
theorem mealWorld_rows {text : String} (hsize : text.toUTF8.size ≤ 1024 * 1024) :
    (mealWorld text).db.objectsOf "work" = [mealRow text] := by
  have hstores : PutStores foundedWorld.db.toTables "work" "meal.ics" ⟨"PUT", [], text.toUTF8⟩
    text := ⟨hsize, String.fromUTF8?_toUTF8 text, trivial⟩
  have hc : "work" ∈ foundedWorld.db.calendarIds := by decide
  have ha : foundedWorld.db.Accepts (mealRow text) :=
    (foundedWorld_reachable.synced countingEnv_uuid_injective).accepts countingEnv_uuid_injective
      hc rfl text (fieldsOf text)
  have hrows : ((foundedWorld.draw 3).after (.insertObject (mealRow text))).db.toTables =
      { foundedWorld.db.toTables with calendarObjects := [mealRow text] } := by
    rw [World.after_tables, World.draw_db, Tables.after_insertObject_accepted ha]
    rfl
  unfold mealWorld
  rw [handlePut_stores hstores, upsert_exec_accepted ha]
  dsimp only
  change (((foundedWorld.draw 3).after (.insertObject (mealRow text))).logged ..).db.objectsOf
    "work" = _
  rw [World.logged_tables _ (by rw [hrows]; exact hc), hrows]
  rfl

theorem mealRow_stored {text : String} (hsize : text.toUTF8.size ≤ 1024 * 1024) :
    StoredText (mealWorld text) "work" text (mealRow text) := by
  refine ⟨?_, rfl, rfl⟩
  rw [mealWorld_rows hsize]
  exact List.mem_singleton_self _

/-- A query of a calendar with one object answers with that object at most. -/
theorem reportSize_single {t : Tables} {ctx : HrefContext} {calendarId : String}
    (props : List PropRequest) (range : String × String) {o : CalendarObject}
    (h : t.objectsOf calendarId = [o]) :
    reportSize t ctx calendarId (.calendarQuery props (some range)) ≤
      201 + objectSize ctx calendarId true o := by
  unfold reportSize queryRows
  dsimp only
  rw [h, List.filter_singleton]
  cases (o.dtstart.any (· < range.2) && o.dtend.any (· > range.1)) with
  | true => exact le_refl _
  | false => exact Nat.le_add_right 201 _

theorem lunchText_event : EventText
    (sampleText (.utc (firstOfMarch 10)) (.utc (firstOfMarch 11))) (.utc (firstOfMarch 10))
    (some (.utc (firstOfMarch 11))) :=
  ⟨⟨by decide, by decide +kernel, by decide, by decide +kernel⟩, rfl, by decide +kernel,
    by decide +kernel, by decide +kernel⟩

theorem tokyoText_event : EventText (sampleText (tokyo 19) (tokyo 20)) (tokyo 19)
    (some (tokyo 20)) :=
  ⟨⟨by decide, by decide +kernel, by decide, by decide +kernel⟩, rfl, by decide +kernel,
    by decide +kernel, by decide +kernel⟩

end CaldavMcp
