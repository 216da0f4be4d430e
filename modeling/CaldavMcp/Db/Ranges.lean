/-
  The time-range query on UTC times.

  `list_objects_in_range` compares and sorts the columns as text. On times of the form
  YYYYMMDDTHHMMSSZ the order of the text is the order of the time line (`utcText_lt_iff`), so
  there the query is the overlap of intervals it is meant to be (`range_query_exact`).
-/
import CaldavMcp.Civil
import CaldavMcp.Db.History

namespace CaldavMcp

open Program Civil

/-- A time of UTC, YYYYMMDDTHHMMSSZ. -/
def utcText (t : DateTime) : String := String.ofList (t.basic ++ ['Z'])

section

variable {t t' : DateTime}

theorem basic_length (t : DateTime) : t.basic.length = 15 := by
  simp [DateTime.basic, Date.basic_length, DateTime.basicTime, digits_length]

theorem utcText_lt_iff : utcText t < utcText t' ↔ t.instant 0 < t'.instant 0 := by
  unfold utcText
  rw [String.lt_iff, String.toList_ofList, String.toList_ofList,
    append_lt_append_iff (by rw [basic_length, basic_length]), ← DateTime.basic_lt_iff]
  simp

end

/-! ## Rows in order -/

instance : Std.Total nullFirstLe where
  total a b := by
    cases a with
    | none => exact Or.inl trivial
    | some a =>
      cases b with
      | none => exact Or.inr trivial
      | some b => exact le_total a b

instance : IsTrans (Option String) nullFirstLe where
  trans a b c hab hbc := by
    cases a with
    | none => exact trivial
    | some a =>
      cases b with
      | none => exact absurd hab id
      | some b =>
        cases c with
        | none => exact absurd hbc id
        | some c => exact le_trans (α := String) hab hbc

/-- Rows come in the order of their start, those without one first. -/
theorem orderByDtstart_pairwise (os : List CalendarObject) :
    (orderByDtstart os).Pairwise fun a b => nullFirstLe a.dtstart b.dtstart := by
  have : Std.Total fun a b : CalendarObject => nullFirstLe a.dtstart b.dtstart :=
    ⟨fun a b => Std.Total.total (r := nullFirstLe) a.dtstart b.dtstart⟩
  have : IsTrans CalendarObject fun a b => nullFirstLe a.dtstart b.dtstart :=
    ⟨fun a b c => IsTrans.trans (r := nullFirstLe) a.dtstart b.dtstart c.dtstart⟩
  exact List.pairwise_insertionSort _ _

theorem mem_orderByDtstart {os : List CalendarObject} {o : CalendarObject} :
    o ∈ orderByDtstart os ↔ o ∈ os := List.mem_insertionSort _

theorem orderByDtstart_nodup {os : List CalendarObject} (h : os.Nodup) :
    (orderByDtstart os).Nodup := (List.perm_insertionSort _ os).nodup_iff.mpr h

/-- A calendar lists each of its objects once. -/
theorem Tables.Ok.objectsOf_nodup {t : Tables} (h : t.Ok) (calendarId : String) :
    (t.objectsOf calendarId).Nodup :=
  (List.Nodup.of_map _ h.objectId).filter _

/-! ## The query -/

/-- A column that is NULL or holds a time of UTC. -/
def IsUtcTime (column : Option String) : Prop := ∀ s ∈ column, ∃ t : DateTime, s = utcText t

/-- Every time of the calendar is one of UTC. -/
def UtcTimes (t : Tables) (calendarId : String) : Prop :=
  ∀ o ∈ t.objectsOf calendarId, IsUtcTime o.dtstart ∧ IsUtcTime o.dtend

/-- The object has both times, and begins before the range ends and ends after it begins. -/
def Overlaps (start stop : DateTime) (o : CalendarObject) : Prop :=
  ∃ s e : DateTime, o.dtstart = some (utcText s) ∧ o.dtend = some (utcText e) ∧
    s.instant 0 < stop.instant 0 ∧ start.instant 0 < e.instant 0

/-- Of two objects that begin at some time, the first does not begin later. -/
def BeginsBy (a b : CalendarObject) : Prop :=
  ∀ s s' : DateTime, a.dtstart = some (utcText s) → b.dtstart = some (utcText s') →
    s.instant 0 ≤ s'.instant 0

theorem BeginsBy.of_nullFirstLe {a b : CalendarObject} (h : nullFirstLe a.dtstart b.dtstart) :
    BeginsBy a b := by
  intro s s' hs hs'
  rw [hs, hs'] at h
  exact not_lt.mp fun hlt => absurd (utcText_lt_iff.mpr hlt) (not_lt.mpr h)

/-- What the WHERE clause selects: a comparison with NULL is not true. -/
theorem selected_iff {start stop : String} {o : CalendarObject} :
    (o.dtstart.any (· < stop) && o.dtend.any (· > start)) = true ↔
      ∃ s e, o.dtstart = some s ∧ o.dtend = some e ∧ s < stop ∧ start < e := by
  cases o.dtstart <;> cases o.dtend <;> simp

/-- On times of UTC this is the overlap. -/
theorem overlaps_iff {start stop : DateTime} {o : CalendarObject} (hs : IsUtcTime o.dtstart)
    (he : IsUtcTime o.dtend) :
    (∃ s e, o.dtstart = some s ∧ o.dtend = some e ∧ s < utcText stop ∧ utcText start < e) ↔
      Overlaps start stop o := by
  constructor
  · rintro ⟨v, v', hv, hv', hlt, hgt⟩
    obtain ⟨s, rfl⟩ := hs v hv
    obtain ⟨e, rfl⟩ := he v' hv'
    exact ⟨s, e, hv, hv', utcText_lt_iff.mp hlt, utcText_lt_iff.mp hgt⟩
  · rintro ⟨s, e, hv, hv', hlt, hgt⟩
    exact ⟨_, _, hv, hv', utcText_lt_iff.mpr hlt, utcText_lt_iff.mpr hgt⟩

/-- **The time-range query.** On a calendar whose times are NULL or times of UTC, and for bounds
    of UTC, the query answers the objects that overlap the range, each once and in the order in
    which they begin, and changes nothing. -/
theorem range_query_exact (env : Env) (w : World) (calendarId : String) (start stop : DateTime)
    (h : UtcTimes w.db.toTables calendarId) :
    ∃ os, (listObjectsInRange calendarId (utcText start) (utcText stop)).exec env w =
        (.ok os, w) ∧
      (∀ o, o ∈ os ↔ o ∈ w.db.objectsOf calendarId ∧ Overlaps start stop o) ∧ os.Nodup ∧
      os.Pairwise BeginsBy := by
  refine ⟨orderByDtstart ((w.db.objectsOf calendarId).filter fun o =>
    o.dtstart.any (· < utcText stop) && o.dtend.any (· > utcText start)), rfl, ?_, ?_, ?_⟩
  · intro o
    rw [mem_orderByDtstart, List.mem_filter, selected_iff]
    exact and_congr_right fun ho => overlaps_iff (h o ho).1 (h o ho).2
  · exact orderByDtstart_nodup ((w.db.ok.objectsOf_nodup calendarId).filter _)
  · exact (orderByDtstart_pairwise _).imp BeginsBy.of_nullFirstLe

theorem fullHour_minute : 0 < 60 := by decide

theorem fullHour_second : 0 ≤ 60 := by decide

/-- The first of March 2026, at a full hour. -/
def firstOfMarch (hour : Fin 24) : DateTime :=
  { year := 2026, month := 3, day := 1, year_lt := by decide, month_pos := by decide
    month_le := by decide, day_pos := by decide, day_le := by decide, hour := hour
    hour_lt := hour.isLt, minute := 0, minute_lt := fullHour_minute, second := 0
    second_le := fullHour_second }

/-- Alice has a lunch from noon to one, and a task without times. -/
def noonWorld : World :=
  ((ObjectWrite.upsert "work" "task" "some day" ⟨"VTODO", none, none, none⟩).call.exec countingEnv
    ((ObjectWrite.upsert "work" "lunch" "at noon" ⟨"VEVENT", some "20260301T120000Z",
      some "20260301T130000Z", some "Lunch"⟩).call.exec countingEnv foundedWorld).2).2

theorem noonWorld_utcTimes : UtcTimes noonWorld.db.toTables "work" := by
  intro o ho
  have hrows : (noonWorld.db.objectsOf "work").map (fun o => (o.dtstart, o.dtend)) =
      [(some "20260301T120000Z", some "20260301T130000Z"), (none, none)] := rfl
  have hmem := hrows ▸ List.mem_map_of_mem (f := fun o : CalendarObject => (o.dtstart, o.dtend)) ho
  simp only [List.mem_cons, Prod.mk.injEq, List.not_mem_nil, or_false] at hmem
  rcases hmem with ⟨hs, he⟩ | ⟨hs, he⟩
  · rw [hs, he]
    refine ⟨fun s h => ⟨firstOfMarch 12, ?_⟩, fun s h => ⟨firstOfMarch 13, ?_⟩⟩
    · rw [← Option.some.inj h]
      decide
    · rw [← Option.some.inj h]
      decide
  · rw [hs, he]
    exact ⟨nofun, nofun⟩

/-- A range that begins in the middle of the lunch. -/
theorem range_query_exact_noon :
    ∃ os, (listObjectsInRange "work" (utcText (firstOfMarch 12)) (utcText (firstOfMarch 18))).exec
        countingEnv noonWorld = (.ok os, noonWorld) ∧
      (∀ o, o ∈ os ↔ o ∈ noonWorld.db.objectsOf "work" ∧
        Overlaps (firstOfMarch 12) (firstOfMarch 18) o) ∧ os.Nodup ∧ os.Pairwise BeginsBy :=
  range_query_exact countingEnv noonWorld "work" (firstOfMarch 12) (firstOfMarch 18)
    noonWorld_utcTimes

end CaldavMcp
