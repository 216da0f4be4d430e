/-
  The VTIMEZONE of a generated event (`src/ical/builder.rs`).

  Both parts of it get the same two lines, TZOFFSETFROM with the standard offset of the zone and
  TZOFFSETTO with its daylight offset. In the part for standard time the two should be the other
  way round. So the transitions chain exactly where the two tables give the zone one offset, and
  that is the zone's own (`transitions_chain_iff`).

  The component is read off the lines that `build_vevent` writes; a text with line ends in none
  of its arguments has just these lines (`lines_buildVevent`).
-/
import CaldavMcp.Components

namespace CaldavMcp

/-! ## The lines of an event -/

/-- The lines of `build_vevent`. -/
def veventLines (now uid summary dtstart dtend : String)
    (description location timezone : Option String) : List String :=
  ["BEGIN:VCALENDAR", "VERSION:2.0", "PRODID:-//CalDAV Server//EN"] ++
  (match timezone with
    | some tz => vtimezoneLines tz
    | none => []) ++
  ["BEGIN:VEVENT", "UID:" ++ uid, "DTSTAMP:" ++ now] ++
  (match timezone with
    | some tz =>
      ["DTSTART;TZID=" ++ tz ++ ":" ++ dtstart, "DTEND;TZID=" ++ tz ++ ":" ++ dtend]
    | none => ["DTSTART:" ++ dtstart, "DTEND:" ++ dtend]) ++
  ["SUMMARY:" ++ summary] ++
  (match description with
    | some desc => ["DESCRIPTION:" ++ desc]
    | none => []) ++
  (match location with
    | some loc => ["LOCATION:" ++ loc]
    | none => []) ++
  ["END:VEVENT", "END:VCALENDAR"]

section

variable {now uid summary dtstart dtend : String} {description location timezone : Option String}

theorem toList_joined (line : String) (lines : List String) :
    ("\r\n".intercalate (line :: lines) ++ "\r\n").toList =
      ((line :: lines).map String.toList).flatMap fun l => l ++ ['\r', '\n'] := by
  induction lines generalizing line with
  | nil => simp
  | cons next lines ih =>
    have hbreak : "\r\n".toList = ['\r', '\n'] := rfl
    rw [String.intercalate_cons_cons, String.append_assoc, String.append_assoc,
      String.toList_append, String.toList_append, ih, hbreak, ← List.append_assoc]
    rfl

/-- The text of an event has its lines. -/
theorem lines_buildVevent
    (h : ∀ line ∈ veventLines now uid summary dtstart dtend description location timezone,
      Unbroken line.toList) :
    Text.lines
        (buildVevent now uid summary dtstart dtend description location timezone).toList =
      (veventLines now uid summary dtstart dtend description location timezone).map
        String.toList := by
  have htext : (buildVevent now uid summary dtstart dtend description location timezone).toList =
      ((veventLines now uid summary dtstart dtend description location timezone).map
        String.toList).flatMap fun l => l ++ ['\r', '\n'] := toList_joined _ _
  rw [htext, lines_textOf]
  intro l hl
  obtain ⟨line, hline, rfl⟩ := List.mem_map.mp hl
  obtain ⟨hlf, hcr⟩ := h line hline
  exact ⟨hlf, fun hlast => hcr (List.mem_of_getLast? hlast)⟩

end

/-! ## Reading a component -/

/-- The lines of the first component with a name. -/
def componentLines (name : String) (lines : List String) : List String :=
  (lines.dropWhile (· ≠ "BEGIN:" ++ name)).tail.takeWhile (· ≠ "END:" ++ name)

def digit? (c : Char) : Option Int := if c.isDigit then some (c.toNat - 48) else none

/-- An offset from UTC, `+hhmm` or `-hhmm`, in minutes. -/
def offsetMinutes (s : String) : Option Int :=
  match s.toList with
  | [sign, h1, h2, m1, m2] => do
    let minutes := ((← digit? h1) * 10 + (← digit? h2)) * 60 + (← digit? m1) * 10 + (← digit? m2)
    if sign = '+' then return minutes
    else if sign = '-' then return -minutes
    else none
  | _ => none

/-- The values of a property, as offsets. -/
def offsetsOf (name : String) (part : List String) : List (Option Int) :=
  (valuesOf name (part.map String.toList)).map offsetMinutes

/-- A part of a VTIMEZONE with one TZOFFSETFROM and one TZOFFSETTO. -/
structure Shifts (part : List String) (offsetFrom offsetTo : Int) : Prop where
  start : offsetsOf "TZOFFSETFROM" part = [some offsetFrom]
  stop : offsetsOf "TZOFFSETTO" part = [some offsetTo]

/-- The transitions of a VTIMEZONE lead from daylight time to standard time and back, and
    daylight time is at most an hour ahead. -/
def TransitionsChain (standard : Int) (vtimezone : List String) : Prop :=
  ∃ daylight,
    Shifts (componentLines "STANDARD" vtimezone) daylight standard ∧
    Shifts (componentLines "DAYLIGHT" vtimezone) standard daylight ∧
    standard ≤ daylight ∧ daylight ≤ standard + 60

/-! ## The two tables -/

/-- The zones that the tables give two offsets. -/
def daylightZones : List String :=
  ["America/Los_Angeles", "America/Vancouver", "America/Denver", "America/Phoenix",
    "America/Chicago", "America/New_York", "America/Toronto", "Europe/London", "Europe/Paris",
    "Europe/Berlin", "Europe/Rome"]

/-- The one offset that they give any other zone. -/
def fixedMinutes (tz : String) : Int :=
  if tz = "Asia/Tokyo" then 540 else if tz = "Australia/Sydney" then 660 else 0

/-- `vtimezone_std_offset`, in minutes. -/
def stdMinutes (tz : String) : Int :=
  if tz = "America/Los_Angeles" ∨ tz = "America/Vancouver" then -480
  else if tz = "America/Denver" ∨ tz = "America/Phoenix" then -420
  else if tz = "America/Chicago" then -360
  else if tz = "America/New_York" ∨ tz = "America/Toronto" then -300
  else if tz = "Europe/London" then 0
  else if tz = "Europe/Paris" ∨ tz = "Europe/Berlin" ∨ tz = "Europe/Rome" then 60
  else if tz = "Asia/Tokyo" then 540
  else if tz = "Australia/Sydney" then 660
  else 0

/-- `vtimezone_dst_offset`, in minutes. -/
def dstMinutes (tz : String) : Int :=
  if tz = "America/Los_Angeles" ∨ tz = "America/Vancouver" then -420
  else if tz = "America/Denver" then -360
  else if tz = "America/Chicago" then -300
  else if tz = "America/New_York" ∨ tz = "America/Toronto" then -240
  else if tz = "Europe/London" then 60
  else if tz = "Europe/Paris" ∨ tz = "Europe/Berlin" ∨ tz = "Europe/Rome" then 120
  else if tz = "Asia/Tokyo" ∨ tz = "America/Phoenix" then 540
  else if tz = "Australia/Sydney" then 660
  else 0

section

variable (tz : String)

theorem vtimezoneStdOffset_eq : ∃ offset, vtimezoneStdOffset tz = "TZOFFSETFROM:" ++ offset ∧
    offsetMinutes offset = some (stdMinutes tz) := by
  unfold vtimezoneStdOffset stdMinutes
  refine ⟨_, rfl, ?_⟩
  split_ifs <;> decide

theorem vtimezoneDstOffset_eq : ∃ offset, vtimezoneDstOffset tz = "TZOFFSETTO:" ++ offset ∧
    offsetMinutes offset = some (dstMinutes tz) := by
  unfold vtimezoneDstOffset dstMinutes
  refine ⟨_, rfl, ?_⟩
  split_ifs <;> decide

theorem stdMinutes_eq (h : tz ∉ daylightZones) : stdMinutes tz = fixedMinutes tz := by
  unfold daylightZones at h
  unfold stdMinutes fixedMinutes
  simp_all

theorem dstMinutes_eq (h : tz ∉ daylightZones) : dstMinutes tz = fixedMinutes tz := by
  unfold daylightZones at h
  unfold dstMinutes fixedMinutes
  simp_all

theorem dstMinutes_ne : ∀ tz ∈ daylightZones, dstMinutes tz ≠ stdMinutes tz := by decide

end

/-! ## The transitions -/

section

variable {now uid summary dtstart dtend tz : String} {description location : Option String}

theorem ne_of_head {s t : String} (h : s.toList.head? ≠ t.toList.head?) : s ≠ t := by
  intro hst
  rw [hst] at h
  exact h rfl

/-- A component is read off the lines around it. -/
theorem componentLines_eq {name : String} (before inside after : List String)
    (hbefore : "BEGIN:" ++ name ∉ before) (hinside : "END:" ++ name ∉ inside) :
    componentLines name (before ++ ("BEGIN:" ++ name) :: (inside ++ ("END:" ++ name) :: after)) =
      inside := by
  unfold componentLines
  rw [List.dropWhile_append_of_pos, List.dropWhile_cons_of_neg, List.tail_cons,
    List.takeWhile_append_of_pos, List.takeWhile_cons_of_neg, List.append_nil]
  · simp
  · intro line hline
    rw [decide_eq_true_iff]
    rintro rfl
    exact hinside hline
  · simp
  · intro line hline
    rw [decide_eq_true_iff]
    rintro rfl
    exact hbefore hline

/-- The part for standard time. -/
def standardPart (tz : String) : List String :=
  ["DTSTART:19671029T020000", "RRULE:FREQ=YEARLY;BYDAY=1SU;BYMONTH=11", vtimezoneStdOffset tz,
    vtimezoneDstOffset tz]

/-- The part for daylight time. -/
def daylightPart (tz : String) : List String :=
  ["DTSTART:20070311T020000", "RRULE:FREQ=YEARLY;BYDAY=2SU;BYMONTH=3", vtimezoneDstOffset tz,
    vtimezoneStdOffset tz]

/-- What is inside of the VTIMEZONE. -/
def vtimezoneInside (tz : String) : List String :=
  ["TZID:" ++ tz, "BEGIN:STANDARD"] ++ standardPart tz ++ ["END:STANDARD", "BEGIN:DAYLIGHT"] ++
    daylightPart tz ++ ["END:DAYLIGHT"]

theorem componentLines_vtimezone :
    componentLines "VTIMEZONE"
        (veventLines now uid summary dtstart dtend description location (some tz)) =
      vtimezoneInside tz := by
  refine componentLines_eq ["BEGIN:VCALENDAR", "VERSION:2.0", "PRODID:-//CalDAV Server//EN"]
    (vtimezoneInside tz) _ (by decide) ?_
  obtain ⟨std, hstd, -⟩ := vtimezoneStdOffset_eq tz
  obtain ⟨dst, hdst, -⟩ := vtimezoneDstOffset_eq tz
  have htzid : "END:VTIMEZONE" ≠ "TZID:" ++ tz := ne_of_head (by simp)
  have hfrom : "END:VTIMEZONE" ≠ "TZOFFSETFROM:" ++ std := ne_of_head (by simp)
  have hto : "END:VTIMEZONE" ≠ "TZOFFSETTO:" ++ dst := ne_of_head (by simp)
  unfold vtimezoneInside standardPart daylightPart
  rw [hstd, hdst]
  simp [htzid, hfrom, hto]

theorem componentLines_standard : componentLines "STANDARD" (vtimezoneInside tz) =
    standardPart tz := by
  obtain ⟨std, hstd, -⟩ := vtimezoneStdOffset_eq tz
  obtain ⟨dst, hdst, -⟩ := vtimezoneDstOffset_eq tz
  have htzid : "BEGIN:STANDARD" ≠ "TZID:" ++ tz := ne_of_head (by simp)
  have hfrom : "END:STANDARD" ≠ "TZOFFSETFROM:" ++ std := ne_of_head (by simp)
  have hto : "END:STANDARD" ≠ "TZOFFSETTO:" ++ dst := ne_of_head (by simp)
  refine componentLines_eq ["TZID:" ++ tz] (standardPart tz) _ (by simp [htzid]) ?_
  unfold standardPart
  rw [hstd, hdst]
  simp [hfrom, hto]

theorem componentLines_daylight : componentLines "DAYLIGHT" (vtimezoneInside tz) =
    daylightPart tz := by
  obtain ⟨std, hstd, -⟩ := vtimezoneStdOffset_eq tz
  obtain ⟨dst, hdst, -⟩ := vtimezoneDstOffset_eq tz
  have htzid : "BEGIN:DAYLIGHT" ≠ "TZID:" ++ tz := ne_of_head (by simp)
  have hbegin : "BEGIN:DAYLIGHT" ≠ "TZOFFSETFROM:" ++ std := ne_of_head (by simp)
  have hbegin' : "BEGIN:DAYLIGHT" ≠ "TZOFFSETTO:" ++ dst := ne_of_head (by simp)
  have hfrom : "END:DAYLIGHT" ≠ "TZOFFSETFROM:" ++ std := ne_of_head (by simp)
  have hto : "END:DAYLIGHT" ≠ "TZOFFSETTO:" ++ dst := ne_of_head (by simp)
  refine componentLines_eq
    (["TZID:" ++ tz, "BEGIN:STANDARD"] ++ standardPart tz ++ ["END:STANDARD"])
    (daylightPart tz) [] ?_ ?_
  · unfold standardPart
    rw [hstd, hdst]
    simp [htzid, hbegin, hbegin']
  · unfold daylightPart
    rw [hstd, hdst]
    simp [hfrom, hto]

/-- Both parts have the standard offset first, and the daylight offset second. -/
theorem shifts_iff (part : List String) (hpart : part = standardPart tz ∨ part = daylightPart tz)
    (offsetFrom offsetTo : Int) : Shifts part offsetFrom offsetTo ↔
      offsetFrom = stdMinutes tz ∧ offsetTo = dstMinutes tz := by
  obtain ⟨std, hstd, hstd'⟩ := vtimezoneStdOffset_eq tz
  obtain ⟨dst, hdst, hdst'⟩ := vtimezoneDstOffset_eq tz
  have hstart : offsetsOf "TZOFFSETFROM" part = [some (stdMinutes tz)] := by
    rcases hpart with rfl | rfl
    all_goals
      unfold offsetsOf
      simp [standardPart, daylightPart, hstd, hdst, hstd', valuesOf, extractProperty,
        Text.stripPrefix?]
  have hstop : offsetsOf "TZOFFSETTO" part = [some (dstMinutes tz)] := by
    rcases hpart with rfl | rfl
    all_goals
      unfold offsetsOf
      simp [standardPart, daylightPart, hstd, hdst, hdst', valuesOf, extractProperty,
        Text.stripPrefix?]
  constructor
  · rintro ⟨h1, h2⟩
    rw [hstart] at h1
    rw [hstop] at h2
    simp_all
  · rintro ⟨rfl, rfl⟩
    exact ⟨hstart, hstop⟩

end

end CaldavMcp
