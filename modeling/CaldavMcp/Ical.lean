/-
  `src/ical/parser.rs` and `src/ical/builder.rs`.

  The parser works on lines of characters; `extractFields` is the loop over the unfolded
  lines with its two accumulators (the fields, and whether a component is open).
-/
import CaldavMcp.Text
import CaldavMcp.Db.Exec

namespace CaldavMcp

open Program

/-! ## Parser -/

/-- Extracted fields from iCalendar data. -/
structure IcalFields where
  uid : Option String
  dtstart : Option String
  dtend : Option String
  summary : Option String
  componentType : String
  deriving DecidableEq, Repr

/-- Unfold line continuations, with the line under construction. -/
def unfoldLinesFrom (current : List Char) : List (List Char) → List (List Char)
  | [] => if current.isEmpty then [] else [current]
  | rawLine :: rest =>
    match Text.trimEndMatches ['\r'] rawLine with
    | ' ' :: more | '\t' :: more => unfoldLinesFrom (current ++ more) rest
    | line =>
      if current.isEmpty then unfoldLinesFrom line rest
      else current :: unfoldLinesFrom line rest

/-- Unfold iCalendar line continuations (lines starting with space or tab). -/
def unfoldLines (data : List Char) : List (List Char) := unfoldLinesFrom [] (Text.lines data)

/-- Extract a property value, handling parameters (`DTSTART;TZID=...:20260301T090000`). -/
def extractProperty (line : List Char) (name : String) : Option String :=
  match Text.stripPrefix? name.toList line with
  | some (':' :: stripped) => some (String.ofList stripped)
  | some (';' :: rest) => (Text.splitOnce ':' (';' :: rest)).map fun (_, v) => String.ofList v
  | _ => none

/-- Whether a component is open after a line, and the component type. -/
def openComponent (line : List Char) (inComponent : Bool) (componentType : String) :
    Bool × String :=
  if Text.startsWith "BEGIN:VEVENT".toList line then (true, "VEVENT")
  else if Text.startsWith "BEGIN:VTODO".toList line then (true, "VTODO")
  else if Text.startsWith "END:VEVENT".toList line || Text.startsWith "END:VTODO".toList line then
    (false, componentType)
  else (inComponent, componentType)

/-- The assignment a line makes. -/
def setField (fields : IcalFields) (line : List Char) : IcalFields :=
  match extractProperty line "UID" with
  | some value => { fields with uid := some value }
  | none =>
  match extractProperty line "DTSTART" with
  | some value => { fields with dtstart := some value }
  | none =>
  match extractProperty line "DTEND" with
  | some value => { fields with dtend := some value }
  | none =>
  match extractProperty line "DUE" with
  -- VTODO uses DUE instead of DTEND
  | some value => if fields.dtend.isNone then { fields with dtend := some value } else fields
  | none =>
  match extractProperty line "SUMMARY" with
  | some value => { fields with summary := some value }
  | none => fields

/-- The loop of `extract_fields`. -/
def extractFieldsFrom (fields : IcalFields) (inComponent : Bool) :
    List (List Char) → IcalFields
  | [] => fields
  | rawLine :: rest =>
    let line := Text.trim rawLine
    let opened := openComponent line inComponent fields.componentType
    let fields := { fields with componentType := opened.2 }
    if !opened.1 && !Text.startsWith "UID".toList line then extractFieldsFrom fields opened.1 rest
    else extractFieldsFrom (setField fields line) opened.1 rest

/-- Extract key fields from raw iCalendar data. -/
def extractFields (icalData : String) : IcalFields :=
  extractFieldsFrom
    { uid := none, dtstart := none, dtend := none, summary := none, componentType := "VEVENT" }
    false (unfoldLines icalData.toList)

/-! ## Builder -/

/-- The TZOFFSETFROM line for the standard (winter) period of a timezone. -/
def vtimezoneStdOffset (tz : String) : String :=
  let offset :=
    if tz = "America/Los_Angeles" ∨ tz = "America/Vancouver" then "-0800"
    else if tz = "America/Denver" ∨ tz = "America/Phoenix" then "-0700"
    else if tz = "America/Chicago" then "-0600"
    else if tz = "America/New_York" ∨ tz = "America/Toronto" then "-0500"
    else if tz = "Europe/London" then "+0000"
    else if tz = "Europe/Paris" ∨ tz = "Europe/Berlin" ∨ tz = "Europe/Rome" then "+0100"
    else if tz = "Asia/Tokyo" then "+0900"
    else if tz = "Australia/Sydney" then "+1100"
    else "+0000"
  "TZOFFSETFROM:" ++ offset

/-- The TZOFFSETTO line for the daylight-saving (summer) period of a timezone. -/
def vtimezoneDstOffset (tz : String) : String :=
  let offset :=
    if tz = "America/Los_Angeles" ∨ tz = "America/Vancouver" then "-0700"
    else if tz = "America/Denver" then "-0600"
    else if tz = "America/Chicago" then "-0500"
    else if tz = "America/New_York" ∨ tz = "America/Toronto" then "-0400"
    else if tz = "Europe/London" then "+0100"
    else if tz = "Europe/Paris" ∨ tz = "Europe/Berlin" ∨ tz = "Europe/Rome" then "+0200"
    else if tz = "Asia/Tokyo" ∨ tz = "America/Phoenix" then "+0900"
    else if tz = "Australia/Sydney" then "+1100"
    else "+0000"
  "TZOFFSETTO:" ++ offset

/-- The VTIMEZONE lines. -/
def vtimezoneLines (tz : String) : List String :=
  ["BEGIN:VTIMEZONE", "TZID:" ++ tz, "BEGIN:STANDARD", "DTSTART:19671029T020000",
    "RRULE:FREQ=YEARLY;BYDAY=1SU;BYMONTH=11", vtimezoneStdOffset tz, vtimezoneDstOffset tz,
    "END:STANDARD", "BEGIN:DAYLIGHT", "DTSTART:20070311T020000",
    "RRULE:FREQ=YEARLY;BYDAY=2SU;BYMONTH=3", vtimezoneDstOffset tz, vtimezoneStdOffset tz,
    "END:DAYLIGHT", "END:VTIMEZONE"]

/-- Build a minimal VCALENDAR wrapping a VEVENT; `now` is the formatted time. -/
def buildVevent (now uid summary dtstart dtend : String)
    (description location timezone : Option String) : String :=
  let lines :=
    ["BEGIN:VCALENDAR", "VERSION:2.0", "PRODID:-//CalDAV Server//EN"] ++
    (match timezone with
      | some tz => vtimezoneLines tz
      | none => []) ++
    ["BEGIN:VEVENT", "UID:" ++ uid, "DTSTAMP:" ++ now] ++
    (match timezone with
      | some tz =>
        ["DTSTART;TZID=" ++ tz ++ ":" ++ dtstart, "DTEND;TZID=" ++ tz ++ ":" ++ dtend]
      | none => ["DTSTART:" ++ dtstart, "DTEND:" ++ dtend]) ++
    ["SUMMARY:" ++ summary] ++
    (match description with
      | some desc => ["DESCRIPTION:" ++ desc]
      | none => []) ++
    (match location with
      | some loc => ["LOCATION:" ++ loc]
      | none => []) ++
    ["END:VEVENT", "END:VCALENDAR"]
  "\r\n".intercalate lines ++ "\r\n"

/-- A new unique event UID. -/
def generateUid : Action String := do
  return (← Prog.perform Op.newV4) ++ "@caldav-server"

end CaldavMcp
