/-
  What `extract_fields` reads in a text that `build_vevent` wrote.

  The builder writes its arguments as they are. An argument with a line feed makes several lines,
  so each argument is followed up to the next line of the builder: `linesOfText_joined` cuts the
  text into these pieces. A piece without a line feed is one line, and only white space at its
  end is lost (`linesOfText_oneLine`).

  So the four properties are read back exactly when their arguments are on one line, without
  white space at the end, and nothing in the further lines of the description and the location
  counts instead (`EventArgs.readBack_iff`).
-/
import CaldavMcp.Mcp.Outcomes
import CaldavMcp.Timezones

namespace Text

/-! ## Trimming -/

/-- `trim_end`. -/
def trimEnd (s : List Char) : List Char := (s.reverse.dropWhile isWhitespace).reverse

section

variable {c : Char} {s : List Char}

theorem trim_white (hc : isWhitespace c = true) (s : List Char) : trim (s ++ [c]) = trim s := by
  unfold trim
  congr 1
  by_cases hs : s.dropWhile isWhitespace = []
  · rw [List.dropWhile_append, hs]
    simp [hc]
  · rw [List.dropWhile_append, if_neg (by simpa using hs), List.reverse_append,
      List.reverse_singleton, List.singleton_append, List.dropWhile_cons_of_pos hc]

/-- The returns at the end of a line are white space. -/
theorem trim_trimEndMatches (s : List Char) : trim (trimEndMatches ['\r'] s) = trim s := by
  have h : ∀ n s, trim (trimEndTimes ['\r'] n s) = trim s := by
    intro n
    induction n with
    | zero => exact fun s => rfl
    | succ n ih =>
      intro s
      cases hs : stripSuffix? ['\r'] s with
      | none => simp [trimEndTimes, hs]
      | some s' =>
        simp only [trimEndTimes, hs]
        rw [ih, stripSuffix?_eq_some.mp hs, trim_white (by decide)]
  exact h s.length s

/-- A start that ends with another character stays. -/
theorem trimEndMatches_cons (hc : c ≠ '\r') (s : List Char) :
    ∃ s', trimEndMatches ['\r'] (c :: s) = c :: s' := by
  have h : ∀ n s, ∃ s', trimEndTimes ['\r'] n (c :: s) = c :: s' := by
    intro n
    induction n with
    | zero => exact fun s => ⟨s, rfl⟩
    | succ n ih =>
      intro s
      cases hs : stripSuffix? ['\r'] (c :: s) with
      | none => exact ⟨s, by simp [trimEndTimes, hs]⟩
      | some r =>
        simp only [trimEndTimes, hs]
        cases r with
        | nil =>
          have := stripSuffix?_eq_some.mp hs
          exact absurd (List.cons.inj this).1 hc
        | cons d r =>
          have := stripSuffix?_eq_some.mp hs
          obtain rfl := (List.cons.inj this).1
          exact ih r
  exact h _ s

/-- A start without white space at its ends stays as it is. -/
theorem trim_append {p : List Char} (hhead : p.head?.map isWhitespace = some false)
    (hlast : p.getLast?.map isWhitespace = some false) (s : List Char) :
    trim (p ++ s) = p ++ trimEnd s := by
  obtain ⟨d, hd, hwhite⟩ := Option.map_eq_some_iff.mp hhead
  obtain ⟨e, he, hwhite'⟩ := Option.map_eq_some_iff.mp hlast
  have hfront : (p ++ s).dropWhile isWhitespace = p ++ s := by
    cases p with
    | nil => cases hd
    | cons a p =>
      obtain rfl := Option.some.inj hd
      exact List.dropWhile_cons_of_neg (by rw [hwhite]; decide)
  have hback : p.reverse.dropWhile isWhitespace = p.reverse := by
    rw [← List.head?_reverse] at he
    cases hp : p.reverse with
    | nil =>
      rw [hp] at he
      cases he
    | cons a q =>
      rw [hp] at he
      obtain rfl := Option.some.inj he
      exact List.dropWhile_cons_of_neg (by rw [hwhite']; decide)
  unfold trim trimEnd
  rw [hfront, List.reverse_append, List.dropWhile_append, hback]
  split
  · rename_i h
    rw [List.isEmpty_iff.mp h]
    simp
  · rw [List.reverse_append, List.reverse_reverse]

/-! ## Lines behind one another -/

/-- A line that has begun keeps its first character. -/
theorem linesFrom_begun (hc : c ≠ '\r') (rest : List Char) :
    ∀ line, ∃ more lines, linesFrom (line ++ [c]) rest = (c :: more) :: lines := by
  induction rest with
  | nil =>
    intro line
    refine ⟨line.reverse, [], ?_⟩
    unfold linesFrom
    rw [if_neg (by simp), List.reverse_append, List.reverse_singleton, List.singleton_append]
  | cons d rest ih =>
    intro line
    by_cases hd : d = '\n'
    · rw [hd]
      cases line with
      | nil =>
        refine ⟨[], linesFrom [] rest, ?_⟩
        rw [List.nil_append, linesFrom, if_pos rfl]
        · rfl
        · rintro rest' h
          exact hc (List.cons.inj h).1
      | cons e line =>
        by_cases he : e = '\r'
        · refine ⟨line.reverse, linesFrom [] rest, ?_⟩
          rw [he, List.cons_append, linesFrom, if_pos rfl, List.reverse_append]
          rfl
        · refine ⟨line.reverse ++ [e], linesFrom [] rest, ?_⟩
          rw [List.cons_append, linesFrom, if_pos rfl]
          · simp
          · rintro rest' h
            exact he (List.cons.inj h).1
    · obtain ⟨more, lines, h⟩ := ih (d :: line)
      refine ⟨more, lines, ?_⟩
      rw [← h]
      change (if d = '\n' then _ else linesFrom (d :: (line ++ [c])) rest) = _
      rw [if_neg hd]
      rfl

/-- No line has a line feed. -/
theorem not_mem_linesFrom (s : List Char) : ∀ line, '\n' ∉ line →
    ∀ l ∈ linesFrom line s, '\n' ∉ l := by
  induction s with
  | nil =>
    intro line hline l hl
    unfold linesFrom at hl
    split at hl
    · cases hl
    · rw [List.mem_singleton.mp hl, List.mem_reverse]
      exact hline
  | cons c s ih =>
    intro line hline l hl
    unfold linesFrom at hl
    split at hl
    · rcases List.mem_cons.mp hl with rfl | hl
      · split
        · rw [List.mem_reverse]
          exact fun h => hline (List.mem_cons_of_mem _ h)
        · rw [List.mem_reverse]
          exact hline
      · exact ih [] List.not_mem_nil l hl
    · rename_i hc
      refine ih (c :: line) ?_ l hl
      rw [List.mem_cons, not_or]
      exact ⟨Ne.symm hc, hline⟩

theorem eq_of_splitOnce {before after : List Char} (h : splitOnce c s = some (before, after)) :
    s = before ++ c :: after := by
  by_cases hc : c ∈ s
  · obtain ⟨front, rest, rfl, hfront⟩ := List.eq_append_cons_of_mem hc
    rw [splitOnce_append hfront] at h
    obtain ⟨rfl, rfl⟩ := Prod.mk.inj (Option.some.inj h)
    rfl
  · rw [splitOnce_of_not_mem hc] at h
    cases h

theorem mem_of_mem_trimEndMatches {p : List Char} (h : c ∈ trimEndMatches p s) : c ∈ s := by
  have hmem : ∀ n s, c ∈ trimEndTimes p n s → c ∈ s := by
    intro n
    induction n with
    | zero => exact fun s hc => hc
    | succ n ih =>
      intro s hc
      cases hs : stripSuffix? p s with
      | none =>
        simp only [trimEndTimes, hs] at hc
        exact hc
      | some s' =>
        simp only [trimEndTimes, hs] at hc
        rw [stripSuffix?_eq_some.mp hs]
        exact List.mem_append_left _ (ih s' hc)
  exact hmem s.length s h

theorem mem_of_mem_trim (h : c ∈ trim s) : c ∈ s := by
  unfold trim at h
  rw [List.mem_reverse] at h
  have hmem := (List.dropWhile_sublist _).mem h
  rw [List.mem_reverse] at hmem
  exact (List.dropWhile_sublist _).mem hmem

/-- A trimmed text has no white space at its end. -/
theorem trim_last (h : c ∈ (trim s).getLast?) : isWhitespace c = false := by
  unfold trim at h
  rw [List.getLast?_reverse] at h
  have hnot := List.head?_dropWhile_not isWhitespace (s.dropWhile isWhitespace).reverse
  rw [Option.mem_def.mp h] at hnot
  exact hnot

theorem trimEnd_eq_self (h : ∀ d ∈ s.getLast?, isWhitespace d = false) : trimEnd s = s := by
  unfold trimEnd
  rw [← List.head?_reverse] at h
  cases hs : s.reverse with
  | nil => exact (List.reverse_eq_nil_iff.mp hs).symm
  | cons d t =>
    rw [hs] at h
    rw [List.dropWhile_cons_of_neg (by rw [h d rfl]; decide), ← hs, List.reverse_reverse]

end

end Text

namespace CaldavMcp

open Text

/-! ## Pieces of a text -/

/-- A piece of a text that starts a line: it begins with a character that is no white space. -/
def StartsLine (s : List Char) : Prop := s.head?.map isWhitespace = some false

section

variable {piece rest : List Char} {current : List Char}

/-- What a line does to the line under construction: it goes on, or ends. -/
theorem unfoldLinesFrom_cases (current line : List Char) :
    (∃ c more, trimEndMatches ['\r'] line = c :: more ∧
      ∀ lines, unfoldLinesFrom current (line :: lines) = unfoldLinesFrom (current ++ more) lines) ∨
    ∀ lines, unfoldLinesFrom current (line :: lines) =
      flush current ++ unfoldLinesFrom (trimEndMatches ['\r'] line) lines := by
  by_cases hindented : ∀ c ∈ (trimEndMatches ['\r'] line).head?, c ≠ ' ' ∧ c ≠ '\t'
  · exact Or.inr (unfoldLinesFrom_unindented rfl hindented current)
  · cases hline : trimEndMatches ['\r'] line with
    | nil =>
      rw [hline] at hindented
      exact absurd (fun c hc => nomatch hc) hindented
    | cons c more =>
      rw [hline] at hindented
      have hc : c = ' ' ∨ c = '\t' := by
        by_contra hc
        rw [not_or] at hc
        apply hindented
        intro d hd
        rw [← Option.some.inj hd]
        exact hc
      refine Or.inl ⟨c, more, rfl, fun lines => ?_⟩
      rw [unfoldLinesFrom, hline]
      rcases hc with rfl | rfl <;> rfl

theorem unfoldLinesFrom_step (current line : List Char) :
    ∃ done next, ∀ lines, unfoldLinesFrom current (line :: lines) =
      done ++ unfoldLinesFrom next lines := by
  obtain ⟨c, more, -, hstep⟩ | hstep := unfoldLinesFrom_cases current line
  · exact ⟨[], _, hstep⟩
  · exact ⟨_, _, hstep⟩

/-- A piece that starts a line ends the one before. -/
theorem unfoldLinesFrom_starts (h : StartsLine rest) (current : List Char) :
    unfoldLinesFrom current (lines rest) = flush current ++ unfoldLines rest := by
  obtain ⟨c, hc, hwhite⟩ := Option.map_eq_some_iff.mp h
  cases rest with
  | nil => cases hc
  | cons d rest =>
    obtain rfl := Option.some.inj hc
    have hne : ∀ white, isWhitespace white = true → d ≠ white := by
      rintro white hw rfl
      rw [hwhite] at hw
      cases hw
    have hlines : lines (d :: rest) = linesFrom [d] rest := if_neg (hne '\n' (by decide))
    obtain ⟨more, ls, hls⟩ := linesFrom_begun (hne '\r' (by decide)) rest []
    obtain ⟨more', hmore⟩ := trimEndMatches_cons (hne '\r' (by decide)) more
    have hstep : ∀ current, unfoldLinesFrom current (lines (d :: rest)) =
        flush current ++ unfoldLinesFrom (d :: more') ls := by
      intro current
      rw [hlines, ← List.nil_append [d], hls]
      apply unfoldLinesFrom_unindented hmore
      intro e he
      rw [← Option.some.inj he]
      exact ⟨hne ' ' (by decide), hne '\t' (by decide)⟩
    unfold unfoldLines
    rw [hstep, hstep]
    rfl

/-- A text whose rest starts a line is read in two parts. -/
theorem unfoldLinesFrom_crlf (hrest : rest = [] ∨ StartsLine rest) (piece : List Char) :
    ∀ line current, unfoldLinesFrom current (linesFrom line (piece ++ '\r' :: '\n' :: rest)) =
      unfoldLinesFrom current (linesFrom line piece) ++ unfoldLines rest := by
  have hnext : ∀ current, unfoldLinesFrom current (lines rest) =
      flush current ++ unfoldLines rest := by
    intro current
    obtain rfl | hrest := hrest
    · exact (List.append_nil _).symm
    · exact unfoldLinesFrom_starts hrest current
  induction piece with
  | nil =>
    intro line current
    have hend : linesFrom line ([] ++ '\r' :: '\n' :: rest) = line.reverse :: lines rest := rfl
    rw [hend]
    cases line with
    | nil =>
      have hblank : trimEndMatches ['\r'] [] = [] := rfl
      rw [List.reverse_nil, unfoldLinesFrom_unindented hblank (by simp), hnext]
      rfl
    | cons d line =>
      have hlast : linesFrom (d :: line) [] = [(d :: line).reverse] := rfl
      obtain ⟨done, next, hstep⟩ := unfoldLinesFrom_step current (d :: line).reverse
      rw [hlast, hstep, hstep, hnext, List.append_assoc]
      rfl
  | cons c piece ih =>
    intro line current
    by_cases hc : c = '\n'
    · obtain ⟨first, hfirst⟩ : ∃ first, ∀ s, linesFrom line ('\n' :: s) =
          first :: linesFrom [] s := ⟨_, fun s => if_pos rfl⟩
      obtain ⟨done, next, hstep⟩ := unfoldLinesFrom_step current first
      rw [hc, List.cons_append, hfirst, hfirst, hstep, hstep, ih, List.append_assoc]
    · have hsame : ∀ s, linesFrom line (c :: s) = linesFrom (c :: line) s := fun s => if_neg hc
      rw [List.cons_append, hsame, hsame, ih]

/-- A text of pieces is read piece by piece. -/
theorem unfoldLines_joined {pieces : List (List Char)} (h : ∀ p ∈ pieces, StartsLine p) :
    unfoldLines (pieces.flatMap fun p => p ++ ['\r', '\n']) = pieces.flatMap unfoldLines := by
  induction pieces with
  | nil => rfl
  | cons p pieces ih =>
    rw [List.forall_mem_cons] at h
    rw [List.flatMap_cons, List.flatMap_cons, ← ih h.2, List.append_assoc]
    have hrest : pieces.flatMap (fun p => p ++ ['\r', '\n']) = [] ∨
        StartsLine (pieces.flatMap fun p => p ++ ['\r', '\n']) := by
      cases pieces with
      | nil => exact Or.inl rfl
      | cons q pieces =>
        obtain ⟨c, hc, hwhite⟩ := Option.map_eq_some_iff.mp (h.2 q List.mem_cons_self)
        refine Or.inr (Option.map_eq_some_iff.mpr ⟨c, ?_, hwhite⟩)
        rw [List.flatMap_cons, List.append_assoc, List.head?_append, hc]
        rfl
    exact unfoldLinesFrom_crlf hrest p [] []

end

/-- Joined lines are read one after the other. -/
theorem linesOfText_joined {lines : List String} (hne : lines ≠ [])
    (h : ∀ line ∈ lines, StartsLine line.toList) :
    linesOfText ("\r\n".intercalate lines ++ "\r\n") = lines.flatMap linesOfText := by
  have hstart : ∀ p ∈ lines.map String.toList, StartsLine p := by
    intro p hp
    obtain ⟨l, hl, rfl⟩ := List.mem_map.mp hp
    exact h l hl
  obtain ⟨line, rest, rfl⟩ := List.exists_cons_of_ne_nil hne
  unfold linesOfText
  rw [toList_joined, unfoldLines_joined hstart, List.map_flatMap, List.flatMap_map]

/-- What the builder writes in front of an argument: a piece of a line without white space at
    its ends. -/
structure Label (p : String) : Prop where
  noLineFeed : '\n' ∉ p.toList
  head : p.toList.head?.map isWhitespace = some false
  last : p.toList.getLast?.map isWhitespace = some false

instance (p : String) : Decidable (Label p) :=
  decidable_of_iff ('\n' ∉ p.toList ∧ p.toList.head?.map isWhitespace = some false ∧
    p.toList.getLast?.map isWhitespace = some false)
    ⟨fun h => ⟨h.1, h.2.1, h.2.2⟩, fun h => ⟨h.noLineFeed, h.head, h.last⟩⟩

theorem Label.startsLine {p : String} (h : Label p) (s : String) :
    StartsLine (p ++ s).toList := by
  obtain ⟨c, hc, hwhite⟩ := Option.map_eq_some_iff.mp h.head
  refine Option.map_eq_some_iff.mpr ⟨c, ?_, hwhite⟩
  rw [String.toList_append, List.head?_append, hc]
  rfl

/-- A piece without a line feed is one line. -/
theorem Label.linesOfText {p s : String} (h : Label p) (hs : '\n' ∉ s.toList) :
    linesOfText (p ++ s) = [p.toList ++ trimEnd s.toList] := by
  obtain ⟨c, hc, hwhite⟩ := Option.map_eq_some_iff.mp (h.startsLine s)
  have hlf : '\n' ∉ (p ++ s).toList := by
    rw [String.toList_append, List.mem_append, not_or]
    exact ⟨h.noLineFeed, hs⟩
  have hne : (p ++ s).toList ≠ [] := by
    intro hnil
    rw [hnil] at hc
    cases hc
  have hread : unfoldLines (p ++ s).toList = [trimEndMatches ['\r'] (p ++ s).toList] := by
    cases htext : (p ++ s).toList with
    | nil => exact absurd htext hne
    | cons d text =>
      rw [htext] at hc hlf
      obtain rfl := Option.some.inj hc
      have hnot : ∀ white, isWhitespace white = true → d ≠ white := by
        rintro white hw rfl
        rw [hwhite] at hw
        cases hw
      obtain ⟨text', htrim⟩ := trimEndMatches_cons (hnot '\r' (by decide)) text
      unfold unfoldLines
      rw [lines_last hlf (List.cons_ne_nil _ _), htrim, unfoldLinesFrom_unindented htrim]
      · rfl
      · intro e he
        rw [← Option.some.inj he]
        exact ⟨hnot ' ' (by decide), hnot '\t' (by decide)⟩
  unfold CaldavMcp.linesOfText
  rw [hread, List.map_singleton, trim_trimEndMatches, String.toList_append,
    trim_append h.head h.last]

/-! ## The pieces of an event -/

namespace EventArgs

variable (a : EventArgs)

/-- What stands before the event. -/
def before : List String :=
  ["BEGIN:VCALENDAR", "VERSION:2.0", "PRODID:-//CalDAV Server//EN"] ++
    a.timezone.elim [] vtimezoneLines

/-- The line of a time, up to its value. -/
def timeLabel (name : String) : String :=
  a.timezone.elim (name ++ ":") fun tz => name ++ ";TZID=" ++ tz ++ ":"

/-- The pieces that are one line each. -/
def properties (now uid : String) : List String :=
  ["UID:" ++ uid, "DTSTAMP:" ++ now, a.timeLabel "DTSTART" ++ a.start, a.timeLabel "DTEND" ++ a.stop,
    "SUMMARY:" ++ a.title]

/-- The pieces that may be several lines. -/
def notes : List String :=
  (a.description.map ("DESCRIPTION:" ++ ·)).toList ++ (a.location.map ("LOCATION:" ++ ·)).toList

theorem veventLines_eq (now uid : String) :
    veventLines now uid a.title a.start a.stop a.description a.location a.timezone =
      a.before ++ "BEGIN:VEVENT" ::
        (a.properties now uid ++ (a.notes ++ ["END:VEVENT", "END:VCALENDAR"])) := by
  obtain ⟨title, start, stop, description, location, timezone⟩ := a
  cases timezone <;> cases description <;> cases location <;> rfl

/-- The lines of the description and the location. -/
def noteLines : List Line := a.notes.flatMap linesOfText

/-- Those of them that the loop looks at. -/
def countedNotes : List Line := takenFrom true a.noteLines

/-- The lines of the properties, without white space at the end. -/
def propertyLines (now uid : String) : List Line :=
  ["UID:".toList ++ trimEnd uid.toList, "DTSTAMP:".toList ++ trimEnd now.toList,
    (a.timeLabel "DTSTART").toList ++ trimEnd a.start.toList,
    (a.timeLabel "DTEND").toList ++ trimEnd a.stop.toList,
    "SUMMARY:".toList ++ trimEnd a.title.toList]

/-- No argument but the description and the location has a line feed. -/
structure NoLineFeed (uid : String) : Prop where
  uid : '\n' ∉ uid.toList
  title : '\n' ∉ a.title.toList
  start : '\n' ∉ a.start.toList
  stop : '\n' ∉ a.stop.toList
  timezone : ∀ tz ∈ a.timezone, '\n' ∉ tz.toList

end EventArgs

/-- A line that the loop passes over outside of a component. -/
def Passed (line : Line) : Prop :=
  marks line = false ∧ Text.startsWith "UID".toList line = false

instance (line : Line) : Decidable (Passed line) :=
  inferInstanceAs (Decidable (marks line = false ∧ Text.startsWith "UID".toList line = false))

theorem offset_label (tz : String) :
    (∃ offset, vtimezoneStdOffset tz = "TZOFFSETFROM:" ++ offset ∧ '\n' ∉ offset.toList) ∧
      ∃ offset, vtimezoneDstOffset tz = "TZOFFSETTO:" ++ offset ∧ '\n' ∉ offset.toList := by
  unfold vtimezoneStdOffset vtimezoneDstOffset
  refine ⟨⟨_, rfl, ?_⟩, _, rfl, ?_⟩
  · split_ifs <;> decide
  · split_ifs <;> decide

section

variable {a : EventArgs} {now uid : String}

theorem Label.passed {p s : String} (h : Label p) (hs : '\n' ∉ s.toList)
    (hpassed : Passed (p.toList ++ trimEnd s.toList)) :
    StartsLine (p ++ s).toList ∧ ∀ line ∈ CaldavMcp.linesOfText (p ++ s), Passed line := by
  refine ⟨h.startsLine s, ?_⟩
  rw [h.linesOfText hs, List.forall_mem_singleton]
  exact hpassed

/-- The pieces of a VTIMEZONE with nothing of the event in them. -/
def fixedLines : List String :=
  ["BEGIN:VCALENDAR", "VERSION:2.0", "PRODID:-//CalDAV Server//EN", "BEGIN:VTIMEZONE",
    "BEGIN:STANDARD", "DTSTART:19671029T020000", "RRULE:FREQ=YEARLY;BYDAY=1SU;BYMONTH=11",
    "END:STANDARD", "BEGIN:DAYLIGHT", "DTSTART:20070311T020000",
    "RRULE:FREQ=YEARLY;BYDAY=2SU;BYMONTH=3", "END:DAYLIGHT", "END:VTIMEZONE"]

theorem passed_fixed : ∀ piece ∈ fixedLines,
    StartsLine piece.toList ∧ ∀ line ∈ linesOfText piece, Passed line := by
  have hfixed : ∀ p ∈ fixedLines, Label p ∧ Passed p.toList := by decide
  intro p hp
  have hnil : trimEnd "".toList = [] := rfl
  have hpassed := (hfixed p hp).1.passed (s := "") (by simp)
  rw [hnil, List.append_nil, String.append_empty] at hpassed
  exact hpassed (hfixed p hp).2

/-- Nothing that stands before the event counts. -/
theorem EventArgs.passed_before (htz : ∀ tz ∈ a.timezone, '\n' ∉ tz.toList) :
    ∀ piece ∈ a.before, StartsLine piece.toList ∧ ∀ line ∈ linesOfText piece, Passed line := by
  have hlabel : ∀ p ∈ ["TZID:", "TZOFFSETFROM:", "TZOFFSETTO:"], Label p ∧
      ∀ more, Passed (p.toList ++ more) := by
    simp only [List.forall_mem_cons, List.not_mem_nil, false_implies, implies_true, and_true]
    refine ⟨⟨by decide, ?_⟩, ⟨by decide, ?_⟩, by decide, ?_⟩ <;>
      simp [Passed, marks, Text.startsWith, Text.stripPrefix?]
  have hpiece : ∀ p ∈ ["TZID:", "TZOFFSETFROM:", "TZOFFSETTO:"], ∀ s : String, '\n' ∉ s.toList →
      StartsLine (p ++ s).toList ∧ ∀ line ∈ linesOfText (p ++ s), Passed line :=
    fun p hp s hs => (hlabel p hp).1.passed hs ((hlabel p hp).2 _)
  unfold EventArgs.before
  cases htimezone : a.timezone with
  | none =>
    intro piece hpiece
    exact passed_fixed piece (List.mem_append_left _ hpiece)
  | some tz =>
    obtain ⟨⟨std, hstd, hstdlf⟩, dst, hdst, hdstlf⟩ := offset_label tz
    have htzid := hpiece "TZID:" (by simp) tz (htz tz htimezone)
    have hfrom := hpiece "TZOFFSETFROM:" (by simp) std hstdlf
    have hto := hpiece "TZOFFSETTO:" (by simp) dst hdstlf
    have hall : ∀ piece ∈ ["BEGIN:VCALENDAR", "VERSION:2.0", "PRODID:-//CalDAV Server//EN"] ++
        vtimezoneLines tz, piece ∈ fixedLines ∨ piece = "TZID:" ++ tz ∨
          piece = "TZOFFSETFROM:" ++ std ∨ piece = "TZOFFSETTO:" ++ dst := by
      rw [vtimezoneLines, hstd, hdst]
      simp [fixedLines]
    intro piece hp
    rcases hall piece hp with hfixed | rfl | rfl | rfl
    · exact passed_fixed piece hfixed
    · exact htzid
    · exact hfrom
    · exact hto

theorem Label.colon {p : String} (h : Label p) {m : String} (hm : '\n' ∉ m.toList) :
    Label (p ++ m ++ ":") := by
  obtain ⟨c, hc, hwhite⟩ := Option.map_eq_some_iff.mp h.head
  have htext : (p ++ m ++ ":").toList = p.toList ++ (m.toList ++ [':']) := by
    rw [String.toList_append, String.toList_append, List.append_assoc]
    rfl
  refine ⟨?_, ?_, ?_⟩
  · simp [htext, h.noLineFeed, hm]
  · rw [htext, List.head?_append, hc]
    exact congrArg some hwhite
  · rw [htext, ← List.append_assoc, List.getLast?_append]
    rfl

theorem EventArgs.label_timeLabel (htz : ∀ tz ∈ a.timezone, '\n' ∉ tz.toList) {name : String}
    (hname : Label name) : Label (a.timeLabel name) := by
  unfold timeLabel
  cases htimezone : a.timezone with
  | none =>
    have hcolon := hname.colon (m := "") (by simp)
    rwa [String.append_empty] at hcolon
  | some tz =>
    have hmiddle : '\n' ∉ (";TZID=" ++ tz).toList := by simp [htz tz htimezone]
    have hcolon := hname.colon hmiddle
    rwa [← String.append_assoc] at hcolon

/-- The pieces of an event start lines, and the properties are one line each. -/
theorem EventArgs.linesOfText_properties (h : a.NoLineFeed uid) (hnow : '\n' ∉ now.toList) :
    (∀ piece ∈ a.properties now uid, StartsLine piece.toList) ∧
      (a.properties now uid).flatMap linesOfText = a.propertyLines now uid := by
  have huid : Label "UID:" := by decide
  have hstamp : Label "DTSTAMP:" := by decide
  have hsummary : Label "SUMMARY:" := by decide
  have hstart : Label (a.timeLabel "DTSTART") := label_timeLabel h.timezone (by decide)
  have hend : Label (a.timeLabel "DTEND") := label_timeLabel h.timezone (by decide)
  unfold properties propertyLines
  constructor
  · simp only [List.forall_mem_cons, List.not_mem_nil, false_implies, implies_true, and_true]
    exact ⟨huid.startsLine _, hstamp.startsLine _, hstart.startsLine _, hend.startsLine _,
      hsummary.startsLine _⟩
  · simp only [List.flatMap_cons, List.flatMap_nil, huid.linesOfText h.uid,
      hstamp.linesOfText hnow, hstart.linesOfText h.start, hend.linesOfText h.stop,
      hsummary.linesOfText h.title]
    rfl

theorem EventArgs.startsLine_notes : ∀ piece ∈ a.notes, StartsLine piece.toList := by
  have hdescription : Label "DESCRIPTION:" := by decide
  have hlocation : Label "LOCATION:" := by decide
  unfold notes
  intro piece hpiece
  simp only [List.mem_append, Option.mem_toList, Option.map_eq_some_iff] at hpiece
  obtain ⟨description, -, rfl⟩ | ⟨location, -, rfl⟩ := hpiece
  · exact hdescription.startsLine _
  · exact hlocation.startsLine _

/-- The lines of the text. -/
theorem EventArgs.linesOfText_icalData (h : a.NoLineFeed uid) (hnow : '\n' ∉ now.toList) :
    linesOfText (a.icalData now uid) = a.before.flatMap linesOfText ++
      beginLine "VEVENT".toList :: (a.propertyLines now uid ++
        (a.noteLines ++ [endLine "VEVENT".toList, endLine "VCALENDAR".toList])) := by
  obtain ⟨hstarts, hproperties⟩ := linesOfText_properties h hnow
  have hbefore := passed_before h.timezone
  have htext : a.icalData now uid = "\r\n".intercalate (a.before ++ "BEGIN:VEVENT" ::
      (a.properties now uid ++ (a.notes ++ ["END:VEVENT", "END:VCALENDAR"]))) ++ "\r\n" := by
    rw [← a.veventLines_eq now uid]
    rfl
  have hall : ∀ piece ∈ a.before ++ "BEGIN:VEVENT" ::
      (a.properties now uid ++ (a.notes ++ ["END:VEVENT", "END:VCALENDAR"])),
      StartsLine piece.toList := by
    have hfixed : ∀ piece ∈ ["BEGIN:VEVENT", "END:VEVENT", "END:VCALENDAR"],
        StartsLine piece.toList := by
      unfold StartsLine
      decide
    simp only [List.forall_mem_cons, List.not_mem_nil, false_implies, implies_true, and_true]
      at hfixed
    simp only [List.forall_mem_append, List.forall_mem_cons, List.not_mem_nil, false_implies,
      implies_true, and_true]
    exact ⟨fun piece hp => (hbefore piece hp).1, hfixed.1, hstarts, startsLine_notes, hfixed.2⟩
  have hbegin : linesOfText "BEGIN:VEVENT" = [beginLine "VEVENT".toList] := by decide
  have hends : ["END:VEVENT", "END:VCALENDAR"].flatMap linesOfText =
      [endLine "VEVENT".toList, endLine "VCALENDAR".toList] := by decide
  rw [htext, linesOfText_joined (by simp) hall, List.flatMap_append, List.flatMap_cons,
    List.flatMap_append, List.flatMap_append, hbegin, hends, hproperties]
  rfl

/-! ## What the loop looks at -/

/-- The two lines at the end of the text add nothing. -/
theorem takenFrom_ends (lines : List Line) : ∀ inComponent,
    takenFrom inComponent (lines ++ [endLine "VEVENT".toList, endLine "VCALENDAR".toList]) =
      takenFrom inComponent lines := by
  induction lines with
  | nil => decide
  | cons line lines ih =>
    intro inComponent
    rw [List.cons_append, takenFrom, takenFrom, ih]

theorem EventArgs.timeLabel_begin (a : EventArgs) (name : String) :
    ∃ more, (a.timeLabel name).toList = name.toList ++ more := by
  unfold timeLabel
  cases a.timezone with
  | none => exact ⟨[':'], String.toList_append⟩
  | some tz =>
    refine ⟨(";TZID=" ++ tz ++ ":").toList, ?_⟩
    rw [Option.elim_some, ← String.toList_append, ← String.append_assoc, ← String.append_assoc]

theorem EventArgs.unmarked_properties : Unmarked (a.propertyLines now uid) := by
  obtain ⟨start, hstart⟩ := a.timeLabel_begin "DTSTART"
  obtain ⟨stop, hstop⟩ := a.timeLabel_begin "DTEND"
  unfold Unmarked propertyLines
  rw [hstart, hstop]
  simp [marks, Text.startsWith, Text.stripPrefix?]

/-- The loop looks at the event alone, up to where the notes end it. -/
theorem EventArgs.taken_icalData (h : a.NoLineFeed uid) (hnow : '\n' ∉ now.toList) :
    taken (a.icalData now uid) =
      beginLine "VEVENT".toList :: (a.propertyLines now uid ++ a.countedNotes) := by
  have hpassed : ∀ line ∈ a.before.flatMap linesOfText, Passed line := by
    intro line hline
    obtain ⟨piece, hpiece, hline⟩ := List.mem_flatMap.mp hline
    exact (passed_before h.timezone piece hpiece).2 line hline
  have hnone : (a.before.flatMap linesOfText).filter (Text.startsWith "UID".toList ·) = [] := by
    rw [List.filter_eq_nil_iff]
    intro line hline
    rw [(hpassed line hline).2]
    decide
  have hbegin : ∀ rest, takenFrom false (beginLine "VEVENT".toList :: rest) =
      beginLine "VEVENT".toList :: takenFrom true rest := fun rest => rfl
  unfold taken
  rw [linesOfText_icalData h hnow, takenFrom_outside fun line hline => (hpassed line hline).1,
    hnone, List.nil_append, hbegin, takenFrom_inside unmarked_properties, takenFrom_ends]
  rfl

/-! ## What is read -/

theorem extractProperty_behind {front : List Char} (h : ':' ∉ front) (name : String)
    (rest : List Char) :
    extractProperty (name.toList ++ ';' :: (front ++ ':' :: rest)) name =
      some (String.ofList rest) := by
  have hfront : ':' ∉ ';' :: front := by simp [h]
  have hsplit := Text.splitOnce_append hfront rest
  rw [List.cons_append] at hsplit
  unfold extractProperty
  rw [Text.stripPrefix?_append]
  change (Text.splitOnce ':' (';' :: (front ++ ':' :: rest))).map (fun p => String.ofList p.2) = _
  rw [hsplit]
  rfl

/-- A time is read behind its label, if no colon of the timezone comes before. -/
theorem EventArgs.extractProperty_time (name : String) (s : List Char)
    (hcolon : ∀ tz ∈ a.timezone, ':' ∉ tz.toList) :
    extractProperty ((a.timeLabel name).toList ++ s) name = some (String.ofList s) := by
  unfold timeLabel
  cases htimezone : a.timezone with
  | none =>
    unfold extractProperty
    rw [Option.elim_none, String.toList_append, List.append_assoc, Text.stripPrefix?_append]
    rfl
  | some tz =>
    have htext : (name ++ ";TZID=" ++ tz ++ ":").toList ++ s =
        name.toList ++ ';' :: (("TZID=".toList ++ tz.toList) ++ ':' :: s) := by
      simp
    rw [Option.elim_some, htext]
    apply extractProperty_behind
    simp [hcolon tz htimezone]

/-- Else a part of the timezone is read with it. -/
theorem EventArgs.extractProperty_time_colon (name : String) (s : List Char) {tz : String}
    (htz : tz ∈ a.timezone) (hcolon : ':' ∈ tz.toList) :
    ∃ v, extractProperty ((a.timeLabel name).toList ++ s) name = some (String.ofList v) ∧
      s.length < v.length := by
  obtain ⟨u, rest, htext, hu⟩ := List.eq_append_cons_of_mem hcolon
  have hline : (a.timeLabel name).toList ++ s =
      name.toList ++ ';' :: (("TZID=".toList ++ u) ++ ':' :: (rest ++ ':' :: s)) := by
    unfold timeLabel
    rw [Option.mem_def.mp htz]
    simp [htext]
  refine ⟨rest ++ ':' :: s, ?_, by simp; omega⟩
  rw [hline]
  apply extractProperty_behind
  simp [hu]

theorem EventArgs.lastValue_properties :
    lastValue "UID" (a.propertyLines now uid) = some (String.ofList (trimEnd uid.toList)) ∧
    lastValue "DTSTART" (a.propertyLines now uid) =
      extractProperty ((a.timeLabel "DTSTART").toList ++ trimEnd a.start.toList) "DTSTART" ∧
    lastValue "DTEND" (a.propertyLines now uid) =
      extractProperty ((a.timeLabel "DTEND").toList ++ trimEnd a.stop.toList) "DTEND" ∧
    lastValue "SUMMARY" (a.propertyLines now uid) =
      some (String.ofList (trimEnd a.title.toList)) := by
  obtain ⟨start, hstart⟩ := a.timeLabel_begin "DTSTART"
  obtain ⟨stop, hstop⟩ := a.timeLabel_begin "DTEND"
  unfold propertyLines
  simp only [lastValue_cons]
  rw [hstart, hstop]
  refine ⟨?_, ?_, ?_, ?_⟩ <;> simp [lastValue, valuesOf, extractProperty, Text.stripPrefix?]

end

/-! ## What can be read -/

/-- A text on one line, without white space at its end. -/
structure OneLine (s : String) : Prop where
  noLineFeed : '\n' ∉ s.toList
  noBlankEnd : ∀ c ∈ s.toList.getLast?, isWhitespace c = false

instance (s : String) : Decidable (OneLine s) :=
  decidable_of_iff ('\n' ∉ s.toList ∧ s.toList.getLast?.map isWhitespace ≠ some true) <| by
    constructor
    · rintro ⟨hlf, hblank⟩
      refine ⟨hlf, fun c hc => ?_⟩
      rw [Option.mem_def.mp hc, Option.map_some] at hblank
      exact Bool.eq_false_iff.mpr fun h => hblank (congrArg some h)
    · rintro ⟨hlf, hblank⟩
      refine ⟨hlf, fun h => ?_⟩
      obtain ⟨c, hc, hwhite⟩ := Option.map_eq_some_iff.mp h
      rw [hblank c hc] at hwhite
      cases hwhite

/-- No unfolded line has a line feed. -/
theorem not_mem_unfoldLinesFrom {lines : List (List Char)} (hlines : ∀ l ∈ lines, '\n' ∉ l) :
    ∀ current, '\n' ∉ current → ∀ l ∈ unfoldLinesFrom current lines, '\n' ∉ l := by
  have hflush : ∀ current, '\n' ∉ current → ∀ l ∈ flush current, '\n' ∉ l := by
    intro current hcurrent l hl
    unfold flush at hl
    split at hl
    · cases hl
    · rw [List.mem_singleton.mp hl]
      exact hcurrent
  induction lines with
  | nil => exact hflush
  | cons line lines ih =>
    rw [List.forall_mem_cons] at hlines
    intro current hcurrent l hl
    have htrim : '\n' ∉ trimEndMatches ['\r'] line :=
      fun h => hlines.1 (mem_of_mem_trimEndMatches h)
    obtain ⟨c, more, hmore, hstep⟩ | hstep := unfoldLinesFrom_cases current line
    · rw [hstep] at hl
      refine ih hlines.2 (current ++ more) ?_ l hl
      rw [List.mem_append, not_or]
      refine ⟨hcurrent, fun h => htrim ?_⟩
      rw [hmore]
      exact List.mem_cons_of_mem c h
    · rw [hstep] at hl
      rcases List.mem_append.mp hl with hl | hl
      · exact hflush current hcurrent l hl
      · exact ih hlines.2 _ htrim l hl

/-- The value of a property is the end of its line. -/
theorem extractProperty_suffix {line : Line} {name v : String}
    (h : extractProperty line name = some v) : ∃ front, line = front ++ v.toList := by
  unfold extractProperty at h
  split at h
  · rename_i stripped hs
    refine ⟨name.toList ++ [':'], ?_⟩
    rw [← Option.some.inj h, String.toList_ofList, Text.stripPrefix?_eq_some.mp hs]
    simp
  · rename_i rest hs
    obtain ⟨⟨front, w⟩, hsplit, rfl⟩ := Option.map_eq_some_iff.mp h
    refine ⟨name.toList ++ front ++ [':'], ?_⟩
    rw [String.toList_ofList, Text.stripPrefix?_eq_some.mp hs, Text.eq_of_splitOnce hsplit]
    simp
  · cases h

/-- What is read is on one line. -/
theorem oneLine_of_read {line : Line} {data name v : String} (hline : line ∈ linesOfText data)
    (h : extractProperty line name = some v) : OneLine v := by
  obtain ⟨front, rfl⟩ := extractProperty_suffix h
  obtain ⟨raw, hraw, htrim⟩ := List.mem_map.mp hline
  constructor
  · intro hmem
    have hlf := not_mem_unfoldLinesFrom (not_mem_linesFrom data.toList [] List.not_mem_nil) []
      List.not_mem_nil raw hraw
    apply hlf
    apply mem_of_mem_trim
    rw [htrim]
    exact List.mem_append_right _ hmem
  · intro c hc
    apply trim_last (s := raw)
    rw [htrim, List.getLast?_append, Option.mem_def.mp hc]
    rfl

/-- A text that is on one line behind its label stays as it is. -/
theorem OneLine.trimEnd {s : String} (h : OneLine s) :
    String.ofList (Text.trimEnd s.toList) = s := by
  rw [trimEnd_eq_self h.noBlankEnd, String.ofList_toList]

/-! ## The condition -/

/-- The columns of an object are those that `extract_fields` finds in its data, and its uid is
    the one found, if one is found. -/
structure Indexed (uid icalData : String) (fields : ObjectFields) : Prop where
  componentType : fields.componentType = (extractFields icalData).componentType
  dtstart : fields.dtstart = (extractFields icalData).dtstart
  dtend : fields.dtend = (extractFields icalData).dtend
  summary : fields.summary = (extractFields icalData).summary
  uid : ∀ found ∈ (extractFields icalData).uid, uid = found

/-- The kind of the last component that lines open, or else a VEVENT. -/
def kindOf (lines : List Line) : String :=
  lines.foldl (fun kind line => (openComponent line true kind).2) "VEVENT"

/-- The arguments are read back from the text of the event. -/
structure EventArgs.ReadBack (a : EventArgs) (uid : Option String) : Prop where
  title : OneLine a.title
  start : OneLine a.start
  stop : OneLine a.stop
  uids : ∀ v ∈ lastValue "UID" a.countedNotes, uid = some v
  starts : lastValue "DTSTART" a.countedNotes = some a.start ∨
    lastValue "DTSTART" a.countedNotes = none ∧ ∀ tz ∈ a.timezone, ':' ∉ tz.toList
  stops : lastValue "DTEND" a.countedNotes = some a.stop ∨
    lastValue "DTEND" a.countedNotes = none ∧ ∀ tz ∈ a.timezone, ':' ∉ tz.toList
  titles : ∀ v ∈ lastValue "SUMMARY" a.countedNotes, v = a.title
  kind : kindOf a.noteLines = "VEVENT"

section

variable {a : EventArgs} {now uid : String}

theorem openComponent_snd (line : Line) (inComponent : Bool) (kind : String) :
    (openComponent line inComponent kind).2 = (openComponent line true kind).2 := by
  unfold openComponent
  split_ifs <;> rfl

theorem extractFieldsFrom_componentType (raw : List (List Char)) : ∀ fields inComponent,
    (extractFieldsFrom fields inComponent raw).componentType =
      (raw.map Text.trim).foldl (fun kind line => (openComponent line true kind).2)
        fields.componentType := by
  induction raw with
  | nil => exact fun fields inComponent => rfl
  | cons rawLine raw ih =>
    intro fields inComponent
    rw [extractFieldsFrom, List.map_cons, List.foldl_cons]
    split
    · rw [ih, openComponent_snd]
    · rw [ih, setField_eq, openComponent_snd]

theorem extractFields_componentType (data : String) :
    (extractFields data).componentType = kindOf (linesOfText data) :=
  extractFieldsFrom_componentType _ _ _

theorem foldl_unmarked {lines : List Line} (h : Unmarked lines) (kind : String) :
    lines.foldl (fun kind line => (openComponent line true kind).2) kind = kind := by
  induction lines with
  | nil => rfl
  | cons line lines ih =>
    obtain ⟨hline, hlines⟩ := List.forall_mem_cons.mp h
    have hsame : (openComponent line true kind).2 = kind := by
      unfold marks at hline
      simp only [Bool.or_eq_false_iff] at hline
      obtain ⟨⟨⟨h1, h2⟩, h3⟩, h4⟩ := hline
      unfold openComponent
      rw [h1, h2, h3, h4]
      rfl
    rw [List.foldl_cons, hsame, ih hlines]

/-- The kind is a VEVENT, unless the notes say something else. -/
theorem EventArgs.componentType_icalData (h : a.NoLineFeed uid) (hnow : '\n' ∉ now.toList) :
    (extractFields (a.icalData now uid)).componentType = kindOf a.noteLines := by
  have hbefore : Unmarked (a.before.flatMap linesOfText) := by
    intro line hline
    obtain ⟨piece, hpiece, hline⟩ := List.mem_flatMap.mp hline
    exact ((passed_before h.timezone piece hpiece).2 line hline).1
  have hbegin : ∀ kind, (openComponent (beginLine "VEVENT".toList) true kind).2 = "VEVENT" :=
    fun kind => rfl
  have hends : ∀ kind, [endLine "VEVENT".toList, endLine "VCALENDAR".toList].foldl
      (fun kind line => (openComponent line true kind).2) kind = kind := fun kind => rfl
  rw [extractFields_componentType, linesOfText_icalData h hnow]
  unfold kindOf
  rw [List.foldl_append, foldl_unmarked hbefore, List.foldl_cons, hbegin, List.foldl_append,
    foldl_unmarked unmarked_properties, List.foldl_append, hends]

/-- The last value of a property comes from the notes, or else from the property's own line. -/
theorem EventArgs.lastValue_icalData (h : a.NoLineFeed uid) (hnow : '\n' ∉ now.toList)
    {name : String} (hname : name = "UID" ∨ name = "DTSTART" ∨ name = "DTEND" ∨ name = "SUMMARY") :
    lastValue name (taken (a.icalData now uid)) =
      (lastValue name a.countedNotes).or (lastValue name (a.propertyLines now uid)) := by
  have hbegin : extractProperty (beginLine "VEVENT".toList) name = none := by
    rcases hname with rfl | rfl | rfl | rfl <;> rfl
  rw [taken_icalData h hnow, lastValue_cons, hbegin, Option.or_none, lastValue_append]

theorem mem_of_mem_takenFrom {line : Line} {lines : List Line} : ∀ {inComponent},
    line ∈ takenFrom inComponent lines → line ∈ lines := by
  induction lines with
  | nil => exact fun h => h
  | cons first lines ih =>
    intro inComponent h
    rw [takenFrom] at h
    split at h
    · exact List.mem_cons_of_mem _ (ih h)
    · rcases List.mem_cons.mp h with rfl | h
      · exact List.mem_cons_self
      · exact List.mem_cons_of_mem _ (ih h)

theorem oneLine_of_value {data name v : String} (h : v ∈ valuesOf name (taken data)) :
    OneLine v := by
  obtain ⟨line, hline, hv⟩ := List.mem_filterMap.mp h
  exact oneLine_of_read (mem_of_mem_takenFrom hline) hv

theorem oneLine_of_lastValue {data name v : String} (h : lastValue name (taken data) = some v) :
    OneLine v := oneLine_of_value (List.mem_of_getLast? h)

theorem oneLine_of_endValue {data v : String} (h : endValue (taken data) = some v) :
    OneLine v := by
  unfold endValue at h
  rcases Option.or_eq_some_iff.mp h with h | ⟨-, h⟩
  · exact oneLine_of_lastValue h
  · exact oneLine_of_value (List.mem_of_head? h)

/-- A time is read, from the notes or from its own line. -/
theorem EventArgs.time_iff {name s : String} (hs : OneLine s) :
    (∃ v, (lastValue name a.countedNotes).or
        (extractProperty ((a.timeLabel name).toList ++ Text.trimEnd s.toList) name) = some v) ∧
      ((lastValue name a.countedNotes).or
        (extractProperty ((a.timeLabel name).toList ++ Text.trimEnd s.toList) name) = some s ↔
        lastValue name a.countedNotes = some s ∨
          lastValue name a.countedNotes = none ∧ ∀ tz ∈ a.timezone, ':' ∉ tz.toList) := by
  rw [trimEnd_eq_self hs.noBlankEnd]
  cases hnotes : lastValue name a.countedNotes with
  | some v => simp
  | none =>
    rw [Option.none_or]
    by_cases hcolon : ∀ tz ∈ a.timezone, ':' ∉ tz.toList
    · rw [a.extractProperty_time name s.toList hcolon, String.ofList_toList]
      exact ⟨⟨s, rfl⟩, iff_of_true rfl (Or.inr ⟨rfl, hcolon⟩)⟩
    · obtain ⟨tz, htz, hmem⟩ : ∃ tz ∈ a.timezone, ':' ∈ tz.toList := by
        by_contra hnone
        exact hcolon fun tz htz hmem => hnone ⟨tz, htz, hmem⟩
      obtain ⟨v, hv, hlength⟩ := a.extractProperty_time_colon name s.toList htz hmem
      rw [hv]
      refine ⟨⟨_, rfl⟩, iff_of_false (fun h => ?_) ?_⟩
      · rw [← Option.some.inj h, String.toList_ofList] at hlength
        exact lt_irrefl _ hlength
      · rintro (h | ⟨-, h⟩)
        · cases h
        · exact h tz htz hmem

/-- The fields that are found, for a title and times on one line. -/
theorem EventArgs.fields_icalData (hnow : '\n' ∉ now.toList) (huid : '\n' ∉ uid.toList)
    (htz : ∀ tz ∈ a.timezone, '\n' ∉ tz.toList) (htitle : OneLine a.title)
    (hstart : OneLine a.start) (hstop : OneLine a.stop) :
    extractFields (a.icalData now uid) =
      { uid := (lastValue "UID" a.countedNotes).or (some (String.ofList (Text.trimEnd uid.toList)))
        dtstart := (lastValue "DTSTART" a.countedNotes).or
          (extractProperty ((a.timeLabel "DTSTART").toList ++ Text.trimEnd a.start.toList)
            "DTSTART")
        dtend := (lastValue "DTEND" a.countedNotes).or
          (extractProperty ((a.timeLabel "DTEND").toList ++ Text.trimEnd a.stop.toList) "DTEND")
        summary := (lastValue "SUMMARY" a.countedNotes).or (some a.title)
        componentType := kindOf a.noteLines } := by
  have h : a.NoLineFeed uid :=
    ⟨huid, htitle.noLineFeed, hstart.noLineFeed, hstop.noLineFeed, htz⟩
  obtain ⟨h1, h2, h3, h4⟩ := @EventArgs.lastValue_properties a now uid
  have huids := extractFields_uid (a.icalData now uid)
  have hstarts := extractFields_dtstart (a.icalData now uid)
  have hstops := extractFields_dtend (a.icalData now uid)
  have hsummary := extractFields_summary (a.icalData now uid)
  obtain ⟨v, hv⟩ := (@EventArgs.time_iff a "DTEND" a.stop hstop).1
  unfold endValue at hstops
  rw [lastValue_icalData h hnow (by simp)] at huids hstarts hstops hsummary
  rw [h1] at huids
  rw [h2] at hstarts
  -- there is a DTEND line, so no DUE line counts
  rw [h3, hv, Option.some_or, ← hv] at hstops
  rw [h4, htitle.trimEnd] at hsummary
  rw [← huids, ← hstarts, ← hstops, ← hsummary, ← componentType_icalData h hnow]

/-- **The arguments are read back.** What is stored for an event agrees with its text exactly
    when `ReadBack` says so, if uid and timezone have no line feed. -/
theorem EventArgs.indexed_iff (hnow : '\n' ∉ now.toList) (huid : '\n' ∉ uid.toList)
    (htz : ∀ tz ∈ a.timezone, '\n' ∉ tz.toList) :
    Indexed uid (a.icalData now uid) a.fields ↔ OneLine uid ∧ a.ReadBack (some uid) := by
  constructor
  · rintro ⟨hkind, hdtstart, hdtend, hsummary, huids⟩
    rw [extractFields_dtstart] at hdtstart
    rw [extractFields_dtend] at hdtend
    rw [extractFields_summary] at hsummary
    have htitle : OneLine a.title := oneLine_of_lastValue hsummary.symm
    have hstart : OneLine a.start := oneLine_of_lastValue hdtstart.symm
    have hstop : OneLine a.stop := oneLine_of_endValue hdtend.symm
    have hfields := fields_icalData hnow huid htz htitle hstart hstop
    rw [← extractFields_dtstart, hfields] at hdtstart
    rw [← extractFields_dtend, hfields] at hdtend
    rw [← extractFields_summary, hfields] at hsummary
    rw [hfields] at hkind
    have hfound : OneLine uid := by
      obtain ⟨v, hv⟩ : ∃ v, (extractFields (a.icalData now uid)).uid = some v := by
        rw [hfields]
        cases lastValue "UID" a.countedNotes <;> exact ⟨_, rfl⟩
      rw [huids v hv]
      rw [extractFields_uid] at hv
      exact oneLine_of_lastValue hv
    refine ⟨hfound, htitle, hstart, hstop, ?_, time_iff hstart |>.2.mp hdtstart.symm,
      time_iff hstop |>.2.mp hdtend.symm, ?_, hkind.symm⟩
    · intro v hv
      rw [huids v]
      rw [hfields, Option.mem_def.mp hv]
      rfl
    · intro v hv
      rw [Option.mem_def.mp hv] at hsummary
      exact (Option.some.inj hsummary).symm
  · rintro ⟨hfound, hread⟩
    have hfields := fields_icalData hnow huid htz hread.title hread.start hread.stop
    refine ⟨?_, ?_, ?_, ?_, ?_⟩
    · rw [hfields]
      exact hread.kind.symm
    · rw [hfields]
      exact ((time_iff hread.start).2.mpr hread.starts).symm
    · rw [hfields]
      exact ((time_iff hread.stop).2.mpr hread.stops).symm
    · rw [hfields]
      cases hnotes : lastValue "SUMMARY" a.countedNotes with
      | none => rfl
      | some v => exact congrArg some (hread.titles v hnotes).symm
    · intro found hv
      rw [hfields, hfound.trimEnd] at hv
      cases hnotes : lastValue "UID" a.countedNotes with
      | none =>
        rw [hnotes] at hv
        exact Option.some.inj hv
      | some v =>
        rw [hnotes] at hv
        exact (Option.some.inj (hread.uids v hnotes)).trans (Option.some.inj hv)

end

end CaldavMcp
