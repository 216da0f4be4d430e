/-
  What `extract_fields` makes of an iCalendar text, line by line and component by component.

  The loop looks at the lines inside of a VEVENT or VTODO, and at lines that start with UID
  (`taken`). Of these the last UID, DTSTART and SUMMARY line count, and the last DTEND line or
  else the first DUE line (`extractFields_uid` and the following). Whether a line is one of the
  component's own or belongs to a component inside of it, such as a VALARM, makes no
  difference, and neither does the component it belongs to when there are several: so the
  result is that of the component exactly when the lines that count say the same as its own
  (`own_fields_iff`, `master_fields_iff`).
-/
import CaldavMcp.ContentLines

namespace CaldavMcp

/-- A line, unfolded and trimmed. -/
abbrev Line := List Char

/-! ## The lines that count -/

/-- The lines that the loop looks at. -/
def takenFrom (inComponent : Bool) : List Line → List Line
  | [] => []
  | line :: rest =>
    let opened := (openComponent line inComponent "").1
    if !opened && !Text.startsWith "UID".toList line then takenFrom opened rest
    else line :: takenFrom opened rest

/-- The values that lines give a property. -/
def valuesOf (name : String) (lines : List Line) : List String :=
  lines.filterMap fun line => extractProperty line name

/-- The last value of a property. -/
def lastValue (name : String) (lines : List Line) : Option String := (valuesOf name lines).getLast?

/-- The end of a component: its last DTEND, or else its first DUE. -/
def endValue (lines : List Line) : Option String :=
  (lastValue "DTEND" lines).or (valuesOf "DUE" lines).head?

/-- The trimmed lines of a text. -/
def linesOfText (data : String) : List Line := (unfoldLines data.toList).map Text.trim

section

variable {line : Line} {lines : List Line}

theorem openComponent_fst (line : Line) (inComponent : Bool) (a b : String) :
    (openComponent line inComponent a).1 = (openComponent line inComponent b).1 := by
  unfold openComponent
  split_ifs <;> rfl

theorem valuesOf_cons (name : String) (line : Line) (lines : List Line) :
    valuesOf name (line :: lines) = (extractProperty line name).toList ++ valuesOf name lines := by
  unfold valuesOf
  rw [List.filterMap_cons]
  cases extractProperty line name <;> rfl

theorem valuesOf_append (name : String) (a b : List Line) :
    valuesOf name (a ++ b) = valuesOf name a ++ valuesOf name b := List.filterMap_append

theorem lastValue_cons (name : String) (line : Line) (lines : List Line) :
    lastValue name (line :: lines) = (lastValue name lines).or (extractProperty line name) := by
  unfold lastValue
  rw [valuesOf_cons, List.getLast?_append]
  cases extractProperty line name <;> rfl

theorem head?_valuesOf_cons (name : String) (line : Line) (lines : List Line) :
    (valuesOf name (line :: lines)).head? =
      (extractProperty line name).or (valuesOf name lines).head? := by
  rw [valuesOf_cons, List.head?_append]
  cases extractProperty line name <;> rfl

/-- A line that sets a property starts with its name. -/
theorem extractProperty_eq {name value : String} (h : extractProperty line name = some value) :
    ∃ rest, line = name.toList ++ rest := by
  unfold extractProperty at h
  cases hs : Text.stripPrefix? name.toList line with
  | none =>
    rw [hs] at h
    cases h
  | some rest => exact ⟨rest, Text.stripPrefix?_eq_some.mp hs⟩

/-- A line sets at most one property: the names differ in their first three characters. -/
theorem extractProperty_disjoint {name name' : String} (h3 : 3 ≤ name.toList.length)
    (h3' : 3 ≤ name'.toList.length) (hne : name.toList.take 3 ≠ name'.toList.take 3)
    (h : (extractProperty line name).isSome) : extractProperty line name' = none := by
  obtain ⟨value, h⟩ := Option.isSome_iff_exists.mp h
  by_contra h'
  obtain ⟨value', h'⟩ := Option.ne_none_iff_exists'.mp h'
  obtain ⟨rest, hrest⟩ := extractProperty_eq h
  obtain ⟨rest', hrest'⟩ := extractProperty_eq h'
  refine hne ?_
  have htake := congrArg (List.take 3) hrest
  have htake' := congrArg (List.take 3) hrest'
  rw [List.take_append_of_le_length h3] at htake
  rw [List.take_append_of_le_length h3'] at htake'
  rw [← htake, ← htake']

/-- What a line does to each field. -/
theorem setField_eq (fields : IcalFields) (line : Line) : setField fields line =
    { fields with
      uid := (extractProperty line "UID").or fields.uid
      dtstart := (extractProperty line "DTSTART").or fields.dtstart
      dtend := (extractProperty line "DTEND").or (fields.dtend.or (extractProperty line "DUE"))
      summary := (extractProperty line "SUMMARY").or fields.summary } := by
  have disjoint : ∀ name name' : String, 3 ≤ name.toList.length → 3 ≤ name'.toList.length →
      name.toList.take 3 ≠ name'.toList.take 3 → ∀ value, extractProperty line name = some value →
      extractProperty line name' = none := fun name name' h3 h3' hne value h =>
    extractProperty_disjoint h3 h3' hne (by rw [h]; rfl)
  unfold setField
  cases huid : extractProperty line "UID" with
  | some value =>
    rw [disjoint "UID" "DTSTART" (by decide) (by decide) (by decide) value huid,
      disjoint "UID" "DTEND" (by decide) (by decide) (by decide) value huid,
      disjoint "UID" "DUE" (by decide) (by decide) (by decide) value huid,
      disjoint "UID" "SUMMARY" (by decide) (by decide) (by decide) value huid]
    cases fields.dtend <;> rfl
  | none =>
  cases hstart : extractProperty line "DTSTART" with
  | some value =>
    rw [disjoint "DTSTART" "DTEND" (by decide) (by decide) (by decide) value hstart,
      disjoint "DTSTART" "DUE" (by decide) (by decide) (by decide) value hstart,
      disjoint "DTSTART" "SUMMARY" (by decide) (by decide) (by decide) value hstart]
    cases fields.dtend <;> rfl
  | none =>
  cases hend : extractProperty line "DTEND" with
  | some value =>
    rw [disjoint "DTEND" "SUMMARY" (by decide) (by decide) (by decide) value hend]
    rfl
  | none =>
  cases hdue : extractProperty line "DUE" with
  | some value =>
    rw [disjoint "DUE" "SUMMARY" (by decide) (by decide) (by decide) value hdue]
    obtain ⟨uid, dtstart, dtend, summary, componentType⟩ := fields
    cases dtend <;> rfl
  | none =>
    obtain ⟨uid, dtstart, dtend, summary, componentType⟩ := fields
    cases extractProperty line "SUMMARY" <;> cases dtend <;> rfl

/-- The fields after the loop, from the lines it looks at. -/
theorem extractFieldsFrom_eq (fields : IcalFields) (inComponent : Bool)
    (raw : List (List Char)) :
    let taken := takenFrom inComponent (raw.map Text.trim)
    let result := extractFieldsFrom fields inComponent raw
    result.uid = (lastValue "UID" taken).or fields.uid ∧
    result.dtstart = (lastValue "DTSTART" taken).or fields.dtstart ∧
    result.dtend = (lastValue "DTEND" taken).or
      (fields.dtend.or (valuesOf "DUE" taken).head?) ∧
    result.summary = (lastValue "SUMMARY" taken).or fields.summary := by
  induction raw generalizing fields inComponent with
  | nil =>
    refine ⟨rfl, rfl, ?_, rfl⟩
    exact (Option.or_none).symm
  | cons rawLine raw ih =>
    rw [List.map_cons, takenFrom, extractFieldsFrom]
    dsimp only
    rw [openComponent_fst _ _ fields.componentType ""]
    split
    · exact ih _ _
    · obtain ⟨huid, hstart, hend, hsummary⟩ := ih
        (setField { fields with
          componentType := (openComponent (Text.trim rawLine) inComponent
            fields.componentType).2 } (Text.trim rawLine))
        (openComponent (Text.trim rawLine) inComponent "").1
      rw [huid, hstart, hend, hsummary, setField_eq]
      simp only [lastValue_cons, head?_valuesOf_cons, Option.or_assoc, and_self]

end

section

variable (data : String)

/-- The lines of a text that the loop looks at. -/
def taken (data : String) : List Line := takenFrom false (linesOfText data)

theorem extractFields_uid : (extractFields data).uid = lastValue "UID" (taken data) :=
  (extractFieldsFrom_eq _ _ _).1.trans Option.or_none

theorem extractFields_dtstart :
    (extractFields data).dtstart = lastValue "DTSTART" (taken data) :=
  (extractFieldsFrom_eq _ _ _).2.1.trans Option.or_none

theorem extractFields_dtend : (extractFields data).dtend = endValue (taken data) := by
  refine (extractFieldsFrom_eq _ _ _).2.2.1.trans ?_
  rw [Option.none_or]
  rfl

theorem extractFields_summary :
    (extractFields data).summary = lastValue "SUMMARY" (taken data) :=
  (extractFieldsFrom_eq _ _ _).2.2.2.trans Option.or_none

end

/-! ## Components -/

/-- A part of a component: a property line, or a component inside. -/
inductive Part where
  | property (line : Line)
  | component (name : List Char) (parts : List Part)

def beginLine (name : List Char) : Line := "BEGIN:".toList ++ name

def endLine (name : List Char) : Line := "END:".toList ++ name

mutual

def Part.lines : Part → List Line
  | .property line => [line]
  | .component name parts => beginLine name :: (linesOf parts ++ [endLine name])

def linesOf : List Part → List Line
  | [] => []
  | part :: parts => part.lines ++ linesOf parts

end

/-- The property lines of a component itself. -/
def ownLines (parts : List Part) : List Line :=
  parts.filterMap fun
    | .property line => some line
    | .component _ _ => none

/-- The components that hold events and tasks. -/
inductive Kind where
  | vevent
  | vtodo
  deriving DecidableEq, Repr

def Kind.name : Kind → List Char
  | .vevent => "VEVENT".toList
  | .vtodo => "VTODO".toList

/-- A calendar with one component: calendar properties and other components such as a
    VTIMEZONE stand before and after it. -/
structure SingleText where
  before : List Part
  kind : Kind
  parts : List Part
  after : List Part

/-- The lines of the text. -/
def SingleText.lines (c : SingleText) : List Line :=
  linesOf [.component "VCALENDAR".toList
    (c.before ++ .component c.kind.name c.parts :: c.after)]

/-! ### What the loop looks at -/

/-- A line that opens or closes a VEVENT or VTODO, as the loop sees it. -/
def marks (line : Line) : Bool :=
  Text.startsWith "BEGIN:VEVENT".toList line || Text.startsWith "BEGIN:VTODO".toList line ||
    Text.startsWith "END:VEVENT".toList line || Text.startsWith "END:VTODO".toList line

/-- No line opens or closes a VEVENT or VTODO. -/
def Unmarked (lines : List Line) : Prop := ∀ line ∈ lines, marks line = false

section

variable {lines : List Line}

theorem openComponent_unmarked {line : Line} (h : marks line = false) (inComponent : Bool) :
    (openComponent line inComponent "").1 = inComponent := by
  unfold marks at h
  simp only [Bool.or_eq_false_iff] at h
  obtain ⟨⟨⟨h1, h2⟩, h3⟩, h4⟩ := h
  unfold openComponent
  rw [h1, h2, h3, h4]
  rfl

/-- Inside of the component every line is looked at. -/
theorem takenFrom_inside (h : Unmarked lines) (rest : List Line) :
    takenFrom true (lines ++ rest) = lines ++ takenFrom true rest := by
  induction lines with
  | nil => rfl
  | cons line lines ih =>
    have hmark := List.forall_mem_cons.mp h
    rw [List.cons_append, takenFrom, openComponent_unmarked hmark.1, ih hmark.2]
    rfl

/-- Outside of it, the lines that start with UID are. -/
theorem takenFrom_outside (h : Unmarked lines) (rest : List Line) :
    takenFrom false (lines ++ rest) =
      lines.filter (Text.startsWith "UID".toList ·) ++ takenFrom false rest := by
  induction lines with
  | nil => rfl
  | cons line lines ih =>
    have hmark := List.forall_mem_cons.mp h
    rw [List.cons_append, takenFrom, openComponent_unmarked hmark.1, ih hmark.2, List.filter_cons]
    cases Text.startsWith "UID".toList line <;> rfl

theorem takenFrom_component (kind : Kind) (inComponent : Bool) (h : Unmarked lines)
    (rest : List Line) :
    takenFrom inComponent (beginLine kind.name :: (lines ++ endLine kind.name :: rest)) =
      beginLine kind.name :: lines ++ takenFrom false rest := by
  have hbegin : (openComponent (beginLine kind.name) inComponent "").1 = true := by
    cases kind <;> cases inComponent <;> decide
  have hend : (openComponent (endLine kind.name) true "").1 = false := by
    cases kind <;> decide
  have huid : Text.startsWith "UID".toList (endLine kind.name) = false := by
    cases kind <;> decide
  rw [takenFrom, hbegin]
  simp only [Bool.not_true, Bool.false_and, Bool.false_eq_true, if_false]
  rw [takenFrom_inside h, takenFrom, hend, huid]
  rfl

/-- Lines that start with UID set nothing else. -/
theorem valuesOf_filter {name : String} (h3 : 3 ≤ name.toList.length)
    (hne : name.toList.take 3 ≠ "UID".toList) (lines : List Line) :
    valuesOf name (lines.filter (Text.startsWith "UID".toList ·)) = [] := by
  unfold valuesOf
  rw [List.filterMap_eq_nil_iff]
  intro line hline
  have hstart := (List.mem_filter.mp hline).2
  by_contra hsome
  obtain ⟨value, hvalue⟩ := Option.ne_none_iff_exists'.mp hsome
  obtain ⟨rest, rfl⟩ := extractProperty_eq hvalue
  obtain ⟨rest', hrest'⟩ := Option.isSome_iff_exists.mp hstart
  have htake := congrArg (List.take 3) (Text.stripPrefix?_eq_some.mp hrest')
  rw [List.take_append_of_le_length h3, List.take_append_of_le_length (by decide)] at htake
  exact hne htake

theorem valuesOf_uid_filter (lines : List Line) :
    valuesOf "UID" (lines.filter (Text.startsWith "UID".toList ·)) = valuesOf "UID" lines := by
  unfold valuesOf
  rw [List.filterMap_filter]
  refine List.filterMap_congr fun line _ => ?_
  split
  · rfl
  · rename_i hstart
    by_contra hsome
    obtain ⟨value, hvalue⟩ := Option.ne_none_iff_exists'.mp (Ne.symm hsome)
    obtain ⟨rest, rfl⟩ := extractProperty_eq hvalue
    refine hstart ?_
    unfold Text.startsWith
    rw [Text.stripPrefix?_append]
    rfl

theorem valuesOf_beginLine {name : String} (hname : name = "UID" ∨ name = "DTSTART" ∨
    name = "DTEND" ∨ name = "DUE" ∨ name = "SUMMARY") (kind : Kind) (lines : List Line) :
    valuesOf name (beginLine kind.name :: lines) = valuesOf name lines := by
  have hnone : extractProperty (beginLine kind.name) name = none := by
    rcases hname with rfl | rfl | rfl | rfl | rfl <;> cases kind <;> decide
  rw [valuesOf_cons, hnone]
  rfl

theorem lastValue_append (name : String) (a b : List Line) :
    lastValue name (a ++ b) = (lastValue name b).or (lastValue name a) := by
  unfold lastValue
  rw [valuesOf_append, List.getLast?_append]

theorem linesOf_append (a b : List Part) : linesOf (a ++ b) = linesOf a ++ linesOf b := by
  induction a with
  | nil => rfl
  | cons part a ih => rw [List.cons_append, linesOf, linesOf, ih, List.append_assoc]

end

/-! ## One component -/

/-- A text with one VEVENT or VTODO, that has a UID line of its own. -/
structure SingleText.WellFormed (c : SingleText) : Prop where
  before : Unmarked (linesOf c.before)
  inside : Unmarked (linesOf c.parts)
  after : Unmarked (linesOf c.after)
  uid : lastValue "UID" (ownLines c.parts) ≠ none

/-- The parser finds the component's own properties. -/
structure OwnFields (c : SingleText) (fields : IcalFields) : Prop where
  uid : fields.uid = lastValue "UID" (ownLines c.parts)
  dtstart : fields.dtstart = lastValue "DTSTART" (ownLines c.parts)
  dtend : fields.dtend = endValue (ownLines c.parts)
  summary : fields.summary = lastValue "SUMMARY" (ownLines c.parts)

/-- The last UID line behind the component, or else inside of it, says what the component's own
    last one says; and the lines of the components inside do not outdo its own lines. -/
structure SingleText.Undisturbed (c : SingleText) : Prop where
  uid : (lastValue "UID" (linesOf c.after)).or (lastValue "UID" (linesOf c.parts)) =
    lastValue "UID" (ownLines c.parts)
  dtstart : lastValue "DTSTART" (linesOf c.parts) = lastValue "DTSTART" (ownLines c.parts)
  dtend : endValue (linesOf c.parts) = endValue (ownLines c.parts)
  summary : lastValue "SUMMARY" (linesOf c.parts) = lastValue "SUMMARY" (ownLines c.parts)

theorem SingleText.lines_eq (c : SingleText) : c.lines =
    (beginLine "VCALENDAR".toList :: linesOf c.before) ++ beginLine c.kind.name ::
      (linesOf c.parts ++ endLine c.kind.name ::
        (linesOf c.after ++ [endLine "VCALENDAR".toList])) := by
  unfold SingleText.lines
  simp [linesOf, Part.lines, linesOf_append]

/-- The lines that are looked at. -/
theorem SingleText.taken_eq {c : SingleText} (h : c.WellFormed) :
    takenFrom false c.lines =
      (linesOf c.before).filter (Text.startsWith "UID".toList ·) ++
        (beginLine c.kind.name :: linesOf c.parts ++
          (linesOf c.after).filter (Text.startsWith "UID".toList ·)) := by
  have hcalendar : marks (beginLine "VCALENDAR".toList) = false := by decide
  have hcalendar' : Unmarked [endLine "VCALENDAR".toList] := by
    unfold Unmarked
    rw [List.forall_mem_singleton]
    decide
  have hbegin : Unmarked (beginLine "VCALENDAR".toList :: linesOf c.before) :=
    List.forall_mem_cons.mpr ⟨hcalendar, h.before⟩
  have hend := takenFrom_outside hcalendar' []
  rw [List.append_nil] at hend
  rw [c.lines_eq, takenFrom_outside hbegin, takenFrom_component c.kind false h.inside,
    takenFrom_outside h.after, hend]
  have hfirst : Text.startsWith "UID".toList (beginLine "VCALENDAR".toList) = false := by decide
  have hlast : [endLine "VCALENDAR".toList].filter (Text.startsWith "UID".toList ·) = [] := by
    decide
  rw [List.filter_cons_of_neg (by rw [hfirst]; decide), hlast, takenFrom, List.append_nil,
    List.append_nil]

/-- Of DTSTART, SUMMARY, DTEND and DUE, the lines inside of the component count. -/
theorem SingleText.valuesOf_taken {c : SingleText} (h : c.WellFormed) {name : String}
    (hname : name = "DTSTART" ∨ name = "DTEND" ∨ name = "DUE" ∨ name = "SUMMARY") :
    valuesOf name (takenFrom false c.lines) = valuesOf name (linesOf c.parts) := by
  have h3 : 3 ≤ name.toList.length := by rcases hname with rfl | rfl | rfl | rfl <;> decide
  have hne : name.toList.take 3 ≠ "UID".toList := by
    rcases hname with rfl | rfl | rfl | rfl <;> decide
  rw [SingleText.taken_eq h, valuesOf_append, valuesOf_append, valuesOf_filter h3 hne,
    valuesOf_filter h3 hne, List.nil_append, List.append_nil,
    valuesOf_beginLine (Or.inr hname)]

theorem mem_linesOf {parts : List Part} {line : Line} (h : line ∈ ownLines parts) :
    line ∈ linesOf parts := by
  obtain ⟨part, hpart, hproperty⟩ := List.mem_filterMap.mp h
  obtain ⟨a, b, rfl⟩ := List.append_of_mem hpart
  cases part with
  | component name parts => cases hproperty
  | property line' =>
    rw [linesOf_append, linesOf, Option.some.inj hproperty]
    exact List.mem_append_right _ (List.mem_append_left _ (List.mem_singleton.mpr rfl))

/-- A component with a property line of its own has a last one. -/
theorem lastValue_linesOf {parts : List Part} {name : String}
    (h : lastValue name (ownLines parts) ≠ none) : lastValue name (linesOf parts) ≠ none := by
  obtain ⟨v, hv⟩ := Option.ne_none_iff_exists'.mp h
  obtain ⟨line, hline, hvalue⟩ := List.mem_filterMap.mp (List.mem_of_getLast? hv)
  unfold lastValue
  rw [ne_eq, List.getLast?_eq_none_iff]
  exact List.ne_nil_of_mem (List.mem_filterMap.mpr ⟨line, mem_linesOf hline, hvalue⟩)

/-- The last UID line behind the component or else inside of it is what counts. -/
theorem SingleText.lastValue_uid {c : SingleText} (h : c.WellFormed) :
    lastValue "UID" (takenFrom false c.lines) =
      (lastValue "UID" (linesOf c.after)).or (lastValue "UID" (linesOf c.parts)) := by
  have hbegin : lastValue "UID" (beginLine c.kind.name :: linesOf c.parts) =
      lastValue "UID" (linesOf c.parts) := by
    unfold lastValue
    rw [valuesOf_beginLine (Or.inl rfl)]
  have hfilter : ∀ lines : List Line,
      lastValue "UID" (lines.filter (Text.startsWith "UID".toList ·)) =
        lastValue "UID" lines := by
    intro lines
    unfold lastValue
    rw [valuesOf_uid_filter]
  obtain ⟨v, hv⟩ := Option.ne_none_iff_exists'.mp (lastValue_linesOf h.uid)
  rw [SingleText.taken_eq h, lastValue_append, lastValue_append, hfilter, hfilter, hbegin, hv]
  cases lastValue "UID" (linesOf c.after) <;> rfl

/-- A lunch with an alarm. -/
def alarmText (alarm : List Line) : SingleText where
  before := [.property "VERSION:2.0".toList,
    .component "VTIMEZONE".toList [.property "TZID:Europe/Paris".toList]]
  kind := .vevent
  parts := [.property "UID:lunch".toList, .property "DTSTART:20260301T120000Z".toList,
    .property "DTEND:20260301T130000Z".toList, .property "SUMMARY:Lunch".toList,
    .component "VALARM".toList (alarm.map .property)]
  after := []

instance (lines : List Line) : Decidable (Unmarked lines) :=
  inferInstanceAs (Decidable (∀ line ∈ lines, marks line = false))

/-- A line that can be written: not empty, without a line end, and not changed by trimming. -/
structure Proper (line : Line) : Prop where
  ne_nil : line ≠ []
  noLineEnd : '\n' ∉ line
  trimmed : Text.trim line = line

/-- The text with the given lines. -/
def textOf (lines : List Line) : String :=
  String.ofList (lines.flatMap fun line => line ++ ['\r', '\n'])

/-- Trimming removes white space at both ends. -/
theorem isWhitespace_of_trimmed {line : Line} (h : Text.trim line = line) :
    (∀ c ∈ line.head?, Text.isWhitespace c = false) ∧
      ∀ c ∈ line.getLast?, Text.isWhitespace c = false := by
  unfold Text.trim at h
  have hlast : ∀ c ∈ line.getLast?, Text.isWhitespace c = false := by
    intro c hc
    rw [← h, List.getLast?_reverse] at hc
    have := List.head?_dropWhile_not Text.isWhitespace
      (line.dropWhile Text.isWhitespace).reverse
    rw [Option.mem_def.mp hc] at this
    exact this
  refine ⟨fun c hc => ?_, hlast⟩
  have hlength := congrArg List.length h
  rw [List.length_reverse] at hlength
  have h1 := List.length_dropWhile_le Text.isWhitespace
    (line.dropWhile Text.isWhitespace).reverse
  have h2 := List.length_dropWhile_le Text.isWhitespace line
  rw [List.length_reverse] at h1
  cases line with
  | nil => cases hc
  | cons d line =>
    obtain rfl := Option.some.inj hc
    by_contra hwhite
    rw [Bool.not_eq_false] at hwhite
    rw [List.dropWhile_cons_of_pos hwhite] at h1 hlength
    have h3 := List.length_dropWhile_le Text.isWhitespace line
    rw [List.length_cons] at hlength
    omega

theorem Proper.last_ne {line : Line} (h : Proper line) : line.getLast? ≠ some '\r' := by
  intro hlast
  have := (isWhitespace_of_trimmed h.trimmed).2 '\r' hlast
  cases this

theorem lines_textOf {lines : List Line}
    (h : ∀ line ∈ lines, '\n' ∉ line ∧ line.getLast? ≠ some '\r') :
    Text.lines (lines.flatMap fun line => line ++ ['\r', '\n']) = lines := by
  induction lines with
  | nil => rfl
  | cons line lines ih =>
    rw [List.forall_mem_cons] at h
    rw [List.flatMap_cons]
    exact (Text.lines_lineBreak h.1.1 h.1.2 .crlf _).trans (congrArg _ (ih h.2))

theorem unfoldLinesFrom_proper {lines : List Line} (h : ∀ line ∈ lines, Proper line)
    (current : Line) : unfoldLinesFrom current lines = flush current ++ lines := by
  induction lines generalizing current with
  | nil =>
    rw [List.append_nil]
    rfl
  | cons line lines ih =>
    rw [List.forall_mem_cons] at h
    have hhead := (isWhitespace_of_trimmed h.1.trimmed).1
    have hcr : Text.trimEndMatches ['\r'] line = line := by
      rw [Text.trimEndMatches_eq_self (by decide)]
      rintro ⟨a, rfl⟩
      exact h.1.last_ne (by simp)
    have hunindented : ∀ c ∈ line.head?, c ≠ ' ' ∧ c ≠ '\t' := by
      intro c hc
      have hwhite := hhead c hc
      constructor
      · rintro rfl
        cases hwhite
      · rintro rfl
        cases hwhite
    have hflush : flush line = [line] := by
      unfold flush
      rw [if_neg]
      rw [List.isEmpty_iff]
      exact h.1.ne_nil
    rw [unfoldLinesFrom_unindented hcr hunindented, ih h.2, hflush]
    rfl

/-- Proper lines are read back. -/
theorem linesOfText_textOf {lines : List Line} (h : ∀ line ∈ lines, Proper line) :
    linesOfText (textOf lines) = lines := by
  unfold linesOfText textOf unfoldLines
  rw [String.toList_ofList,
    lines_textOf fun line hl => ⟨(h line hl).noLineEnd, (h line hl).last_ne⟩,
    unfoldLinesFrom_proper h]
  refine (List.map_congr_left fun line hl => ?_).trans (List.map_id lines)
  exact (h line hl).trimmed

/-! ## A master and its overrides -/

/-- A calendar with a recurring event: the master, and the overrides of some occurrences. -/
structure RecurringText where
  before : List Part
  master : List Part
  overrides : List (List Part)
  after : List Part

namespace RecurringText

/-- The text with its VEVENTs in a given order. -/
def linesIn (c : RecurringText) (events : List (List Part)) : List Line :=
  linesOf [.component "VCALENDAR".toList
    (c.before ++ events.map (.component Kind.vevent.name) ++ c.after)]

/-- All VEVENTs. -/
def events (c : RecurringText) : List (List Part) := c.master :: c.overrides

/-- Only the overrides have a RECURRENCE-ID, and they have the master's UID; there is no other
    VEVENT or VTODO, and every line can be written. -/
structure WellFormed (c : RecurringText) : Prop where
  master : valuesOf "RECURRENCE-ID" (ownLines c.master) = []
  overrides : ∀ p ∈ c.overrides, valuesOf "RECURRENCE-ID" (ownLines p) ≠ [] ∧
    valuesOf "UID" (ownLines p) = valuesOf "UID" (ownLines c.master)
  before : Unmarked (linesOf c.before)
  after : Unmarked (linesOf c.after)
  inside : ∀ p ∈ c.events, Unmarked (linesOf p)
  proper : ∀ line ∈ c.linesIn c.events, Proper line

/-- The parser finds the master's own properties. -/
structure MasterFields (c : RecurringText) (fields : IcalFields) : Prop where
  dtstart : fields.dtstart = lastValue "DTSTART" (ownLines c.master)
  dtend : fields.dtend = endValue (ownLines c.master)
  summary : fields.summary = lastValue "SUMMARY" (ownLines c.master)

/-- Every VEVENT that has a DTSTART, an end or a SUMMARY has that of the master, with the lines
    of the components inside of it. -/
structure Agrees (c : RecurringText) : Prop where
  dtstart : ∀ p ∈ c.events, lastValue "DTSTART" (linesOf p) = none ∨
    lastValue "DTSTART" (linesOf p) = lastValue "DTSTART" (ownLines c.master)
  dtend : ∀ p ∈ c.events, lastValue "DTEND" (linesOf p) = none ∨
    lastValue "DTEND" (linesOf p) = endValue (ownLines c.master)
  due : (∀ p ∈ c.events, lastValue "DTEND" (linesOf p) = none) → ∀ p ∈ c.events,
    (valuesOf "DUE" (linesOf p)).head? = none ∨
    (valuesOf "DUE" (linesOf p)).head? = endValue (ownLines c.master)
  summary : ∀ p ∈ c.events, lastValue "SUMMARY" (linesOf p) = none ∨
    lastValue "SUMMARY" (linesOf p) = lastValue "SUMMARY" (ownLines c.master)

end RecurringText

/-! ### The last and the first of several lists -/

section

variable {α β : Type} {f g : α → List β} {l : List α} {x : Option β}

theorem getLast?_flatMap {w : β} (h : (l.flatMap f).getLast? = some w) :
    ∃ a ∈ l, (f a).getLast? = some w := by
  induction l with
  | nil => cases h
  | cons a l ih =>
    rw [List.flatMap_cons, List.getLast?_append] at h
    cases hl : (l.flatMap f).getLast? with
    | some v =>
      rw [hl] at h
      obtain ⟨b, hb, hfb⟩ := ih (hl.trans h)
      exact ⟨b, List.mem_cons_of_mem _ hb, hfb⟩
    | none =>
      rw [hl] at h
      exact ⟨a, List.mem_cons_self, h⟩

theorem head?_flatMap {w : β} (h : (l.flatMap f).head? = some w) :
    ∃ a ∈ l, (f a).head? = some w := by
  induction l with
  | nil => cases h
  | cons a l ih =>
    rw [List.flatMap_cons, List.head?_append] at h
    cases hl : (f a).head? with
    | some v =>
      rw [hl] at h
      exact ⟨a, List.mem_cons_self, hl.trans h⟩
    | none =>
      rw [hl] at h
      obtain ⟨b, hb, hfb⟩ := ih h
      exact ⟨b, List.mem_cons_of_mem _ hb, hfb⟩

/-- The last element of the one kind, or else the first of the other, is `x` in every order
    exactly when each list that has one says so. -/
theorem last_or_first_iff {m : α} (hm : m ∈ l) (hx : f m = [] → g m = [] → x = none) :
    (∀ l' : List α, l'.Perm l → (l'.flatMap f).getLast?.or (l'.flatMap g).head? = x) ↔
      (∀ a ∈ l, (f a).getLast? = none ∨ (f a).getLast? = x) ∧
      ((∀ a ∈ l, (f a).getLast? = none) → ∀ a ∈ l, (g a).head? = none ∨ (g a).head? = x) := by
  constructor
  · intro h
    refine ⟨fun a ha => ?_, fun hnone a ha => ?_⟩
    · -- the order in which this one comes last
      obtain ⟨s, t, rfl⟩ := List.append_of_mem ha
      have hperm : (s ++ t ++ [a]).Perm (s ++ a :: t) := by
        rw [List.append_assoc]
        exact List.Perm.append_left s (List.perm_append_singleton a t)
      have hlast := h _ hperm
      cases hfa : (f a).getLast? with
      | none => exact Or.inl rfl
      | some v =>
        rw [List.flatMap_append, List.flatMap_singleton, List.getLast?_append, hfa] at hlast
        exact Or.inr hlast
    · -- the order in which this one comes first
      obtain ⟨s, t, rfl⟩ := List.append_of_mem ha
      have hfirst := h (a :: (s ++ t)) List.perm_middle.symm
      have hempty : (a :: (s ++ t)).flatMap f = [] := by
        rw [List.flatMap_eq_nil_iff]
        intro b hb
        exact List.getLast?_eq_none_iff.mp (hnone b (List.perm_middle.symm.mem_iff.mp hb))
      rw [hempty, List.getLast?_nil, Option.none_or, List.flatMap_cons, List.head?_append]
        at hfirst
      cases hga : (g a).head? with
      | none => exact Or.inl rfl
      | some v =>
        rw [hga] at hfirst
        exact Or.inr hfirst
  · rintro ⟨hf, hg⟩ l' hperm
    cases hlast : (l'.flatMap f).getLast? with
    | some w =>
      obtain ⟨a, ha, hfa⟩ := getLast?_flatMap hlast
      rcases hf a (hperm.mem_iff.mp ha) with hnone | heq
      · rw [hfa] at hnone
        cases hnone
      · exact hfa.symm.trans heq
    | none =>
      have hempty := List.flatMap_eq_nil_iff.mp (List.getLast?_eq_none_iff.mp hlast)
      have hnone : ∀ a ∈ l, (f a).getLast? = none := fun a ha =>
        List.getLast?_eq_none_iff.mpr (hempty a (hperm.mem_iff.mpr ha))
      cases hfirst : (l'.flatMap g).head? with
      | some w =>
        obtain ⟨a, ha, hga⟩ := head?_flatMap hfirst
        rcases hg hnone a (hperm.mem_iff.mp ha) with hnone | heq
        · rw [hga] at hnone
          cases hnone
        · exact hga.symm.trans heq
      | none =>
        have hempty' := List.flatMap_eq_nil_iff.mp (List.head?_eq_none_iff.mp hfirst)
        exact (hx (hempty m (hperm.mem_iff.mpr hm)) (hempty' m (hperm.mem_iff.mpr hm))).symm

end

/-! ### What the loop makes of them -/

section

variable {c : RecurringText} {events : List (List Part)}

theorem takenFrom_events (hinside : ∀ p ∈ events, Unmarked (linesOf p)) (rest : List Line) :
    takenFrom false (linesOf (events.map (.component Kind.vevent.name)) ++ rest) =
      events.flatMap (fun p => beginLine Kind.vevent.name :: linesOf p) ++
        takenFrom false rest := by
  induction events with
  | nil => rfl
  | cons p events ih =>
    rw [List.forall_mem_cons] at hinside
    have hlines : linesOf ((p :: events).map (.component Kind.vevent.name)) ++ rest =
        beginLine Kind.vevent.name :: (linesOf p ++ endLine Kind.vevent.name ::
          (linesOf (events.map (.component Kind.vevent.name)) ++ rest)) := by
      simp [linesOf, Part.lines]
    rw [hlines, takenFrom_component .vevent false hinside.1, ih hinside.2, List.flatMap_cons,
      List.append_assoc]

/-- Of DTSTART, SUMMARY, DTEND and DUE, the lines of the VEVENTs count, in their order. -/
theorem RecurringText.valuesOf_taken (h : c.WellFormed) (hperm : events.Perm c.events)
    {name : String}
    (hname : name = "DTSTART" ∨ name = "DTEND" ∨ name = "DUE" ∨ name = "SUMMARY") :
    valuesOf name (takenFrom false (c.linesIn events)) =
      events.flatMap fun p => valuesOf name (linesOf p) := by
  have h3 : 3 ≤ name.toList.length := by rcases hname with rfl | rfl | rfl | rfl <;> decide
  have hne : name.toList.take 3 ≠ "UID".toList := by
    rcases hname with rfl | rfl | rfl | rfl <;> decide
  have hlines : c.linesIn events =
      (beginLine "VCALENDAR".toList :: linesOf c.before) ++
        (linesOf (events.map (.component Kind.vevent.name)) ++
          (linesOf c.after ++ [endLine "VCALENDAR".toList])) := by
    unfold RecurringText.linesIn
    simp [linesOf, Part.lines, linesOf_append]
  have hbefore : Unmarked (beginLine "VCALENDAR".toList :: linesOf c.before) :=
    List.forall_mem_cons.mpr ⟨by decide, h.before⟩
  have hafter : Unmarked (linesOf c.after ++ [endLine "VCALENDAR".toList]) :=
    List.forall_mem_append.mpr ⟨h.after, List.forall_mem_singleton.mpr (by decide)⟩
  have hinside : ∀ p ∈ events, Unmarked (linesOf p) :=
    fun p hp => h.inside p (hperm.mem_iff.mp hp)
  have hend := takenFrom_outside hafter []
  rw [List.append_nil] at hend
  rw [hlines, takenFrom_outside hbefore, takenFrom_events hinside, hend, valuesOf_append,
    valuesOf_append, valuesOf_append, valuesOf_filter h3 hne, valuesOf_filter h3 hne,
    List.nil_append, takenFrom]
  have hnil : valuesOf name [] = [] := rfl
  rw [hnil, List.append_nil, List.append_nil]
  unfold valuesOf
  rw [List.filterMap_flatMap]
  refine List.flatMap_congr fun p _ => ?_
  exact valuesOf_beginLine (Or.inr hname) .vevent (linesOf p)

/-- The fields that are found when the VEVENTs stand in a given order. -/
theorem RecurringText.extracted (h : c.WellFormed) (hperm : events.Perm c.events) {data : String}
    (hdata : linesOfText data = c.linesIn events) :
    (extractFields data).dtstart =
        (events.flatMap fun p => valuesOf "DTSTART" (linesOf p)).getLast? ∧
      (extractFields data).dtend =
        (events.flatMap fun p => valuesOf "DTEND" (linesOf p)).getLast?.or
          (events.flatMap fun p => valuesOf "DUE" (linesOf p)).head? ∧
      (extractFields data).summary =
        (events.flatMap fun p => valuesOf "SUMMARY" (linesOf p)).getLast? := by
  have htaken : taken data = takenFrom false (c.linesIn events) := congrArg (takenFrom false) hdata
  rw [extractFields_dtstart, extractFields_dtend, extractFields_summary, htaken]
  unfold endValue lastValue
  rw [RecurringText.valuesOf_taken h hperm (by simp), RecurringText.valuesOf_taken h hperm (by simp),
    RecurringText.valuesOf_taken h hperm (by simp), RecurringText.valuesOf_taken h hperm (by simp)]
  exact ⟨rfl, rfl, rfl⟩

/-- In every order there is a text. -/
theorem RecurringText.exists_text (h : c.WellFormed) (hperm : events.Perm c.events) :
    ∃ data, linesOfText data = c.linesIn events := by
  refine ⟨textOf (c.linesIn events), linesOfText_textOf fun line hline => h.proper line ?_⟩
  have hmem : ∀ events : List (List Part), line ∈ linesOf
      (events.map (.component Kind.vevent.name)) ↔
      ∃ p ∈ events, line ∈ (Part.component Kind.vevent.name p).lines := by
    intro events
    induction events with
    | nil => simp [linesOf]
    | cons p events ih => simp [linesOf, ih]
  unfold RecurringText.linesIn at hline ⊢
  simp only [linesOf, Part.lines, linesOf_append, List.mem_append, List.mem_cons, hmem] at hline ⊢
  rcases hline with (rfl | (((hline | ⟨p, hp, hline⟩) | hline) | hline)) | hline
  · exact Or.inl (Or.inl rfl)
  · exact Or.inl (Or.inr (Or.inl (Or.inl (Or.inl hline))))
  · exact Or.inl (Or.inr (Or.inl (Or.inl (Or.inr ⟨p, hperm.mem_iff.mp hp, hline⟩))))
  · exact Or.inl (Or.inr (Or.inl (Or.inr hline)))
  · exact Or.inl (Or.inr (Or.inr hline))
  · exact Or.inr hline

end

/-- What lines inside of a component say, its own lines among them. -/
theorem ownValues_eq_nil {parts : List Part} {name : String}
    (h : valuesOf name (linesOf parts) = []) : valuesOf name (ownLines parts) = [] := by
  unfold valuesOf at h ⊢
  rw [List.filterMap_eq_nil_iff] at h ⊢
  exact fun line hline => h line (mem_linesOf hline)

instance (line : Line) : Decidable (Proper line) :=
  decidable_of_iff (line ≠ [] ∧ '\n' ∉ line ∧ Text.trim line = line)
    ⟨fun h => ⟨h.1, h.2.1, h.2.2⟩, fun h => ⟨h.ne_nil, h.noLineEnd, h.trimmed⟩⟩

/-- A daily standup, of which one occurrence is changed. -/
def standupText (change : List Line) : RecurringText where
  before := [.property "VERSION:2.0".toList]
  master := [.property "UID:standup".toList, .property "DTSTART:20260302T090000Z".toList,
    .property "RRULE:FREQ=DAILY".toList, .property "SUMMARY:Standup".toList]
  overrides := [.property "UID:standup".toList :: .property
    "RECURRENCE-ID:20260304T090000Z".toList :: change.map .property]
  after := []

end CaldavMcp
