/-
  The indexed columns, over runs of the calls that store objects.

  A PUT takes the columns from the data it stores. The tools take them from their arguments and
  write the data with `build_vevent`, so the two agree where the arguments are read back
  (`EventArgs.Readable`). `columnsContract` says that only rows whose columns agree are written.
  A PUT always keeps to it, and a tool when its arguments are readable, so the columns agree in
  every state that such calls lead to (`columns_agree`), whatever else is done in between.
-/
import CaldavMcp.Caldav.Handlers
import CaldavMcp.Mcp.EventTexts
import CaldavMcp.Program.Contracts

namespace CaldavMcp

open Program

/-! ## The contract -/

/-- The columns of every row agree with its data. -/
def ColumnsAgree (w : World) : Prop :=
  ∀ o ∈ w.db.calendarObjects, Indexed o.uid o.icalData o.toObjectFields

/-- A row is written with columns that agree with its data. -/
def columnsContract : Contract Op Op.Resp where
  pre
    | .sql (.insertObject o) => Indexed o.uid o.icalData o.toObjectFields
    | .sql (.updateObject _ icalData fields _ uid) => Indexed uid icalData fields
    | _ => True
  post
    | .newV4, uuid => uuid.toList.all isUuidChar = true
    | .utcNow, now => '\n' ∉ now.toList
    | _, _ => True

/-- Each operation answers within the contract and stores no other row. -/
theorem exec_columns {env : Env} (hnow : ∀ n, '\n' ∉ (env.now n).toList) :
    Handler.Keeps (exec env) columnsContract ColumnsAgree := by
  intro o w hpre h
  constructor
  · cases o with
    | newV4 => exact env.uuid_chars w.drawn
    | utcNow => exact hnow w.drawn
    | nowV7 | salt | sql s => exact trivial
  · intro r hr
    obtain hr | rfl | ⟨etag, icalData, fields, r', -, rfl, rfl⟩ := mem_objects_exec hr
    · exact h r hr
    · exact hpre
    · exact hpre

/-- An upsert asks for nothing but its own row. -/
theorem only_indexed {calendarId uid icalData : String} {fields : ObjectFields}
    (h : Indexed uid icalData fields) :
    (upsertObject calendarId uid icalData fields).run.Only columnsContract.pre :=
  only_upsertObject trivial trivial trivial (fun _ _ => h) (fun _ => h) (fun _ _ => trivial)
    fun _ _ => trivial

/-! ## PUT -/

theorem indexed_put (filename icalData : String) :
    Indexed (putUid filename icalData) icalData (fieldsOf icalData) := by
  refine ⟨rfl, rfl, rfl, rfl, fun found h => ?_⟩
  unfold putUid
  rw [Option.mem_def.mp h]
  rfl

theorem only_checkIfMatch (ifMatch : Option String) (calendarId uid : String) :
    (checkIfMatch ifMatch calendarId uid).Only columnsContract.pre := by
  unfold checkIfMatch
  cases ifMatch with
  | none => exact trivial
  | some expectedEtag =>
    dsimp only
    split
    · exact trivial
    · refine only_bind (only_sql trivial) fun r => ?_
      rcases r with e | (_ | existing)
      · exact trivial
      · exact trivial
      · dsimp only
        split <;> exact trivial

/-- A PUT writes rows with columns that agree, whatever it is sent. -/
theorem only_handlePut (calendarId filename : String) (request : Request) :
    (handlePut calendarId filename request).Only columnsContract.pre := by
  unfold handlePut
  split
  · cases String.fromUTF8? request.body with
    | none => exact trivial
    | some icalData =>
      refine only_bind (only_checkIfMatch ..) fun refusal => ?_
      cases refusal with
      | some reply => exact trivial
      | none => exact only_bind (only_indexed (indexed_put filename icalData)) fun _ => trivial
  · exact trivial

/-! ## The tools -/

/-- The arguments are read back, and the timezone has no line feed. -/
structure EventArgs.Readable (a : EventArgs) (uid : Option String) : Prop extends
    a.ReadBack uid where
  timezone : ∀ tz ∈ a.timezone, '\n' ∉ tz.toList

theorem EventArgs.Readable.indexed {a : EventArgs} {now uid : String} {expected : Option String}
    (h : a.Readable expected) (hexpected : ∀ v ∈ expected, v = uid) (huid : OneLine uid)
    (hnow : '\n' ∉ now.toList) : Indexed uid (a.icalData now uid) a.fields := by
  refine (indexed_iff hnow huid.noLineFeed h.timezone).mpr ⟨huid, { h.toReadBack with uids := ?_ }⟩
  intro v hv
  exact congrArg some (hexpected v (h.uids v hv)).symm

/-- A generated uid is on one line. -/
theorem oneLine_generated {uuid : String} (h : uuid.toList.all isUuidChar = true) :
    OneLine (uuid ++ "@caldav-server") := by
  rw [List.all_eq_true] at h
  constructor
  · rw [String.toList_append, List.mem_append, not_or]
    exact ⟨fun hmem => absurd (h _ hmem) (by decide), by decide⟩
  · have hlast : "@caldav-server".toList.getLast? = some 'r' := rfl
    rw [String.toList_append, List.getLast?_append, hlast]
    intro c hc
    rw [← Option.some.inj hc]
    decide

section

variable {β : Type} {Q : Except String β → Prop} {args : Json}

theorem meets_required {key : String} {f : String → ToolCall β} (he : ∀ e, Q (.error e))
    (hf : ∀ v, args.str? key = some v → (f v).run.Meets columnsContract Q) :
    (required args key >>= f).run.Meets columnsContract Q := by
  unfold required
  cases hv : args.str? key with
  | none => exact he _
  | some v => exact hf v hv

/-- A write of an object whose columns agree, and its answer. -/
theorem meets_store {calendarId uid icalData : String} {fields : ObjectFields}
    (h : Indexed uid icalData fields) (message : String)
    (answer : CalendarObject × Bool → ToolCall Json)
    (hanswer : ∀ r, (answer r).run.Only columnsContract.pre) :
    (orFail message (upsertObject calendarId uid icalData fields) >>= answer).run.Meets
      columnsContract fun _ => True :=
  (only_except_bind (only_orFail (only_indexed h) message) hanswer).meets

theorem eventArgs?_some {title start stop : String} (htitle : args.str? "title" = some title)
    (hstart : args.str? "start" = some start) (hstop : args.str? "end" = some stop) :
    eventArgs? args = some ⟨title, start, stop, args.str? "description", args.str? "location",
      args.str? "timezone"⟩ := by
  unfold eventArgs?
  rw [htitle, hstart, hstop]

theorem meets_createEvent (userId : String)
    (h : ∀ a, eventArgs? args = some a → a.Readable none) :
    (createEvent userId args).run.Meets columnsContract fun _ => True := by
  unfold createEvent
  apply meets_required fun _ => trivial
  intro calendarId _
  apply meets_required fun _ => trivial
  intro title htitle
  apply meets_required fun _ => trivial
  intro start hstart
  apply meets_required fun _ => trivial
  intro stop hstop
  have ha := h _ (eventArgs?_some htitle hstart hstop)
  refine ⟨trivial, fun uuid huuid => ⟨trivial, fun now hnow => ?_⟩⟩
  exact meets_store (ha.indexed nofun (oneLine_generated huuid) hnow) _ _ fun _ => trivial

theorem meets_updateEvent (userId : String)
    (h : ∀ a uid, eventArgs? args = some a → args.str? "event_uid" = some uid →
      OneLine uid ∧ a.Readable (some uid)) :
    (updateEvent userId args).run.Meets columnsContract fun _ => True := by
  unfold updateEvent
  apply meets_required fun _ => trivial
  intro calendarId _
  apply meets_required fun _ => trivial
  intro eventUid huid
  apply meets_required fun _ => trivial
  intro title htitle
  apply meets_required fun _ => trivial
  intro start hstart
  apply meets_required fun _ => trivial
  intro stop hstop
  obtain ⟨hone, ha⟩ := h _ _ (eventArgs?_some htitle hstart hstop) huid
  have hexpected : ∀ v ∈ some eventUid, v = eventUid := fun v hv => (Option.some.inj hv).symm
  apply meets_except_bind (M := fun _ => True)
  · exact (only_orFail (only_sql trivial) _).meets.mono fun _ _ _ _ => trivial
  · exact fun _ => trivial
  · intro found _
    cases found with
    | none => exact trivial
    | some o =>
      refine ⟨trivial, fun now hnow => ?_⟩
      exact meets_store (ha.indexed hexpected hone hnow) _ _ fun _ => trivial

theorem only_resolveCalendar (userId : String) :
    (Simple.resolveCalendar userId).run.Only columnsContract.pre := by
  refine only_except_bind (only_orFail (only_sql trivial) _) fun cals => ?_
  cases cals with
  | cons cal cals => exact trivial
  | nil =>
    have hcreate : (createCalendar userId "Calendar" "" "#0E61B9" "UTC").run.Only
        columnsContract.pre :=
      only_except_bind (only_nowV7 trivial) fun id =>
        only_createCalendarWithId trivial (fun _ => trivial) (fun _ => trivial) ..
    exact only_except_bind (only_orFail hcreate _) fun _ => trivial

theorem meets_handleAdd (userId : String)
    (h : ∀ a, eventArgs? args = some a → a.Readable none) :
    (Simple.handleAdd userId args).run.Meets columnsContract fun _ => True := by
  unfold Simple.handleAdd
  apply meets_required fun _ => trivial
  intro title htitle
  apply meets_required fun _ => trivial
  intro start hstart
  apply meets_required fun _ => trivial
  intro stop hstop
  have ha := h _ (eventArgs?_some htitle hstart hstop)
  apply meets_except_bind (M := fun _ => True)
  · exact (only_resolveCalendar userId).meets.mono fun _ _ _ _ => trivial
  · exact fun _ => trivial
  · intro calendarId _
    refine ⟨trivial, fun uuid huuid => ⟨trivial, fun now hnow => ?_⟩⟩
    exact meets_store (ha.indexed nofun (oneLine_generated huuid) hnow) _ _ fun _ => trivial

end

/-! ## Runs -/

/-- A call that stores an object. -/
inductive StoreCall where
  | put (calendarId filename : String) (request : Request)
  | createEvent (userId : String) (args : Json)
  | updateEvent (userId : String) (args : Json)
  | addEvent (userId : String) (args : Json)

namespace StoreCall

/-- The world after the call. -/
def exec (env : Env) : StoreCall → World → World
  | put calendarId filename request, w =>
    ((handlePut calendarId filename request).run (CaldavMcp.exec env) w).2
  | createEvent userId args, w =>
    ((CaldavMcp.createEvent userId args).run.run (CaldavMcp.exec env) w).2
  | updateEvent userId args, w =>
    ((CaldavMcp.updateEvent userId args).run.run (CaldavMcp.exec env) w).2
  | addEvent userId args, w =>
    ((Simple.handleAdd userId args).run.run (CaldavMcp.exec env) w).2

/-- The arguments of a tool are readable. A PUT may be any. -/
def Readable : StoreCall → Prop
  | put _ _ _ => True
  | createEvent _ args | addEvent _ args => ∀ a, eventArgs? args = some a → a.Readable none
  | updateEvent _ args => ∀ a uid, eventArgs? args = some a → args.str? "event_uid" = some uid →
    OneLine uid ∧ a.Readable (some uid)

end StoreCall

/-- An operation that stores no object. -/
def Op.StoresNothing : Op → Prop
  | .sql (.insertObject _) | .sql (.updateObject _ _ _ _ _) => False
  | _ => True

/-- A world that storing calls with a property have led to, from one without objects. In between
    any program may run that stores no object. -/
inductive Filled (env : Env) (P : StoreCall → Prop) : World → Prop
  | start {w : World} (h : w.db.calendarObjects = []) : Filled env P w
  | other {w : World} {α : Type} {p : Action α} (hp : p.Only Op.StoresNothing)
      (hw : Filled env P w) : Filled env P (p.run (exec env) w).2
  | store {w : World} {x : StoreCall} (hx : P x) (hw : Filled env P w) :
      Filled env P (x.exec env w)

theorem Op.StoresNothing.pre (o : Op) (h : o.StoresNothing) : columnsContract.pre o := by
  cases o with
  | sql s => cases s <;> first | exact trivial | exact h.elim
  | newV4 | nowV7 | salt | utcNow => exact trivial

/-- A call with readable arguments keeps to the contract. -/
theorem StoreCall.Readable.keeps {env : Env} (hnow : ∀ n, '\n' ∉ (env.now n).toList)
    {x : StoreCall} (hx : x.Readable) {w : World} (hw : ColumnsAgree w) :
    ColumnsAgree (x.exec env w) := by
  have hkeeps := exec_columns hnow
  cases x with
  | put calendarId filename request =>
    exact (run_meets hkeeps (only_handlePut calendarId filename request).meets hw).2
  | createEvent userId args => exact (run_meets hkeeps (meets_createEvent userId hx) hw).2
  | updateEvent userId args => exact (run_meets hkeeps (meets_updateEvent userId hx) hw).2
  | addEvent userId args => exact (run_meets hkeeps (meets_handleAdd userId hx) hw).2

/-- **The columns agree with the data.** In every state that PUTs, and tool calls with readable
    arguments have led to, every row has the columns and the uid that `extract_fields` finds in
    its data. -/
theorem columns_agree (env : Env) (hnow : ∀ n, '\n' ∉ (env.now n).toList) {w : World}
    (hw : Filled env StoreCall.Readable w) : ColumnsAgree w := by
  induction hw with
  | start h =>
    intro o ho
    rw [h] at ho
    cases ho
  | other hp _ ih => exact (run_meets (exec_columns hnow) (hp.mono Op.StoresNothing.pre).meets ih).2
  | store hx _ ih => exact hx.keeps hnow ih

/-- A clock that shows one time. -/
def datedEnv : Env := { countingEnv with now := fun _ => "20260214T093000Z" }

theorem datedEnv_now (n : Nat) : '\n' ∉ (datedEnv.now n).toList := by
  change '\n' ∉ "20260214T093000Z".toList
  decide

/-- A lunch with a title and a description. -/
def mealArgs (title description : String) : Json :=
  .object [("calendar_id", .string "work"), ("title", .string title),
    ("start", .string "20260301T120000"), ("end", .string "20260301T130000"),
    ("description", .string description), ("timezone", .string "Europe/Paris")]

/-- A description of two lines does no harm. -/
theorem columns_agree_lunch : ColumnsAgree
    ((StoreCall.createEvent "alice-id" (mealArgs "Lunch" "At the corner\nFirst floor")).exec
      datedEnv foundedWorld) := by
  apply columns_agree datedEnv datedEnv_now
  refine .store ?_ (.start rfl)
  intro a ha
  obtain rfl := Option.some.inj ha
  exact
    { title := by decide, start := by decide, stop := by decide, uids := by decide, starts := by decide
      stops := by decide, titles := by decide, kind := by decide, timezone := by decide }

/-- The second line of a title is stored, but it is not a part of the property. -/
theorem second_line_lost : ¬ ∀ env : Env, (∀ n, '\n' ∉ (env.now n).toList) → ∀ w,
    Filled env (fun _ => True) w → ColumnsAgree w := by
  intro h
  have hagree := h datedEnv datedEnv_now
    ((StoreCall.createEvent "alice-id" (mealArgs "Lunch\nwith Bob" "At the corner")).exec datedEnv
      foundedWorld) (.store trivial (.start rfl))
  have hrow : ∃ o ∈ ((StoreCall.createEvent "alice-id"
      (mealArgs "Lunch\nwith Bob" "At the corner")).exec datedEnv
      foundedWorld).db.calendarObjects, o.summary = some "Lunch\nwith Bob" := by
    decide
  obtain ⟨o, ho, hsummary⟩ := hrow
  have hread := (hagree o ho).summary
  rw [hsummary, extractFields_summary] at hread
  have htitle : OneLine "Lunch\nwith Bob" := oneLine_of_lastValue hread.symm
  exact absurd htitle (by decide)

end CaldavMcp
