/-
  What each tool that writes or lists events does, when it runs alone.

  An event tool reads its arguments, finds its calendar and makes one write. `EventOutcome` is
  what may come of it: no write, with an error, or the write and an answer that shows the
  stored row. In a state that calls have led to (`Synced`) a write into a calendar that exists
  succeeds. The tools of the simple mode find their calendar first: `resolveCalendar` takes the
  first one accessible, and makes one if there is none.
-/
import CaldavMcp.Mcp.Runs
import CaldavMcp.Db.Grants

namespace CaldavMcp

open Program

/-! ## Arguments -/

/-- The event that the arguments of a tool describe. -/
structure EventArgs where
  title : String
  start : String
  stop : String
  description : Option String
  location : Option String
  timezone : Option String
  deriving DecidableEq, Repr

/-- The event, if its title, start and end are there. -/
def eventArgs? (args : Json) : Option EventArgs :=
  match args.str? "title", args.str? "start", args.str? "end" with
  | some title, some start, some stop =>
    some ⟨title, start, stop, args.str? "description", args.str? "location",
      args.str? "timezone"⟩
  | _, _, _ => none

namespace EventArgs

/-- The data stored for the event. -/
def icalData (a : EventArgs) (now uid : String) : String :=
  buildVevent now uid a.title a.start a.stop a.description a.location a.timezone

def fields (a : EventArgs) : ObjectFields := eventFields a.title a.start a.stop

/-- The write that stores the event. -/
def write (a : EventArgs) (calendarId uid now : String) : ObjectWrite :=
  .upsert calendarId uid (a.icalData now uid) a.fields

end EventArgs

section

variable {env : Env} {w : World} {args : Json} {β : Type}

/-- The three required arguments of an event, and what follows. -/
theorem run_eventArgs (f : String → String → String → ToolCall β) :
    (do
      let title ← required args "title"
      let start ← required args "start"
      let stop ← required args "end"
      f title start stop : ToolCall β).run.run (exec env) w =
      match eventArgs? args with
      | some a => (f a.title a.start a.stop).run.run (exec env) w
      | none => (.error (if args.str? "title" = none then "Missing title" else
          if args.str? "start" = none then "Missing start" else "Missing end"), w) := by
  rw [run_required]
  unfold eventArgs?
  cases args.str? "title" with
  | none => rfl
  | some title =>
    dsimp only
    rw [run_required]
    cases args.str? "start" with
    | none => rfl
    | some start =>
      dsimp only
      rw [run_required]
      cases args.str? "end" with
      | none => rfl
      | some stop => rfl

/-- The optional arguments are as they are given. -/
theorem eventArgs?_optional {a : EventArgs} (ha : eventArgs? args = some a) :
    a.description = args.str? "description" ∧ a.location = args.str? "location" ∧
      a.timezone = args.str? "timezone" := by
  unfold eventArgs? at ha
  split at ha
  · obtain rfl := Option.some.inj ha
    exact ⟨rfl, rfl, rfl⟩
  · cases ha

/-! ## Storing an event -/

/-- What comes of storing an event: an error where there is no such calendar, and else the row
    and the answer that shows it. -/
inductive Stored (env : Env) (w : World) (calendarId uid icalData : String)
    (fields : ObjectFields) (answer : CalendarObject → Json) : Except String Json × World → Prop
  | unknown (e : String) (w' : World) (hc : calendarId ∉ w.db.calendarIds)
      (ht : w'.db.toTables = w.db.toTables) (hd : w.drawn ≤ w'.drawn) :
      Stored env w calendarId uid icalData fields answer (.error e, w')
  | stored (o : CalendarObject) (w' : World) (hc : calendarId ∈ w.db.calendarIds)
      (hstep : ObjectWrite.Step env w (.upsert calendarId uid icalData fields) w')
      (hrow : w'.db.objectByUid calendarId uid = some o)
      (hetag : o.etag = etagOf (env.uuid w.drawn)) :
      Stored env w calendarId uid icalData fields answer (.ok (answer o), w')

theorem upsertObject_call (env : Env) (w : World) (calendarId uid icalData : String)
    (fields : ObjectFields) :
    (ObjectWrite.upsert calendarId uid icalData fields).call.exec env w =
      (((upsertObject calendarId uid icalData fields).exec env w).1.map fun _ => (),
        ((upsertObject calendarId uid icalData fields).exec env w).2) := by
  unfold Call.exec
  rw [ObjectWrite.run_upsert, run_bind]
  cases ((upsertObject calendarId uid icalData fields).run.run (exec env) w).1 <;> rfl

theorem run_store (hinj : Function.Injective env.uuid) (hs : Synced env w)
    (message calendarId uid icalData : String) (fields : ObjectFields)
    (answer : CalendarObject → Json) :
    Stored env w calendarId uid icalData fields answer ((do
      let (obj, _) ← orFail message (upsertObject calendarId uid icalData fields)
      return answer obj : ToolCall Json).run.run (exec env) w) := by
  by_cases hc : calendarId ∈ w.db.calendarIds
  · obtain ⟨o, w', hrun, hstep, hrow, hetag, -⟩ := hs.upsert hinj hc uid icalData fields
    rw [run_except_bind_ok (run_orFail_ok hrun)]
    exact .stored o w' hc hstep hrow hetag
  · -- a write needs its calendar
    have hcall := upsertObject_call env w calendarId uid icalData fields
    rcases (ObjectWrite.upsert calendarId uid icalData fields).exec_cases env w with
      ⟨-, hstep⟩ | ⟨⟨e, he⟩, ht, hd⟩
    · obtain ⟨type, m, n, heffect⟩ := hstep.effect
      exact absurd heffect.calendar hc
    · rw [hcall] at he ht hd
      cases hu : ((upsertObject calendarId uid icalData fields).exec env w).1 with
      | ok r =>
        rw [hu] at he
        cases he
      | error e' =>
        rw [run_except_bind_error (run_orFail_error (Prod.ext hu rfl))]
        exact .unknown _ _ hc ht hd

/-- A new uid and the time, and what follows. -/
theorem run_stamp (f : String → String → ToolCall β) :
    (do
      let uid ← ExceptT.lift generateUid
      let now ← ExceptT.lift utcNow
      f uid now : ToolCall β).run.run (exec env) w =
      (f (env.uuid w.drawn ++ "@caldav-server") (env.now (w.drawn + 1))).run.run (exec env)
        (w.draw 2) := rfl

/-! ## Deleting an event -/

/-- What comes of deleting an event: an error where there is none, and else the deletion. -/
inductive Deleted (env : Env) (w : World) (calendarId uid : String) (answer : Json) :
    Except String Json × World → Prop
  | missing (e : String) (w' : World) (ho : w.db.objectByUid calendarId uid = none)
      (ht : w'.db.toTables = w.db.toTables) (hd : w.drawn ≤ w'.drawn) :
      Deleted env w calendarId uid answer (.error e, w')
  | deleted (o : CalendarObject) (w' : World) (ho : w.db.objectByUid calendarId uid = some o)
      (hstep : ObjectWrite.Step env w (.delete calendarId uid) w') :
      Deleted env w calendarId uid answer (.ok answer, w')

theorem run_delete (message calendarId uid : String) (answer : Json) :
    Deleted env w calendarId uid answer ((do
      let _ ← orFail message (deleteObject calendarId uid)
      return answer : ToolCall Json).run.run (exec env) w) := by
  cases ho : w.db.objectByUid calendarId uid with
  | none =>
    rw [run_except_bind_error (run_orFail_error (delete_exec_missing ho))]
    exact .missing _ _ ho (Tables.after_deleteObject_none ho) (le_refl _)
  | some o =>
    rw [run_except_bind_ok (run_orFail_ok (delete_exec_found ho))]
    exact .deleted o _ ho (.deleted calendarId uid o ho)

/-! ## The tools of the full mode -/

/-- The answer of `create_event`. -/
def createdJson (calendarId : String) (a : EventArgs) (o : CalendarObject) : Json :=
  .object [("uid", .string o.uid), ("calendar_id", .string calendarId),
    ("title", .string a.title), ("start", .string a.start), ("end", .string a.stop),
    ("etag", .string o.etag)]

/-- The answer of `update_event`. -/
def updatedJson (calendarId : String) (a : EventArgs) (o : CalendarObject) : Json :=
  .object [("uid", .string o.uid), ("calendar_id", .string calendarId),
    ("title", .string a.title), ("etag", .string o.etag), ("updated", .bool true)]

/-- The answer of `delete_event`. -/
def deletedJson (eventUid : String) : Json :=
  .object [("deleted", .bool true), ("event_uid", .string eventUid)]

variable (userId : String)

/-- `create_event` with all its arguments: the event is stored under a new uid. -/
theorem createEvent_run (hinj : Function.Injective env.uuid) (hs : Synced env w)
    {calendarId : String} (hc : args.str? "calendar_id" = some calendarId) {a : EventArgs}
    (ha : eventArgs? args = some a) :
    Stored env (w.draw 2) calendarId (env.uuid w.drawn ++ "@caldav-server")
      (a.icalData (env.now (w.drawn + 1)) (env.uuid w.drawn ++ "@caldav-server")) a.fields
      (createdJson calendarId a) ((createEvent userId args).run.run (exec env) w) := by
  unfold createEvent
  rw [run_required, hc]
  dsimp only
  rw [run_eventArgs, ha]
  dsimp only
  rw [run_stamp]
  have optional := eventArgs?_optional ha
  rw [← optional.1, ← optional.2.1, ← optional.2.2]
  exact run_store hinj (hs.draw 2) ..

theorem createEvent_missing (h : args.str? "calendar_id" = none ∨ eventArgs? args = none) :
    ∃ e, (createEvent userId args).run.run (exec env) w = (.error e, w) := by
  unfold createEvent
  rw [run_required]
  cases hc : args.str? "calendar_id" with
  | none => exact ⟨_, rfl⟩
  | some calendarId =>
    dsimp only
    rw [run_eventArgs]
    rcases h with h | h
    · rw [hc] at h
      cases h
    · rw [h]
      exact ⟨_, rfl⟩

/-- `update_event` of an event that is there. -/
theorem updateEvent_run (hinj : Function.Injective env.uuid) (hs : Synced env w)
    {calendarId uid : String} (hc : args.str? "calendar_id" = some calendarId)
    (hu : args.str? "event_uid" = some uid) {a : EventArgs} (ha : eventArgs? args = some a)
    {o : CalendarObject} (ho : w.db.objectByUid calendarId uid = some o) :
    Stored env (w.draw 1) calendarId uid (a.icalData (env.now w.drawn) uid) a.fields
      (updatedJson calendarId a) ((updateEvent userId args).run.run (exec env) w) := by
  have hget : (orFail "Database error" (getObjectByUid calendarId uid)).run.run (exec env) w =
      (.ok (some o), w) :=
    run_orFail_ok (congrArg (fun o => (Except.ok o, w)) ho)
  have hnow : ∀ f : String → ToolCall Json, (ExceptT.lift utcNow >>= f).run.run (exec env) w =
      (f (env.now w.drawn)).run.run (exec env) (w.draw 1) := fun _ => rfl
  have optional := eventArgs?_optional ha
  unfold updateEvent
  rw [run_required, hc]
  dsimp only
  rw [run_required, hu]
  dsimp only
  rw [run_eventArgs, ha]
  dsimp only
  rw [run_except_bind_ok hget]
  change Stored _ _ _ _ _ _ _ (((ExceptT.lift utcNow : ToolCall String) >>= _).run.run (exec env) w)
  rw [hnow, ← optional.1, ← optional.2.1, ← optional.2.2]
  exact run_store hinj (hs.draw 1) ..

/-- `update_event` without its arguments, or of an event that is not there. -/
theorem updateEvent_missing (h : args.str? "calendar_id" = none ∨ args.str? "event_uid" = none ∨
      eventArgs? args = none ∨ ∃ calendarId uid, args.str? "calendar_id" = some calendarId ∧
        args.str? "event_uid" = some uid ∧ w.db.objectByUid calendarId uid = none) :
    ∃ e, (updateEvent userId args).run.run (exec env) w = (.error e, w) := by
  unfold updateEvent
  rw [run_required]
  cases hc : args.str? "calendar_id" with
  | none => exact ⟨_, rfl⟩
  | some calendarId =>
    dsimp only
    rw [run_required]
    cases hu : args.str? "event_uid" with
    | none => exact ⟨_, rfl⟩
    | some uid =>
      dsimp only
      rw [run_eventArgs]
      cases ha : eventArgs? args with
      | none => exact ⟨_, rfl⟩
      | some a =>
        dsimp only
        have hnone : w.db.objectByUid calendarId uid = none := by
          rcases h with h | h | h | ⟨calendarId', uid', hc', hu', ho⟩
          · rw [hc] at h
            cases h
          · rw [hu] at h
            cases h
          · rw [ha] at h
            cases h
          · obtain rfl := Option.some.inj (hc.symm.trans hc')
            obtain rfl := Option.some.inj (hu.symm.trans hu')
            exact ho
        have hget : (orFail "Database error" (getObjectByUid calendarId uid)).run.run (exec env) w =
            (.ok none, w) :=
          run_orFail_ok (congrArg (fun o => (Except.ok o, w)) hnone)
        rw [run_except_bind_ok hget]
        exact ⟨_, rfl⟩

/-- `delete_event` with its arguments. -/
theorem deleteEvent_run {calendarId uid : String} (hc : args.str? "calendar_id" = some calendarId)
    (hu : args.str? "event_uid" = some uid) :
    Deleted env w calendarId uid (deletedJson uid)
      ((deleteEvent userId args).run.run (exec env) w) := by
  unfold deleteEvent
  rw [run_required, hc]
  dsimp only
  rw [run_required, hu]
  exact run_delete ..

theorem deleteEvent_missing (h : args.str? "calendar_id" = none ∨ args.str? "event_uid" = none) :
    ∃ e, (deleteEvent userId args).run.run (exec env) w = (.error e, w) := by
  unfold deleteEvent
  rw [run_required]
  cases hc : args.str? "calendar_id" with
  | none => exact ⟨_, rfl⟩
  | some calendarId =>
    dsimp only
    rw [run_required]
    rcases h with h | h
    · rw [hc] at h
      cases h
    · rw [h]
      exact ⟨_, rfl⟩

/-! ## The tools of the simple mode -/

/-- What comes of looking for the user's calendar: the first one accessible, a new one if there
    is none, or an error if it cannot be made. -/
inductive Resolved (env : Env) (w : World) (userId : String) : Except String String × World → Prop
  | found (cal : Calendar) (rest : List Calendar) (hcals : w.db.calendarsFor userId = cal :: rest) :
      Resolved env w userId (.ok cal.id, w)
  | created (r : Calendar) (w' : World) (hcals : w.db.calendarsFor userId = [])
      (hrow : r = ⟨env.uuid w.drawn, userId, "Calendar", "", "#0E61B9", "UTC",
        syncTokenOf (env.uuid (w.drawn + 1)), syncTokenOf (env.uuid (w.drawn + 1))⟩)
      (hfree : r.id ∉ w.db.calendarIds)
      (ht : w'.db.toTables = { w.db.toTables with calendars := w.db.calendars ++ [r] })
      (hd : w'.drawn = w.drawn + 2) : Resolved env w userId (.ok r.id, w')
  | failed (e : String) (w' : World) (hcals : w.db.calendarsFor userId = [])
      (ht : w'.db.toTables = w.db.toTables) (hd : w'.drawn = w.drawn + 2) :
      Resolved env w userId (.error e, w')

theorem resolveCalendar_run (env : Env) (w : World) (userId : String) :
    Resolved env w userId ((Simple.resolveCalendar userId).run.run (exec env) w) := by
  unfold Simple.resolveCalendar
  rw [run_except_bind_ok (run_orFail_ok (listCalendarsForUser_exec env w userId))]
  cases hcals : w.db.calendarsFor userId with
  | cons cal rest => exact .found cal rest hcals
  | nil =>
    dsimp only
    have hexec : (createCalendar userId "Calendar" "" "#0E61B9" "UTC").exec env w =
        (createCalendarWithId (env.uuid w.drawn) userId "Calendar" "" "#0E61B9" "UTC").exec env
          (w.draw 1) := rfl
    have hdrawn : ((createCalendarWithId (env.uuid w.drawn) userId "Calendar" "" "#0E61B9"
        "UTC").exec env (w.draw 1)).2.drawn = w.drawn + 2 := by
      rw [createCalendarWithId_exec]
      rfl
    rcases createCalendarWithId_cases env (w.draw 1) (env.uuid w.drawn) userId "Calendar" ""
      "#0E61B9" "UTC" with ⟨r, hrow, hfree, ha, ht⟩ | ⟨-, ⟨e, ha⟩, ht⟩
    · rw [run_except_bind_ok (run_orFail_ok (hexec.trans (Prod.ext ha rfl)))]
      refine .created r _ hcals hrow ?_ ht hdrawn
      rw [hrow]
      exact hfree
    · rw [run_except_bind_error (run_orFail_error (hexec.trans (Prod.ext ha rfl)))]
      exact .failed _ _ hcals ht hdrawn

/-- The answer of `add_event`. -/
def addedJson (a : EventArgs) (o : CalendarObject) : Json :=
  .object [("uid", .string o.uid), ("title", .string a.title), ("start", .string a.start),
    ("end", .string a.stop)]

/-- `add_event` once its calendar is found. -/
theorem handleAdd_run (hinj : Function.Injective env.uuid) {a : EventArgs}
    (ha : eventArgs? args = some a) {calendarId : String} {w' : World} (hs : Synced env w')
    (hr : (Simple.resolveCalendar userId).run.run (exec env) w = (.ok calendarId, w')) :
    Stored env (w'.draw 2) calendarId (env.uuid w'.drawn ++ "@caldav-server")
      (a.icalData (env.now (w'.drawn + 1)) (env.uuid w'.drawn ++ "@caldav-server")) a.fields
      (addedJson a) ((Simple.handleAdd userId args).run.run (exec env) w) := by
  have optional := eventArgs?_optional ha
  unfold Simple.handleAdd
  rw [run_eventArgs, ha]
  dsimp only
  rw [run_except_bind_ok hr, run_stamp, ← optional.1, ← optional.2.1, ← optional.2.2]
  exact run_store hinj (hs.draw 2) ..

theorem handleAdd_missing (h : eventArgs? args = none) :
    ∃ e, (Simple.handleAdd userId args).run.run (exec env) w = (.error e, w) := by
  unfold Simple.handleAdd
  rw [run_eventArgs, h]
  exact ⟨_, rfl⟩

theorem handleAdd_failed {a : EventArgs} (ha : eventArgs? args = some a) {e : String} {w' : World}
    (hr : (Simple.resolveCalendar userId).run.run (exec env) w = (.error e, w')) :
    (Simple.handleAdd userId args).run.run (exec env) w = (.error e, w') := by
  unfold Simple.handleAdd
  rw [run_eventArgs, ha]
  exact run_except_bind_error hr

/-- `delete_event` once its calendar is found. -/
theorem handleDelete_run {calendarId uid : String} {w' : World}
    (hu : args.str? "event_uid" = some uid)
    (hr : (Simple.resolveCalendar userId).run.run (exec env) w = (.ok calendarId, w')) :
    Deleted env w' calendarId uid (deletedJson uid)
      ((Simple.handleDelete userId args).run.run (exec env) w) := by
  unfold Simple.handleDelete
  rw [run_required, hu]
  dsimp only
  rw [run_except_bind_ok hr]
  exact run_delete ..

theorem handleDelete_missing (h : args.str? "event_uid" = none) :
    ∃ e, (Simple.handleDelete userId args).run.run (exec env) w = (.error e, w) := by
  unfold Simple.handleDelete
  rw [run_required, h]
  exact ⟨_, rfl⟩

theorem handleDelete_failed {uid : String} (hu : args.str? "event_uid" = some uid) {e : String}
    {w' : World}
    (hr : (Simple.resolveCalendar userId).run.run (exec env) w = (.error e, w')) :
    (Simple.handleDelete userId args).run.run (exec env) w = (.error e, w') := by
  unfold Simple.handleDelete
  rw [run_required, hu]
  exact run_except_bind_error hr

/-- An entry of the answer of `list_events`. -/
def listedEvent (o : CalendarObject) : Json :=
  .object [("uid", .string o.uid), ("summary", .ofOption o.summary),
    ("start", .ofOption o.dtstart), ("end", .ofOption o.dtend)]

/-- `list_events` without a range, once its calendar is found. -/
theorem handleList_run {calendarId : String} {w' : World}
    (hrange : args.str? "start" = none ∨ args.str? "end" = none)
    (hr : (Simple.resolveCalendar userId).run.run (exec env) w = (.ok calendarId, w')) :
    ∃ events, events =
        ((orderByDtstart (w'.db.objectsOf calendarId)).take (limitOf args)).map listedEvent ∧
      (Simple.handleList userId args).run.run (exec env) w =
        (.ok (.object [("count", .ofNat events.length), ("events", .array events)]), w') := by
  have hevents : eventsOf calendarId args = orFail "Database error" (listObjects calendarId) := by
    unfold eventsOf
    split
    · rename_i s e hstart hend
      rcases hrange with h | h
      · rw [hstart] at h
        cases h
      · rw [hend] at h
        cases h
    · rfl
  have hlist : (listObjects calendarId).exec env w' =
      (.ok (orderByDtstart (w'.db.objectsOf calendarId)), w') := rfl
  refine ⟨_, rfl, ?_⟩
  unfold Simple.handleList
  rw [run_except_bind_ok hr, hevents, run_except_bind_ok (run_orFail_ok hlist)]
  rfl

end

end CaldavMcp
