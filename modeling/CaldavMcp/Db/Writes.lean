/-
  The object writes, `upsert_object` and `delete_object`, one operation at a time.

  `upsertObject` and `deleteObject` are written in the call monad. Here each is shown equal to
  an explicit tree of operations (`upsertObject_run`, `deleteObject_run`), cut into named
  pieces at the statements that matter: the row write, the log insert, the ctag update and
  the re-read. What follows about interleavings, failures and whole runs starts from these
  two equations.
-/
import CaldavMcp.Db.Events

namespace CaldavMcp

open Program

section

variable {β : Type}

/-- A statement and what follows it. -/
theorem run_sql_bind (s : Sql) (f : s.Rows → Call β) :
    (sql s >>= f).run = .call (.sql s) fun r =>
      match r with
      | .ok a => (f a).run
      | .error e => .ret (.error (.database e)) := by
  rw [ExceptT.run_bind]
  unfold sql
  rw [ExceptT.run_mk, Prog.perform_bind, Prog.call_bind]
  refine congrArg _ (funext fun r => ?_)
  cases r <;> rfl

theorem call_congr {o : Op} {k k' : o.Resp → Action β} (h : ∀ r, k r = k' r) :
    Prog.call o k = Prog.call o k' := congrArg _ (funext h)

end

/-! ## `upsert_object` -/

section Upsert

variable (calendarId uid : String)

/-- The re-read at the end. -/
def upsertRead (isNew : Bool) : Action (Except AppError (CalendarObject × Bool)) :=
  .call (.sql (.selectObjectByUid calendarId uid)) fun r =>
    match r with
    | .ok (some obj) => .ret (.ok (obj, isNew))
    | .ok none => .ret (.error (.internal "Object upserted but not found"))
    | .error e => .ret (.error (.database e))

/-- From the ctag update on. -/
def upsertBump (isNew : Bool) : Action (Except AppError (CalendarObject × Bool)) :=
  .call .nowV7 fun b =>
    .call (.sql (.updateCtag (syncTokenOf b) (syncTokenOf b) calendarId)) fun r =>
      match r with
      | .ok _ => upsertRead calendarId uid isNew
      | .error e => .ret (.error (.database e))

/-- The kind of change an upsert logs. -/
def upsertChange (isNew : Bool) : ChangeType := if isNew then .created else .modified

/-- From the log insert on. -/
def upsertLog (token : String) (isNew : Bool) :
    Action (Except AppError (CalendarObject × Bool)) :=
  .call (.sql (.insertChange calendarId uid (upsertChange isNew) token)) fun r =>
    match r with
    | .ok _ => upsertBump calendarId uid isNew
    | .error e => .ret (.error (.database e))

/-- The statement that writes the row: an UPDATE when the row was found, else an INSERT. -/
def upsertRow (icalData : String) (fields : ObjectFields) (etag token : String) :
    (existing : Option CalendarObject) → Action (Except AppError (CalendarObject × Bool))
  | none => .call .nowV7 fun id =>
    .call (.sql (.insertObject
      { id := id, calendarId := calendarId, uid := uid, etag := etag, icalData := icalData,
        toObjectFields := fields })) fun r =>
      match r with
      | .ok _ => upsertLog calendarId uid token true
      | .error e => .ret (.error (.database e))
  | some _ =>
    .call (.sql (.updateObject etag icalData fields calendarId uid)) fun r =>
      match r with
      | .ok _ => upsertLog calendarId uid token false
      | .error e => .ret (.error (.database e))

theorem run_upsertRead (isNew : Bool) :
    ExceptT.run (do
      match ← getObjectByUid calendarId uid with
      | some obj => return (obj, isNew)
      | none => throw (.internal "Object upserted but not found")) =
    upsertRead calendarId uid isNew := by
  refine (run_sql_bind _ _).trans (call_congr fun r => ?_)
  rcases r with e | (_ | obj) <;> rfl

theorem run_upsertBump (isNew : Bool) :
    ExceptT.run (do
      let _ ← bumpCtag calendarId
      match ← getObjectByUid calendarId uid with
      | some obj => return (obj, isNew)
      | none => throw (.internal "Object upserted but not found")) =
    upsertBump calendarId uid isNew := by
  unfold bumpCtag newSyncToken
  simp only [bind_assoc, pure_bind]
  refine call_congr (o := .nowV7) fun b => ?_
  refine (run_sql_bind _ _).trans (call_congr fun r => ?_)
  rcases r with e | r
  · rfl
  · exact run_upsertRead calendarId uid isNew

theorem run_upsertLog (token : String) (isNew : Bool) :
    ExceptT.run (do
      logSyncChange calendarId uid (upsertChange isNew) token
      let _ ← bumpCtag calendarId
      match ← getObjectByUid calendarId uid with
      | some obj => return (obj, isNew)
      | none => throw (.internal "Object upserted but not found")) =
    upsertLog calendarId uid token isNew := by
  unfold logSyncChange
  simp only [bind_assoc, pure_bind]
  refine (run_sql_bind _ _).trans (call_congr fun r => ?_)
  rcases r with e | r
  · rfl
  · exact run_upsertBump calendarId uid isNew

/-- `upsert_object` as a tree of operations. -/
theorem upsertObject_run (icalData : String) (fields : ObjectFields) :
    (upsertObject calendarId uid icalData fields).run =
      .call (.sql (.selectObjectByUid calendarId uid)) fun r =>
        match r with
        | .ok existing => .call .newV4 fun v => .call .nowV7 fun t =>
            upsertRow calendarId uid icalData fields (etagOf v) (syncTokenOf t) existing
        | .error e => .ret (.error (.database e)) := by
  unfold upsertObject newEtag
  simp only [bind_assoc, pure_bind]
  refine (run_sql_bind _ _).trans (call_congr fun r => ?_)
  rcases r with e | (_ | o)
  · rfl
  · refine call_congr (o := .newV4) fun v => call_congr (o := .nowV7) fun t =>
      call_congr (o := .nowV7) fun id => ?_
    refine (run_sql_bind _ _).trans (call_congr fun r => ?_)
    rcases r with e | r
    · rfl
    · exact run_upsertLog calendarId uid (syncTokenOf t) true
  · refine call_congr (o := .newV4) fun v => call_congr (o := .nowV7) fun t => ?_
    refine (run_sql_bind _ _).trans (call_congr fun r => ?_)
    rcases r with e | r
    · rfl
    · exact run_upsertLog calendarId uid (syncTokenOf t) false

end Upsert

/-! ## `delete_object` -/

section Delete

variable (calendarId uid : String)

/-- From the ctag update on. -/
def deleteBump : Action (Except AppError Unit) :=
  .call .nowV7 fun b =>
    .call (.sql (.updateCtag (syncTokenOf b) (syncTokenOf b) calendarId)) fun r =>
      match r with
      | .ok _ => .ret (.ok ())
      | .error e => .ret (.error (.database e))

/-- From the log insert on. -/
def deleteLog (token : String) : Action (Except AppError Unit) :=
  .call (.sql (.insertChange calendarId uid .deleted token)) fun r =>
    match r with
    | .ok _ => deleteBump calendarId
    | .error e => .ret (.error (.database e))

/-- The error of a delete that removed nothing. -/
def objectMissing : AppError := .notFound ("Object with UID '" ++ uid ++ "' not found in calendar")

theorem run_deleteLog (token : String) :
    ExceptT.run (do
      logSyncChange calendarId uid .deleted token
      let _ ← bumpCtag calendarId) = deleteLog calendarId uid token := by
  unfold logSyncChange bumpCtag newSyncToken
  simp only [bind_assoc, pure_bind]
  refine (run_sql_bind _ _).trans (call_congr fun r => ?_)
  rcases r with e | r
  · rfl
  · refine call_congr (o := .nowV7) fun b => ?_
    refine (run_sql_bind _ _).trans (call_congr fun r => ?_)
    rcases r with e | r <;> rfl

/-- `delete_object` as a tree of operations. -/
theorem deleteObject_run :
    (deleteObject calendarId uid).run =
      .call (.sql (.deleteObject calendarId uid)) fun r =>
        match r with
        | .ok rows =>
          if rows = 0 then .ret (.error (objectMissing uid))
          else .call .nowV7 fun t => deleteLog calendarId uid (syncTokenOf t)
        | .error e => .ret (.error (.database e)) := by
  unfold deleteObject
  refine (run_sql_bind _ _).trans (call_congr fun r => ?_)
  rcases r with e | rows
  · rfl
  · by_cases h : rows = 0
    · simp only [h, if_true]
      rfl
    · simp only [h, if_false]
      exact call_congr (o := .nowV7) fun t => run_deleteLog calendarId uid (syncTokenOf t)

end Delete

/-! ## Calls -/

/-- A call that writes an object. -/
inductive ObjectWrite where
  | upsert (calendarId uid icalData : String) (fields : ObjectFields)
  | delete (calendarId uid : String)
  deriving DecidableEq, Repr

namespace ObjectWrite

def calendarId : ObjectWrite → String
  | upsert calendarId _ _ _ => calendarId
  | delete calendarId _ => calendarId

def uid : ObjectWrite → String
  | upsert _ uid _ _ => uid
  | delete _ uid => uid

/-- The call, without its result. -/
def call : ObjectWrite → Call Unit
  | upsert calendarId uid icalData fields => do
    let _ ← upsertObject calendarId uid icalData fields
  | delete calendarId uid => deleteObject calendarId uid

/-- The row an upsert inserts. -/
def newRow (env : Env) (w : World) (calendarId uid icalData : String) (fields : ObjectFields) :
    CalendarObject :=
  { id := env.uuid (w.drawn + 2), calendarId := calendarId, uid := uid,
    etag := etagOf (env.uuid w.drawn), icalData := icalData, toObjectFields := fields }

/-- Forget the result of a call. -/
def done {α : Type} : Except AppError α → Except AppError Unit
  | .ok _ => .ok ()
  | .error e => .error e

theorem run_upsert (calendarId uid icalData : String) (fields : ObjectFields) :
    (upsert calendarId uid icalData fields).call.run =
      (upsertObject calendarId uid icalData fields).run >>= fun r => .ret (done r) := by
  unfold call
  rw [ExceptT.run_bind]
  refine congrArg _ (funext fun r => ?_)
  cases r <;> rfl

end ObjectWrite

end CaldavMcp
