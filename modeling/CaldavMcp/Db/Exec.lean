/-
  Statements on a database that satisfies the schema, and the programs that send them.

  `Db` carries `Tables.Ok`, and `Db.exec` is `Tables.exec` with the proof that the constraints
  survive (`Tables.exec_ok`): a failed statement changes nothing, a successful one changes what
  `Tables.exec` says. `Op` adds the draws that are not database statements (`Uuid::new_v4`,
  `Uuid::now_v7`, `Utc::now`, the salt of a password hash). A function of `src/db/` is a
  `Call`: a program over `Op` that ends with a value or an `AppError`, as `AppResult` does.
-/
import CaldavMcp.Db.Schema

namespace CaldavMcp

open Program

namespace Tables

variable {t : Tables}

theorem objectByUid_isSome {calendarId uid : String} :
    (t.objectByUid calendarId uid).isSome ↔
      (calendarId, uid) ∈ t.calendarObjects.map fun o => (o.calendarId, o.uid) := by
  simp [objectByUid, List.find?_isSome, List.mem_map]

theorem shareOf_isSome {calendarId userId : String} :
    (t.shareOf calendarId userId).isSome ↔
      (calendarId, userId) ∈ t.calendarShares.map fun s => (s.calendarId, s.userId) := by
  simp [shareOf, List.find?_isSome, List.mem_map]

/-- Every statement keeps the constraints. -/
theorem exec_ok (h : t.Ok) (s : Sql) {r : s.Rows} {t' : Tables}
    (he : t.exec s = .ok (r, t')) : t'.Ok := by
  cases s with
  | insertUser u =>
    simp only [exec] at he
    split at he
    · cases he
    · split at he
      · cases he
      · rename_i h1 h2
        cases he
        exact h.addUser (by rwa [any_eq_iff] at h1) (by rwa [any_eq_iff] at h2)
  | updatePassword hash username =>
    cases he
    exact h.updateUsers (fun u => by split <;> rfl) (fun u => by split <;> rfl)
  | insertCalendar c =>
    simp only [exec] at he
    split at he
    · cases he
    · split at he
      · rename_i h1 h2
        cases he
        exact h.addCalendar (by rwa [any_eq_iff] at h1) (any_eq_iff.mp h2)
      · cases he
  | updateCalendar name description color timezone id =>
    cases he
    exact h.updateCalendars (fun c => by split <;> rfl) (fun c => by split <;> rfl)
  | deleteCalendar id => cases he; exact h.dropCalendar id
  | updateCtag ctag syncToken id =>
    cases he
    exact h.updateCalendars (fun c => by split <;> rfl) (fun c => by split <;> rfl)
  | insertObject o =>
    simp only [exec] at he
    split at he
    · cases he
    · split at he
      · cases he
      · split at he
        · rename_i h1 h2 h3
          cases he
          exact h.addObject (by rwa [any_eq_iff] at h1) (by rwa [objectByUid_isSome] at h2)
            (any_eq_iff.mp h3)
        · cases he
  | updateObject etag icalData fields calendarId uid =>
    cases he
    exact h.updateObjects (fun o => by split <;> rfl) (fun o => by split <;> rfl)
      (fun o => by split <;> rfl)
  | deleteObject calendarId uid => cases he; exact h.dropObjects _
  | insertChange calendarId objectUid changeType syncToken =>
    simp only [exec] at he
    split at he
    · rename_i h1
      cases he
      exact h.addChange (any_eq_iff.mp h1)
    · cases he
  | upsertShare s =>
    simp only [exec] at he
    split at he
    · cases he
      exact h.updateShares (fun o => by split <;> rfl) (fun o => by split <;> rfl)
        (fun o => by split <;> rfl)
    · split at he
      · cases he
      · split at he
        · rename_i h1 h2 h3
          cases he
          exact h.addShare (by rwa [any_eq_iff] at h2) (by rwa [shareOf_isSome] at h1)
            (any_eq_iff.mp h3.1) (any_eq_iff.mp h3.2)
        · cases he
  | deleteShare calendarId userId => cases he; exact h.dropShares _
  | _ => cases he; exact h

/-- The tables before the first statement. -/
def empty : Tables := ⟨[], [], [], [], [], 0⟩

theorem empty_ok : empty.Ok := by constructor <;> simp [empty]

/-- A statement's answer. -/
def answer (t : Tables) (s : Sql) : Except DbError s.Rows :=
  match t.exec s with
  | .ok (r, _) => .ok r
  | .error e => .error e

/-- The tables after a statement. -/
def after (t : Tables) (s : Sql) : Tables :=
  match t.exec s with
  | .ok (_, t') => t'
  | .error _ => t

theorem of_exec_ok {s : Sql} {r : s.Rows} {t' : Tables} (he : t.exec s = .ok (r, t')) :
    t.answer s = .ok r ∧ t.after s = t' := by
  unfold answer after
  rw [he]
  exact ⟨rfl, rfl⟩

theorem of_exec_error {s : Sql} {e : DbError} (he : t.exec s = .error e) :
    t.answer s = .error e ∧ t.after s = t := by
  unfold answer after
  rw [he]
  exact ⟨rfl, rfl⟩

theorem after_ok (h : t.Ok) (s : Sql) : (t.after s).Ok := by
  unfold after
  split
  · rename_i he; exact exec_ok h s he
  · exact h

end Tables

/-- A database: tables that satisfy the schema. -/
structure Db extends Tables where
  ok : toTables.Ok

namespace Db

/-- The database after the migration. -/
def init : Db := ⟨Tables.empty, Tables.empty_ok⟩

/-- A statement on a database. -/
def exec (d : Db) (s : Sql) : Except DbError s.Rows × Db :=
  (d.toTables.answer s, ⟨d.toTables.after s, Tables.after_ok d.ok s⟩)

theorem ext_tables {d d' : Db} (h : d.toTables = d'.toTables) : d = d' := by
  cases d; cases d'; cases h; rfl

end Db

/-! ## Operations and worlds -/

/-- What a function of the server does besides computing. -/
inductive Op where
  | sql (s : Sql)
  | newV4
  | nowV7
  | salt
  | utcNow
  deriving DecidableEq, Repr

@[reducible] def Op.Resp : Op → Type
  | .sql s => Except DbError s.Rows
  | .newV4 | .nowV7 | .salt | .utcNow => String

/-- The characters of a Uuid's text form. -/
def isUuidChar (c : Char) : Bool :=
  c = '-' || ('0' ≤ c && c ≤ '9') || ('a' ≤ c && c ≤ 'f')

/-- The process's sources of Uuids, salts and the time: the n-th value drawn. -/
structure Env where
  uuid : Nat → String
  uuid_chars : ∀ n, (uuid n).toList.all isUuidChar = true
  salt : Nat → String
  now : Nat → String

/-- The database and the number of values drawn so far. -/
structure World where
  db : Db
  drawn : Nat

/-- What each operation does. -/
def exec (env : Env) : Handler Op Op.Resp World
  | .sql s, w => ((w.db.exec s).1, { w with db := (w.db.exec s).2 })
  | .newV4, w => (env.uuid w.drawn, { w with drawn := w.drawn + 1 })
  | .nowV7, w => (env.uuid w.drawn, { w with drawn := w.drawn + 1 })
  | .salt, w => (env.salt w.drawn, { w with drawn := w.drawn + 1 })
  | .utcNow, w => (env.now w.drawn, { w with drawn := w.drawn + 1 })

/-- A program of the server. -/
abbrev Action (α : Type) := Prog Op Op.Resp α

/-- A program of the server that may end with an application error. -/
abbrev Call (α : Type) := ExceptT AppError (Prog Op Op.Resp) α

/-- A statement, with its failure turned into `AppError::Database`. -/
def sql (s : Sql) : Call s.Rows := ExceptT.mk do
  match ← Prog.perform (Op.sql s) with
  | .ok r => return .ok r
  | .error e => return .error (.database e)

def newV4 : Call String := ExceptT.lift (Prog.perform Op.newV4)

def nowV7 : Call String := ExceptT.lift (Prog.perform Op.nowV7)

/-- The answer of a failed statement, for `faulty`: only SQL statements fail. -/
def sqlFault (message : String) : (o : Op) → Option o.Resp
  | .sql _ => some (.error (.failed message))
  | .newV4 | .nowV7 | .salt | .utcNow => none

/-- A statement's answer in a world. -/
def World.answer (w : World) (s : Sql) : Except DbError s.Rows := w.db.toTables.answer s

/-- The world after a statement. -/
def World.after (w : World) (s : Sql) : World := { w with db := (w.db.exec s).2 }

@[simp] theorem World.after_drawn (w : World) (s : Sql) : (w.after s).drawn = w.drawn := rfl

@[simp] theorem World.after_tables (w : World) (s : Sql) :
    (w.after s).db.toTables = w.db.toTables.after s := rfl

theorem exec_sql (env : Env) (s : Sql) (w : World) :
    exec env (.sql s) w = (w.answer s, w.after s) := rfl

/-- A program never takes back a draw. -/
theorem drawn_le_run {α : Type} (env : Env) (p : Action α) (w : World) :
    w.drawn ≤ (p.run (CaldavMcp.exec env) w).2.drawn := by
  induction p generalizing w with
  | ret a => exact le_refl _
  | call o k ih =>
    rw [run_call]
    refine le_trans ?_ (ih _ _)
    cases o with
    | sql s => exact le_refl _
    | newV4 | nowV7 | salt | utcNow => exact Nat.le_succ _

/-! ## Running a call -/

/-- Run a call alone. -/
def Call.exec {α : Type} (env : Env) (c : Call α) (w : World) : Except AppError α × World :=
  c.run.run (CaldavMcp.exec env) w

/-- The outcome of a statement, as a call sees it. -/
theorem Call.exec_sql (env : Env) (s : Sql) (w : World) :
    (sql s).exec env w =
      (match w.answer s with
        | .ok r => .ok r
        | .error e => .error (.database e), w.after s) := by
  unfold Call.exec sql
  simp only [ExceptT.run_mk, Prog.perform_bind, run_call]
  rw [CaldavMcp.exec_sql]
  dsimp only
  cases w.answer s <;> rfl

theorem only_sql {P : Op → Prop} {s : Sql} (h : P (.sql s)) : (sql s).run.Only P := by
  refine ⟨h, fun r => ?_⟩
  cases r <;> exact trivial

theorem only_nowV7 {P : Op → Prop} (h : P .nowV7) : nowV7.run.Only P := ⟨h, fun _ => trivial⟩

/-! ## A small database

  Alice owns the calendar `work`; bob has nothing. -/

/-- Uuids, salts and times that differ in length. -/
def countingEnv : Env where
  uuid n := String.ofList (List.replicate n 'a')
  uuid_chars n := by
    rw [String.toList_ofList, List.all_eq_true]
    intro c hc
    rw [List.eq_of_mem_replicate hc]
    rfl
  salt n := String.ofList (List.replicate n 's')
  now n := String.ofList (List.replicate n 't')

theorem countingEnv_uuid_injective : Function.Injective countingEnv.uuid := by
  intro m n h
  have h' := congrArg (fun s : String => s.toList.length) h
  simpa [countingEnv] using h'

def aliceTables : Tables where
  users := [⟨"alice-id", "alice", some "alice@example.com", "hash"⟩,
    ⟨"bob-id", "bob", none, "hash"⟩]
  calendars := [⟨"work", "alice-id", "Work", "", "#0E61B9", "UTC", "data:,sync-", "data:,sync-"⟩]
  calendarObjects := []
  calendarShares := []
  syncChanges := []
  changeSeq := 0

theorem aliceTables_ok : aliceTables.Ok := by constructor <;> decide

/-- The small database, after eight draws. -/
def aliceWorld : World := ⟨⟨aliceTables, aliceTables_ok⟩, 8⟩

end CaldavMcp
