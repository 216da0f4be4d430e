/-
  Object writes that run alone.

  `ObjectWrite.Step` is what a successful write does to the world, in three cases: a row is
  created, modified or deleted, and each time the change is logged and the ctag bumped
  (`World.logged`). `ObjectWrite.exec_cases` says that this is all: a write takes such a step,
  or returns an error and leaves the tables as they are.
-/
import CaldavMcp.Db.Writes
import CaldavMcp.Db.Effects

namespace CaldavMcp

open Program

/-- A change is logged, and the calendar gets a new token. -/
def World.logged (env : Env) (w : World) (calendarId uid : String) (type : ChangeType)
    (token : String) : World :=
  ((w.after (.insertChange calendarId uid type token)).draw 1).after
    (.updateCtag (syncTokenOf (env.uuid w.drawn)) (syncTokenOf (env.uuid w.drawn)) calendarId)

namespace ObjectWrite

/-- A successful write. -/
inductive Step (env : Env) (w : World) : ObjectWrite → World → Prop
  | created (calendarId uid icalData : String) (fields : ObjectFields)
    (ha : w.db.Accepts (newRow env w calendarId uid icalData fields)) :
    Step env w (.upsert calendarId uid icalData fields)
      (((w.draw 3).after (.insertObject (newRow env w calendarId uid icalData fields))).logged env
        calendarId uid .created (syncTokenOf (env.uuid (w.drawn + 1))))
  | modified (calendarId uid icalData : String) (fields : ObjectFields) (o : CalendarObject)
    (ho : w.db.objectByUid calendarId uid = some o) :
    Step env w (.upsert calendarId uid icalData fields)
      (((w.draw 2).after
        (.updateObject (etagOf (env.uuid w.drawn)) icalData fields calendarId uid)).logged env
        calendarId uid .modified (syncTokenOf (env.uuid (w.drawn + 1))))
  | deleted (calendarId uid : String) (o : CalendarObject)
    (ho : w.db.objectByUid calendarId uid = some o) :
    Step env w (.delete calendarId uid)
      (((w.after (.deleteObject calendarId uid)).draw 1).logged env calendarId uid .deleted
        (syncTokenOf (env.uuid w.drawn)))

end ObjectWrite

section

variable {env : Env} {w : World} {calendarId uid icalData : String} {fields : ObjectFields}

/-- From the log insert on. -/
theorem upsertLog_exec {o : CalendarObject} (ho : w.db.objectByUid calendarId uid = some o)
    (token : String) (isNew : Bool) :
    (upsertLog calendarId uid token isNew).run (exec env) w =
      (.ok (o, isNew), w.logged env calendarId uid (upsertChange isNew) token) := by
  have hc := w.db.ok.calendar_of_object ho
  have ha : w.answer (.insertChange calendarId uid (upsertChange isNew) token) = .ok 1 :=
    Tables.answer_insertChange hc
  have ho' : (w.logged env calendarId uid (upsertChange isNew) token).answer
      (.selectObjectByUid calendarId uid) = .ok (some o) := by
    refine congrArg _ (Eq.trans ?_ ho)
    show (w.after _).db.objectByUid calendarId uid = _
    rw [World.after_tables, Tables.after_insertChange hc]
    rfl
  unfold upsertLog
  rw [run_call, exec_sql, ha]
  show (upsertRead calendarId uid isNew).run (exec env)
    (w.logged env calendarId uid (upsertChange isNew) token) = _
  unfold upsertRead
  rw [run_call, exec_sql, ho']
  rfl

/-- Behind the existence SELECT. -/
theorem upsertObject_exec :
    (upsertObject calendarId uid icalData fields).run.run (exec env) w =
      (upsertRow calendarId uid icalData fields (etagOf (env.uuid w.drawn))
        (syncTokenOf (env.uuid (w.drawn + 1))) (w.db.objectByUid calendarId uid)).run
        (exec env) (w.draw 2) := by
  rw [upsertObject_run, run_call]
  rfl

theorem upsert_exec_new (ho : w.db.objectByUid calendarId uid = none) :
    (upsertObject calendarId uid icalData fields).run.run (exec env) w =
      match (w.draw 3).answer
        (.insertObject (ObjectWrite.newRow env w calendarId uid icalData fields)) with
      | .ok _ =>
        (upsertLog calendarId uid (syncTokenOf (env.uuid (w.drawn + 1))) true).run (exec env)
          ((w.draw 3).after
            (.insertObject (ObjectWrite.newRow env w calendarId uid icalData fields)))
      | .error e => (.error (.database e), (w.draw 3).after
          (.insertObject (ObjectWrite.newRow env w calendarId uid icalData fields))) := by
  rw [upsertObject_exec, ho]
  unfold upsertRow
  rw [run_call, run_call]
  have hrow : ObjectWrite.newRow env w calendarId uid icalData fields =
    { id := env.uuid (w.draw 2).drawn, calendarId := calendarId, uid := uid,
      etag := etagOf (env.uuid w.drawn), icalData := icalData, toObjectFields := fields } := rfl
  rw [show (exec env .nowV7 (w.draw 2)) = (env.uuid (w.draw 2).drawn, w.draw 3) from rfl]
  dsimp only
  rw [← hrow, exec_sql]
  dsimp only
  cases (w.draw 3).answer
    (.insertObject (ObjectWrite.newRow env w calendarId uid icalData fields)) <;> rfl

theorem upsert_exec_accepted
    (ha : w.db.Accepts (ObjectWrite.newRow env w calendarId uid icalData fields)) :
    (upsertObject calendarId uid icalData fields).run.run (exec env) w =
      (.ok (ObjectWrite.newRow env w calendarId uid icalData fields, true),
        ((w.draw 3).after
          (.insertObject (ObjectWrite.newRow env w calendarId uid icalData fields))).logged env
          calendarId uid .created (syncTokenOf (env.uuid (w.drawn + 1)))) := by
  have hans : (w.draw 3).answer (.insertObject (ObjectWrite.newRow env w calendarId uid icalData
      fields)) = .ok 1 := Tables.answer_insertObject_accepted ha
  have hrow : ((w.draw 3).after (.insertObject (ObjectWrite.newRow env w calendarId uid icalData
      fields))).db.objectByUid calendarId uid =
      some (ObjectWrite.newRow env w calendarId uid icalData fields) :=
    (Tables.objectByUid_insertObject ha calendarId uid).trans (if_pos ⟨rfl, rfl⟩)
  have hkey : w.db.objectByUid calendarId uid = none := ha.key
  rw [upsert_exec_new hkey, hans]
  exact upsertLog_exec hrow _ true

theorem upsert_exec_refused (ho : w.db.objectByUid calendarId uid = none)
    (ha : ¬ w.db.Accepts (ObjectWrite.newRow env w calendarId uid icalData fields)) :
    ∃ e, (upsertObject calendarId uid icalData fields).run.run (exec env) w =
      (.error e, w.draw 3) := by
  obtain ⟨e, he⟩ := Tables.answer_insertObject_refused ha
  have hans : (w.draw 3).answer (.insertObject (ObjectWrite.newRow env w calendarId uid icalData
      fields)) = .error e := he
  have hsame : (w.draw 3).after (.insertObject (ObjectWrite.newRow env w calendarId uid icalData
      fields)) = w.draw 3 := by
    have hdb : ((w.draw 3).after (.insertObject (ObjectWrite.newRow env w calendarId uid icalData
        fields))).db = (w.draw 3).db := Db.ext_tables (Tables.after_insertObject_refused ha)
    exact congrArg (World.mk · _) hdb
  refine ⟨.database e, ?_⟩
  rw [upsert_exec_new ho, hans, hsame]

theorem upsert_exec_old {o : CalendarObject} (ho : w.db.objectByUid calendarId uid = some o) :
    (upsertObject calendarId uid icalData fields).run.run (exec env) w =
      (.ok (Tables.setObject (etagOf (env.uuid w.drawn)) icalData fields o, false),
        ((w.draw 2).after
          (.updateObject (etagOf (env.uuid w.drawn)) icalData fields calendarId uid)).logged env
          calendarId uid .modified (syncTokenOf (env.uuid (w.drawn + 1)))) := by
  have hrow : ((w.draw 2).after (.updateObject (etagOf (env.uuid w.drawn)) icalData fields
      calendarId uid)).db.objectByUid calendarId uid =
      some (Tables.setObject (etagOf (env.uuid w.drawn)) icalData fields o) := by
    refine (Tables.objectByUid_updateObject _ _ _ calendarId uid calendarId uid).trans ?_
    rw [if_pos ⟨rfl, rfl⟩]
    exact congrArg _ ho
  rw [upsertObject_exec, ho]
  exact upsertLog_exec hrow _ false

theorem delete_exec_missing (ho : w.db.objectByUid calendarId uid = none) :
    (deleteObject calendarId uid).run.run (exec env) w =
      (.error (objectMissing uid), w.after (.deleteObject calendarId uid)) := by
  have ha : w.answer (.deleteObject calendarId uid) = .ok 0 :=
    congrArg _ (Tables.rowsOf_eq_zero.mpr ho)
  rw [deleteObject_run, run_call, exec_sql, ha]
  rfl

theorem delete_exec_found {o : CalendarObject} (ho : w.db.objectByUid calendarId uid = some o) :
    (deleteObject calendarId uid).run.run (exec env) w =
      (.ok (), ((w.after (.deleteObject calendarId uid)).draw 1).logged env calendarId uid .deleted
        (syncTokenOf (env.uuid w.drawn))) := by
  have hrows : w.db.rowsOf calendarId uid ≠ 0 := by
    rw [Ne, Tables.rowsOf_eq_zero, ho]
    simp
  have ha : w.answer (.deleteObject calendarId uid) = .ok (w.db.rowsOf calendarId uid) := rfl
  have hc : calendarId ∈ w.db.calendarIds := w.db.ok.calendar_of_object ho
  have hlog : ((w.after (.deleteObject calendarId uid)).draw 1).answer
      (.insertChange calendarId uid .deleted (syncTokenOf (env.uuid w.drawn))) = .ok 1 :=
    Tables.answer_insertChange hc
  rw [deleteObject_run, run_call, exec_sql, ha]
  dsimp only
  rw [if_neg hrows, run_call]
  show (deleteLog calendarId uid (syncTokenOf (env.uuid w.drawn))).run (exec env)
    ((w.after (.deleteObject calendarId uid)).draw 1) = _
  unfold deleteLog
  rw [run_call, exec_sql, hlog]
  rfl

end

namespace ObjectWrite

variable {env : Env} {w : World}

/-- All that a write can do, alone: it succeeds with a step, or fails and changes no table. -/
theorem exec_cases (x : ObjectWrite) (env : Env) (w : World) :
    ((x.call.exec env w).1 = .ok () ∧ x.Step env w (x.call.exec env w).2) ∨
    ((∃ e, (x.call.exec env w).1 = .error e) ∧
      (x.call.exec env w).2.db.toTables = w.db.toTables ∧
      w.drawn ≤ (x.call.exec env w).2.drawn) := by
  cases x with
  | upsert calendarId uid icalData fields =>
    have hrun : ∀ r w', (upsertObject calendarId uid icalData fields).run.run (exec env) w =
        (r, w') → (upsert calendarId uid icalData fields).call.exec env w = (done r, w') := by
      intro r w' h
      unfold Call.exec
      rw [run_upsert, run_bind, h]
      rfl
    cases ho : w.db.objectByUid calendarId uid with
    | none =>
      by_cases ha : w.db.Accepts (newRow env w calendarId uid icalData fields)
      · rw [hrun _ _ (upsert_exec_accepted ha)]
        exact Or.inl ⟨rfl, Step.created _ _ _ _ ha⟩
      · obtain ⟨e, he⟩ := upsert_exec_refused ho ha
        rw [hrun _ _ he]
        exact Or.inr ⟨⟨e, rfl⟩, rfl, Nat.le_add_right _ _⟩
    | some o =>
      rw [hrun _ _ (upsert_exec_old ho)]
      exact Or.inl ⟨rfl, Step.modified _ _ _ _ o ho⟩
  | delete calendarId uid =>
    cases ho : w.db.objectByUid calendarId uid with
    | none =>
      have hrun : (delete calendarId uid).call.exec env w = _ := delete_exec_missing ho
      rw [hrun]
      exact Or.inr ⟨⟨_, rfl⟩, Tables.after_deleteObject_none ho, le_refl _⟩
    | some o =>
      have hrun : (delete calendarId uid).call.exec env w = _ := delete_exec_found ho
      rw [hrun]
      exact Or.inl ⟨rfl, Step.deleted _ _ o ho⟩

end ObjectWrite

/-! ## The effect of a step -/

/-- A calendar row with a new token. -/
def Calendar.withToken (token : String) (r : Calendar) : Calendar :=
  { r with ctag := token, syncToken := token }

theorem World.logged_tables (env : Env) {w : World} {calendarId : String}
    (hc : calendarId ∈ w.db.calendarIds) (uid : String) (type : ChangeType) (token : String) :
    (w.logged env calendarId uid type token).db.toTables =
      { w.db.toTables with
        calendars := w.db.calendars.map fun r =>
          if r.id = calendarId then r.withToken (syncTokenOf (env.uuid w.drawn)) else r
        syncChanges := w.db.syncChanges ++ [⟨w.db.changeSeq + 1, calendarId, uid, type, token⟩]
        changeSeq := w.db.changeSeq + 1 } := by
  have ht : (w.logged env calendarId uid type token).db.toTables =
      (w.db.toTables.after (.insertChange calendarId uid type token)).after (.updateCtag
        (syncTokenOf (env.uuid w.drawn)) (syncTokenOf (env.uuid w.drawn)) calendarId) := rfl
  rw [ht, Tables.after_insertChange hc]
  rfl

/-- What a step does to the row of its object, the log and the calendar. `m` and `n` are the
    draws that become the token in the log and the token of the calendar. -/
structure ObjectWrite.Effect (env : Env) (w w' : World) (calendarId uid : String)
    (type : ChangeType) (m n : Nat) : Prop where
  calendar : calendarId ∈ w.db.calendarIds
  logDraw : w.drawn ≤ m ∧ m < w'.drawn
  rowDraw : w.drawn ≤ n ∧ n < w'.drawn
  apart : m ≠ n
  log : w'.db.syncChanges = w.db.syncChanges ++
    [⟨w.db.changeSeq + 1, calendarId, uid, type, syncTokenOf (env.uuid m)⟩]
  /-- the logged change is true -/
  holds : type ≠ .deleted ↔ (w'.db.objectByUid calendarId uid).isSome
  calendars : w'.db.calendars = w.db.calendars.map fun r =>
    if r.id = calendarId then r.withToken (syncTokenOf (env.uuid n)) else r
  others : ∀ calendarId' uid', ¬ (calendarId' = calendarId ∧ uid' = uid) →
    w'.db.objectByUid calendarId' uid' = w.db.objectByUid calendarId' uid'
  /-- a row is an old one, or the object's own with a new etag -/
  rows : ∀ o ∈ w'.db.calendarObjects, o ∈ w.db.calendarObjects ∨
    (o.calendarId = calendarId ∧ o.uid = uid ∧ (∃ k < w'.drawn, o.etag = etagOf (env.uuid k)) ∧
      ((∃ o' ∈ w.db.calendarObjects, o.id = o'.id) ∨ ∃ k < w'.drawn, o.id = env.uuid k))

/-- The log and the calendar, common to the three kinds of step. `w₁` is the world after the
    row statement. -/
theorem ObjectWrite.Effect.of_logged {env : Env} {w w₁ : World} {calendarId uid : String}
    {type : ChangeType} {m : Nat} (hc : calendarId ∈ w.db.calendarIds)
    (hm : w.drawn ≤ m) (hm₁ : m < w₁.drawn) (hcal : w₁.db.calendars = w.db.calendars)
    (hlog : w₁.db.syncChanges = w.db.syncChanges) (hseq : w₁.db.changeSeq = w.db.changeSeq)
    (htype : type ≠ .deleted ↔ (w₁.db.objectByUid calendarId uid).isSome)
    (hothers : ∀ calendarId' uid', ¬ (calendarId' = calendarId ∧ uid' = uid) →
      w₁.db.objectByUid calendarId' uid' = w.db.objectByUid calendarId' uid')
    (hrows : ∀ o ∈ w₁.db.calendarObjects, o ∈ w.db.calendarObjects ∨
      (o.calendarId = calendarId ∧ o.uid = uid ∧ (∃ k < w₁.drawn, o.etag = etagOf (env.uuid k)) ∧
        ((∃ o' ∈ w.db.calendarObjects, o.id = o'.id) ∨ ∃ k < w₁.drawn, o.id = env.uuid k))) :
    Effect env w (w₁.logged env calendarId uid type (syncTokenOf (env.uuid m))) calendarId
      uid type m w₁.drawn := by
  have hc₁ : calendarId ∈ w₁.db.calendarIds := by unfold Tables.calendarIds; rwa [hcal]
  have ht := World.logged_tables env hc₁ uid type (syncTokenOf (env.uuid m))
  have hd : (w₁.logged env calendarId uid type (syncTokenOf (env.uuid m))).drawn =
    w₁.drawn + 1 := rfl
  refine ⟨hc, ⟨hm, by omega⟩, ⟨by omega, by omega⟩, by omega, ?_, ?_, ?_, ?_, ?_⟩
  · rw [ht, ← hlog, ← hseq]
  · rw [ht]; exact htype
  · rw [ht, ← hcal]
  · rw [ht]; exact hothers
  · rw [ht]
    intro o ho
    rcases hrows o ho with h | ⟨h1, h2, ⟨k, hk, he⟩, hid⟩
    · exact Or.inl h
    · refine Or.inr ⟨h1, h2, ⟨k, by omega, he⟩, ?_⟩
      rcases hid with h | ⟨k', hk', h⟩
      · exact Or.inl h
      · exact Or.inr ⟨k', by omega, h⟩

/-- A step has that effect. -/
theorem ObjectWrite.Step.effect {env : Env} {w w' : World} {x : ObjectWrite}
    (h : x.Step env w w') : ∃ type m n, Effect env w w' x.calendarId x.uid type m n := by
  cases h with
  | created calendarId uid icalData fields ha =>
    have hrow := Tables.objectByUid_insertObject ha
    have hafter := Tables.after_insertObject_accepted ha
    refine ⟨_, _, _, Effect.of_logged ha.calendar (Nat.le_add_right _ _) (by simp) ?_ ?_ ?_ ?_ ?_ ?_⟩
    · exact Tables.calendars_insertObject _
    · rw [World.after_tables, World.draw_db, hafter]
    · rw [World.after_tables, World.draw_db, hafter]
    · refine ⟨fun _ => ?_, fun _ => nofun⟩
      rw [World.after_tables, World.draw_db, hrow, if_pos ⟨rfl, rfl⟩]
      rfl
    · intro c' u' hne
      exact (hrow c' u').trans (if_neg hne)
    · intro o ho
      rw [World.after_tables, World.draw_db, hafter] at ho
      rcases List.mem_append.mp ho with ho | ho
      · exact Or.inl ho
      · rw [List.mem_singleton.mp ho]
        exact Or.inr ⟨rfl, rfl, ⟨w.drawn, by simp, rfl⟩, Or.inr ⟨w.drawn + 2, by simp, rfl⟩⟩
  | modified calendarId uid icalData fields o ho =>
    have hrow := Tables.objectByUid_updateObject (t := w.db.toTables) (etagOf (env.uuid w.drawn))
      icalData fields calendarId uid
    refine ⟨_, _, _, Effect.of_logged (w.db.ok.calendar_of_object ho) (Nat.le_add_right _ _)
      (by simp) rfl rfl rfl ?_ ?_ ?_⟩
    · refine ⟨fun _ => ?_, fun _ => nofun⟩
      rw [World.after_tables, World.draw_db, hrow, if_pos ⟨rfl, rfl⟩, ho]
      rfl
    · intro c' u' hne
      exact (hrow c' u').trans (if_neg hne)
    · intro o' ho'
      obtain ⟨o₀, ho₀, rfl⟩ := List.mem_map.mp ho'
      split
      · rename_i hk
        exact Or.inr ⟨hk.1, hk.2, ⟨w.drawn, by simp, rfl⟩, Or.inl ⟨o₀, ho₀, rfl⟩⟩
      · exact Or.inl ho₀
  | deleted calendarId uid o ho =>
    have hrow := Tables.objectByUid_deleteObject (t := w.db.toTables) calendarId uid
    refine ⟨_, _, _, Effect.of_logged (w.db.ok.calendar_of_object ho) (le_refl _) (by simp) rfl
      rfl rfl ?_ ?_ ?_⟩
    · have hnone : ((w.after (.deleteObject calendarId uid)).draw 1).db.objectByUid calendarId uid =
          none := (hrow calendarId uid).trans (if_pos ⟨rfl, rfl⟩)
      rw [hnone]
      simp
    · intro c' u' hne
      exact (hrow c' u').trans (if_neg hne)
    · intro o' ho'
      exact Or.inl (List.mem_filter.mp ho').1

/-! ## What an upsert answers -/

section

variable {env : Env} {w w' : World} {calendarId uid icalData : String} {fields : ObjectFields}

theorem World.logged_objectByUid (env : Env) (w : World) (hc : calendarId ∈ w.db.calendarIds)
    (uid : String) (type : ChangeType) (token calendarId' uid' : String) :
    (w.logged env calendarId uid type token).db.objectByUid calendarId' uid' =
      w.db.objectByUid calendarId' uid' := by
  rw [World.logged_tables env hc]
  rfl

/-- An upsert that succeeds answers the row that is then stored. -/
theorem upsert_stored {o : CalendarObject} {isNew : Bool}
    (h : (upsertObject calendarId uid icalData fields).run.run (exec env) w =
      (.ok (o, isNew), w')) :
    ObjectWrite.Step env w (.upsert calendarId uid icalData fields) w' ∧
      w'.db.objectByUid calendarId uid = some o ∧ o.etag = etagOf (env.uuid w.drawn) ∧
      o.icalData = icalData ∧ o.toObjectFields = fields := by
  cases ho : w.db.objectByUid calendarId uid with
  | none =>
    by_cases ha : w.db.Accepts (ObjectWrite.newRow env w calendarId uid icalData fields)
    · rw [upsert_exec_accepted ha] at h
      cases h
      refine ⟨.created _ _ _ _ ha, ?_, rfl, rfl, rfl⟩
      have hrow : ((w.draw 3).after (.insertObject (ObjectWrite.newRow env w calendarId uid icalData
          fields))).db.objectByUid calendarId uid =
          some (ObjectWrite.newRow env w calendarId uid icalData fields) :=
        (Tables.objectByUid_insertObject ha calendarId uid).trans (if_pos ⟨rfl, rfl⟩)
      rw [World.logged_objectByUid _ _ (Db.ok _ |>.calendar_of_object hrow), hrow]
    · obtain ⟨e, he⟩ := upsert_exec_refused ho ha
      rw [he] at h
      cases h
  | some o' =>
    rw [upsert_exec_old ho] at h
    cases h
    refine ⟨.modified _ _ _ _ o' ho, ?_, rfl, rfl, rfl⟩
    have hrow : ((w.draw 2).after (.updateObject (etagOf (env.uuid w.drawn)) icalData fields
        calendarId uid)).db.objectByUid calendarId uid =
        some (Tables.setObject (etagOf (env.uuid w.drawn)) icalData fields o') := by
      refine (Tables.objectByUid_updateObject _ _ _ calendarId uid calendarId uid).trans ?_
      rw [if_pos ⟨rfl, rfl⟩]
      exact congrArg _ ho
    rw [World.logged_objectByUid _ _ (Db.ok _ |>.calendar_of_object hrow), hrow]

end

end CaldavMcp
