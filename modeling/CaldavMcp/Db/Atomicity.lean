/-
  Failure atomicity of the object writes.

  Neither `upsert_object` nor `delete_object` opens a transaction. `failingAt n` runs a call
  with its SQL statement number `n` (from 0) failing and every other one doing what it does.
  An upsert sends five statements (SELECT, row write, log insert, ctag update, SELECT), a
  delete three (DELETE, log insert, ctag update).

  A failure behind the row write leaves the row changed: `ObjectWrite.Atomic`, that a call
  which returns an error has changed nothing, holds exactly where `ObjectWrite.Harmless` does,
  a condition on the statement number and the state before the call.
-/
import CaldavMcp.Db.Writes
import CaldavMcp.Db.Effects

namespace CaldavMcp

open Program

/-- The handler in which SQL statement number `n` fails with `message`. -/
def failingAt (env : Env) (message : String) (n : Nat) : Handler Op Op.Resp (World × Nat) :=
  faulty (sqlFault message) (· == n) (exec env)

section

variable {env : Env} {message : String} {n k : Nat} {w : World}

theorem failingAt_hit (s : Sql) :
    failingAt env message n (.sql s) (w, n) = (.error (.failed message), (w, n + 1)) := by
  show (if (n == n) = true then _ else _) = _
  rw [beq_self_eq_true, if_pos rfl]

theorem failingAt_miss (s : Sql) (h : k ≠ n) :
    failingAt env message n (.sql s) (w, k) = (w.answer s, (w.after s, k + 1)) := by
  show (if (k == n) = true then _ else _) = _
  rw [beq_false_of_ne h, if_neg Bool.false_ne_true]
  rfl

theorem failingAt_nowV7 :
    failingAt env message n .nowV7 (w, k) = (env.uuid w.drawn, (w.draw 1, k)) := rfl

end

/-! ## The property and its condition -/

/-- The objects, the change log, and the ctag and sync token of a calendar are the same. -/
structure Tables.SameObjects (calendarId : String) (t t' : Tables) : Prop where
  objects : t'.calendarObjects = t.calendarObjects
  changes : t'.syncChanges = t.syncChanges
  tokens : (t'.calendarById calendarId).map (fun c => (c.ctag, c.syncToken)) =
    (t.calendarById calendarId).map fun c => (c.ctag, c.syncToken)

namespace ObjectWrite

/-- Run a write with its SQL statement number `n` failing. -/
def runFailing (x : ObjectWrite) (env : Env) (message : String) (n : Nat) (w : World) :
    Except AppError Unit × World :=
  let out := x.call.run.run (failingAt env message n) (w, 0)
  (out.1, out.2.1)

/-- If the call returns an error, it has changed nothing. -/
def Atomic (x : ObjectWrite) (env : Env) (message : String) (n : Nat) (w : World) : Prop :=
  ∀ e, (x.runFailing env message n w).1 = .error e →
    Tables.SameObjects x.calendarId w.db.toTables (x.runFailing env message n w).2.db.toTables

/-- The failing statement is not behind a row write that has changed something: it is the row
    write or before it, or there is none with that number, or the row write is refused, finds
    no row, or (with the log not written either) stores what was there. -/
def Harmless (env : Env) (n : Nat) (w : World) : ObjectWrite → Prop
  | upsert calendarId uid icalData fields =>
    n < 2 ∨ 4 < n ∨
      match w.db.objectByUid calendarId uid with
      | none => ¬ w.db.Accepts (newRow env w calendarId uid icalData fields)
      | some o => n = 2 ∧ Tables.setObject (etagOf (env.uuid w.drawn)) icalData fields o = o
  | delete calendarId uid => n < 1 ∨ 2 < n ∨ w.db.objectByUid calendarId uid = none

end ObjectWrite

/-! ## Upsert, stage by stage -/

section

variable {env : Env} {message : String} {n : Nat} {w : World} {calendarId uid : String}

theorem upsertRead_failing {o : CalendarObject} (ho : w.db.objectByUid calendarId uid = some o)
    (isNew : Bool) :
    (upsertRead calendarId uid isNew).run (failingAt env message n) (w, 4) =
      (if n = 4 then .error (.database (.failed message)) else .ok (o, isNew), (w, 5)) := by
  unfold upsertRead
  rw [run_call]
  by_cases hn : n = 4
  · subst hn
    rw [failingAt_hit, if_pos rfl]
    rfl
  · rw [failingAt_miss _ (Ne.symm hn), if_neg hn]
    have ha : w.answer (.selectObjectByUid calendarId uid) = .ok (some o) := congrArg _ ho
    dsimp only
    rw [ha]
    rfl

/-- From the ctag update on: the rows and the log stay as they are. -/
theorem upsertBump_failing (env : Env) (message : String) (n : Nat) {o : CalendarObject} (ho : w.db.objectByUid calendarId uid = some o)
    (isNew : Bool) :
    let out := (upsertBump calendarId uid isNew).run (failingAt env message n) (w, 3)
    ((∃ e, out.1 = .error e) ↔ n = 3 ∨ n = 4) ∧
      out.2.1.db.calendarObjects = w.db.calendarObjects ∧
      out.2.1.db.syncChanges = w.db.syncChanges := by
  unfold upsertBump
  rw [run_call, failingAt_nowV7, run_call]
  by_cases hn : n = 3
  · subst hn
    rw [failingAt_hit]
    exact ⟨⟨fun _ => Or.inl rfl, fun _ => ⟨_, rfl⟩⟩, rfl, rfl⟩
  · rw [failingAt_miss _ (Ne.symm hn)]
    have hr : (w.draw 1).answer (.updateCtag (syncTokenOf (env.uuid w.drawn))
        (syncTokenOf (env.uuid w.drawn)) calendarId) = .ok _ := rfl
    dsimp only
    rw [hr]
    dsimp only
    rw [upsertRead_failing (o := o) (by exact ho)]
    refine ⟨?_, rfl, rfl⟩
    by_cases h4 : n = 4 <;> simp [h4, hn]

/-- From the log insert on: the rows stay, the log grows unless its insert is what fails. -/
theorem upsertLog_failing (env : Env) (message : String) (n : Nat) {o : CalendarObject} (ho : w.db.objectByUid calendarId uid = some o)
    (token : String) (isNew : Bool) :
    let out := (upsertLog calendarId uid token isNew).run (failingAt env message n) (w, 2)
    ((∃ e, out.1 = .error e) ↔ n = 2 ∨ n = 3 ∨ n = 4) ∧
      out.2.1.db.calendarObjects = w.db.calendarObjects ∧
      (∃ l, out.2.1.db.syncChanges = w.db.syncChanges ++ l ∧ (l = [] ↔ n = 2)) ∧
      (n = 2 → out.2.1.db.calendars = w.db.calendars) := by
  unfold upsertLog
  rw [run_call]
  by_cases hn : n = 2
  · subst hn
    rw [failingAt_hit]
    exact ⟨⟨fun _ => Or.inl rfl, fun _ => ⟨_, rfl⟩⟩, rfl,
      ⟨[], (List.append_nil _).symm, by simp⟩, fun _ => rfl⟩
  · rw [failingAt_miss _ (Ne.symm hn)]
    have hc := w.db.ok.calendar_of_object ho
    have ha : w.answer (.insertChange calendarId uid (upsertChange isNew) token) = .ok 1 :=
      Tables.answer_insertChange hc
    have hafter : w.db.toTables.after (.insertChange calendarId uid (upsertChange isNew) token) =
      _ := Tables.after_insertChange hc
    dsimp only
    rw [ha]
    dsimp only
    have ho' : (w.after (.insertChange calendarId uid (upsertChange isNew) token)).db.objectByUid
        calendarId uid = some o := by
      rw [World.after_tables, hafter]
      exact ho
    obtain ⟨herr, hobj, hlog⟩ := upsertBump_failing env message n ho' isNew
    refine ⟨by rw [herr]; simp [hn], ?_,
      ⟨[⟨w.db.changeSeq + 1, calendarId, uid, upsertChange isNew, token⟩], ?_, by simp [hn]⟩,
      fun h => absurd h hn⟩
    · rw [hobj, World.after_tables, hafter]
    · rw [hlog, World.after_tables, hafter]

/-- Behind the first statement. -/
theorem upsertObject_failing (h0 : n ≠ 0) (icalData : String) (fields : ObjectFields) :
    (upsertObject calendarId uid icalData fields).run.run (failingAt env message n) (w, 0) =
      (upsertRow calendarId uid icalData fields (etagOf (env.uuid w.drawn))
        (syncTokenOf (env.uuid (w.drawn + 1))) (w.db.objectByUid calendarId uid)).run
        (failingAt env message n) (w.draw 2, 1) := by
  rw [upsertObject_run, run_call, failingAt_miss _ (Ne.symm h0)]
  rfl

end

namespace ObjectWrite

variable {env : Env} {message : String} {n : Nat} {w : World} {calendarId uid icalData : String}
  {fields : ObjectFields}

/-- Atomicity of an upsert, from the run of `upsertObject`. -/
theorem atomic_upsert_iff {out : Except AppError (CalendarObject × Bool) × World × Nat}
    (h : (upsertObject calendarId uid icalData fields).run.run (failingAt env message n) (w, 0) =
      out) :
    (upsert calendarId uid icalData fields).Atomic env message n w ↔
      ((∃ e, out.1 = .error e) →
        Tables.SameObjects calendarId w.db.toTables out.2.1.db.toTables) := by
  have hrun : (upsert calendarId uid icalData fields).runFailing env message n w =
      (done out.1, out.2.1) := by
    unfold runFailing
    rw [run_upsert, run_bind, h]
    rfl
  unfold Atomic
  rw [hrun]
  cases out.1 with
  | ok r =>
    refine ⟨fun _ h => ?_, fun _ _ he => ?_⟩
    · obtain ⟨_, h⟩ := h; cases h
    · cases he
  | error e => exact ⟨fun h _ => h e rfl, fun h _ _ => h ⟨e, rfl⟩⟩

/-- A failure of the first two statements is harmless. -/
theorem atomic_upsert_early (hn : n < 2) :
    (upsert calendarId uid icalData fields).Atomic env message n w := by
  by_cases h0 : n = 0
  · subst h0
    have hrun : (upsertObject calendarId uid icalData fields).run.run (failingAt env message 0)
        (w, 0) = (.error (.database (.failed message)), w, 1) := by
      rw [upsertObject_run, run_call, failingAt_hit]
      rfl
    exact (atomic_upsert_iff hrun).mpr fun _ => ⟨rfl, rfl, rfl⟩
  · obtain rfl : n = 1 := by omega
    cases ho : w.db.objectByUid calendarId uid with
    | none =>
      have hrun : (upsertObject calendarId uid icalData fields).run.run (failingAt env message 1)
          (w, 0) = (.error (.database (.failed message)), w.draw 3, 2) := by
        rw [upsertObject_failing h0, ho]
        unfold upsertRow
        rw [run_call, failingAt_nowV7, run_call, failingAt_hit]
        rfl
      exact (atomic_upsert_iff hrun).mpr fun _ => ⟨rfl, rfl, rfl⟩
    | some o =>
      have hrun : (upsertObject calendarId uid icalData fields).run.run (failingAt env message 1)
          (w, 0) = (.error (.database (.failed message)), w.draw 2, 2) := by
        rw [upsertObject_failing h0, ho]
        unfold upsertRow
        rw [run_call, failingAt_hit]
        rfl
      exact (atomic_upsert_iff hrun).mpr fun _ => ⟨rfl, rfl, rfl⟩

/-- Behind the INSERT of a new row. -/
theorem upsert_new_failing (hn : ¬ n < 2) (ho : w.db.objectByUid calendarId uid = none) :
    (upsertObject calendarId uid icalData fields).run.run (failingAt env message n) (w, 0) =
      match (w.draw 3).answer (.insertObject (newRow env w calendarId uid icalData fields)) with
      | .ok _ =>
        (upsertLog calendarId uid (syncTokenOf (env.uuid (w.drawn + 1))) true).run
          (failingAt env message n)
          ((w.draw 3).after (.insertObject (newRow env w calendarId uid icalData fields)), 2)
      | .error e => (.error (.database e),
          (w.draw 3).after (.insertObject (newRow env w calendarId uid icalData fields)), 2) := by
  rw [upsertObject_failing (by omega), ho]
  unfold upsertRow
  rw [run_call, failingAt_nowV7, run_call, failingAt_miss _ (by omega)]
  have h3 : (w.draw 2).draw 1 = w.draw 3 := rfl
  have hrow : newRow env w calendarId uid icalData fields =
    { id := env.uuid (w.draw 2).drawn, calendarId := calendarId, uid := uid,
      etag := etagOf (env.uuid w.drawn), icalData := icalData, toObjectFields := fields } := rfl
  dsimp only
  rw [h3, ← hrow]
  cases (w.draw 3).answer (.insertObject (newRow env w calendarId uid icalData fields)) <;> rfl

/-- Behind the UPDATE of an existing row. -/
theorem upsert_old_failing (hn : ¬ n < 2) {o : CalendarObject}
    (ho : w.db.objectByUid calendarId uid = some o) :
    (upsertObject calendarId uid icalData fields).run.run (failingAt env message n) (w, 0) =
      (upsertLog calendarId uid (syncTokenOf (env.uuid (w.drawn + 1))) false).run
        (failingAt env message n)
        ((w.draw 2).after
          (.updateObject (etagOf (env.uuid w.drawn)) icalData fields calendarId uid), 2) := by
  rw [upsertObject_failing (by omega), ho]
  unfold upsertRow
  rw [run_call, failingAt_miss _ (by omega)]
  rfl

/-- A refused INSERT changes nothing. -/
theorem atomic_upsert_refused (hn : ¬ n < 2) (ho : w.db.objectByUid calendarId uid = none)
    (hr : ¬ w.db.Accepts (newRow env w calendarId uid icalData fields)) :
    (upsert calendarId uid icalData fields).Atomic env message n w := by
  obtain ⟨e, he⟩ := Tables.answer_insertObject_refused hr
  have ha : (w.draw 3).answer (.insertObject (newRow env w calendarId uid icalData fields)) =
      .error e := he
  refine (atomic_upsert_iff (upsert_new_failing hn ho)).mpr fun _ => ?_
  rw [ha]
  dsimp only
  rw [World.after_tables, World.draw_db, Tables.after_insertObject_refused hr]
  exact ⟨rfl, rfl, rfl⟩

/-- An accepted INSERT stays when a later statement fails. -/
theorem atomic_upsert_accepted (hn : ¬ n < 2)
    (hr : w.db.Accepts (newRow env w calendarId uid icalData fields)) :
    (upsert calendarId uid icalData fields).Atomic env message n w ↔ 4 < n := by
  have ha : (w.draw 3).answer (.insertObject (newRow env w calendarId uid icalData fields)) =
      .ok 1 := Tables.answer_insertObject_accepted hr
  have hrow : ((w.draw 3).after (.insertObject
      (newRow env w calendarId uid icalData fields))).db.objectByUid calendarId uid =
      some (newRow env w calendarId uid icalData fields) := by
    rw [World.after_tables, World.draw_db, Tables.objectByUid_insertObject hr]
    exact if_pos ⟨rfl, rfl⟩
  have ho : w.db.objectByUid calendarId uid = none := hr.key
  rw [atomic_upsert_iff (upsert_new_failing hn ho), ha]
  dsimp only
  obtain ⟨herr, hobj, -, -⟩ := upsertLog_failing env message n hrow
    (syncTokenOf (env.uuid (w.drawn + 1))) true
  rw [herr]
  constructor
  · intro h
    by_contra hle
    have := (h (by omega)).objects
    rw [hobj, World.after_tables, World.draw_db, Tables.after_insertObject_accepted hr] at this
    simp at this
  · intro h he
    omega

/-- A changed row stays changed when a later statement fails. -/
theorem atomic_upsert_old (hn : ¬ n < 2) {o : CalendarObject}
    (ho : w.db.objectByUid calendarId uid = some o) :
    (upsert calendarId uid icalData fields).Atomic env message n w ↔
      4 < n ∨ n = 2 ∧ Tables.setObject (etagOf (env.uuid w.drawn)) icalData fields o = o := by
  have hrow : ((w.draw 2).after (.updateObject (etagOf (env.uuid w.drawn)) icalData fields
      calendarId uid)).db.objectByUid calendarId uid =
      some (Tables.setObject (etagOf (env.uuid w.drawn)) icalData fields o) := by
    rw [World.after_tables, World.draw_db, Tables.objectByUid_updateObject,
      if_pos ⟨rfl, rfl⟩, ho]
    rfl
  rw [atomic_upsert_iff (upsert_old_failing hn ho)]
  obtain ⟨herr, hobj, ⟨l, hlog, hl⟩, hcal⟩ := upsertLog_failing env message n hrow
    (syncTokenOf (env.uuid (w.drawn + 1))) false
  rw [herr]
  constructor
  · intro h
    by_cases hle : 4 < n
    · exact Or.inl hle
    · have same := h (by omega)
      refine Or.inr ⟨?_, ?_⟩
      · have := same.changes
        rw [hlog] at this
        exact hl.mp (List.append_right_eq_self.mp this)
      · have := congrArg (fun os : List CalendarObject =>
          os.find? fun o => o.calendarId = calendarId ∧ o.uid = uid) (hobj.symm.trans same.objects)
        exact Option.some.inj (hrow.symm.trans (this.trans ho))
  · rintro (h | ⟨rfl, hsame⟩) he
    · omega
    · refine ⟨hobj.trans ?_, ?_, ?_⟩
      · refine (List.map_congr_left fun x hx => ?_).trans (List.map_id _)
        split
        · rename_i hk
          have hx' := w.db.ok.objectByUid_of_mem hx
          rw [hk.1, hk.2, ho] at hx'
          obtain rfl := Option.some.inj hx'
          exact hsame
        · rfl
      · rw [hlog, hl.mpr rfl, List.append_nil]
        rfl
      · unfold Tables.calendarById
        rw [hcal rfl]
        rfl

/-! ## Delete -/

theorem runFailing_delete (n : Nat) :
    (delete calendarId uid).runFailing env message n w =
      if n = 0 then (.error (.database (.failed message)), w)
      else if w.db.objectByUid calendarId uid = none then
        (.error (objectMissing uid), w.after (.deleteObject calendarId uid))
      else
        let out := (deleteLog calendarId uid (syncTokenOf (env.uuid w.drawn))).run
          (failingAt env message n) ((w.after (.deleteObject calendarId uid)).draw 1, 1)
        (out.1, out.2.1) := by
  unfold runFailing call
  rw [deleteObject_run, run_call]
  by_cases h0 : n = 0
  · subst h0
    rw [failingAt_hit, if_pos rfl]
    rfl
  · rw [failingAt_miss _ (Ne.symm h0), if_neg h0]
    have ha : w.answer (.deleteObject calendarId uid) = .ok (w.db.rowsOf calendarId uid) := rfl
    dsimp only
    rw [ha]
    dsimp only
    by_cases hz : w.db.objectByUid calendarId uid = none
    · rw [if_pos hz, if_pos (Tables.rowsOf_eq_zero.mpr hz)]
      rfl
    · rw [if_neg hz, if_neg fun h => hz (Tables.rowsOf_eq_zero.mp h)]
      rfl

/-- Behind the removal of a row the only errors are the injected ones. -/
theorem deleteLog_failing (env : Env) (message uid : String) (h0 : n ≠ 0) (hc : calendarId ∈ w.db.calendarIds) (token : String) :
    let out := (deleteLog calendarId uid token).run (failingAt env message n) (w, 1)
    ((∃ e, out.1 = .error e) ↔ n = 1 ∨ n = 2) ∧
      out.2.1.db.calendarObjects = w.db.calendarObjects := by
  unfold deleteLog
  rw [run_call]
  by_cases h1 : n = 1
  · subst h1
    rw [failingAt_hit]
    exact ⟨⟨fun _ => Or.inl rfl, fun _ => ⟨_, rfl⟩⟩, rfl⟩
  · have ha : w.answer (.insertChange calendarId uid .deleted token) = .ok 1 :=
      Tables.answer_insertChange hc
    have hobj : (w.after (.insertChange calendarId uid .deleted token)).db.calendarObjects =
        w.db.calendarObjects := by
      rw [World.after_tables, Tables.after_insertChange hc]
    rw [failingAt_miss _ (Ne.symm h1)]
    dsimp only
    rw [ha]
    unfold deleteBump
    dsimp only
    rw [run_call, failingAt_nowV7, run_call]
    by_cases h2 : n = 2
    · subst h2
      rw [failingAt_hit]
      exact ⟨⟨fun _ => Or.inr rfl, fun _ => ⟨_, rfl⟩⟩, hobj⟩
    · rw [failingAt_miss _ (Ne.symm h2)]
      refine ⟨⟨fun h => ?_, fun h => ?_⟩, hobj⟩
      · obtain ⟨e, he⟩ := h
        cases he
      · omega

theorem atomic_delete_iff (n : Nat) :
    (delete calendarId uid).Atomic env message n w ↔
      (delete calendarId uid).Harmless env n w := by
  unfold Atomic
  rw [runFailing_delete]
  by_cases h0 : n = 0
  · rw [if_pos h0]
    exact ⟨fun _ => Or.inl (by omega), fun _ _ _ => ⟨rfl, rfl, rfl⟩⟩
  · rw [if_neg h0]
    have hobjects : (w.after (.deleteObject calendarId uid)).db.calendarObjects =
        w.db.calendarObjects.filter fun o => ¬ (o.calendarId = calendarId ∧ o.uid = uid) := rfl
    cases ho : w.db.objectByUid calendarId uid with
    | none =>
      rw [if_pos rfl]
      refine ⟨fun _ => Or.inr (Or.inr ho), fun _ _ _ => ⟨?_, rfl, rfl⟩⟩
      refine hobjects.trans (List.filter_eq_self.mpr fun o hx => ?_)
      have := List.find?_eq_none.mp ho o hx
      simp only [decide_eq_true_eq] at this
      exact decide_eq_true this
    | some o =>
      rw [if_neg (by simp)]
      have hc : calendarId ∈ ((w.after (.deleteObject calendarId uid)).draw 1).db.calendarIds :=
        w.db.ok.calendar_of_object ho
      obtain ⟨herr, hobj⟩ := deleteLog_failing env message uid h0 hc
        (syncTokenOf (env.uuid w.drawn))
      refine ⟨fun h => ?_, fun h e he => ?_⟩
      · by_cases hle : 2 < n
        · exact Or.inr (Or.inl hle)
        · obtain ⟨e, he⟩ := herr.mpr (by omega)
          have same := hobj.symm.trans (h e he).objects
          have hmem := List.mem_of_find?_eq_some ho
          rw [← same] at hmem
          have hgone := (List.mem_filter.mp hmem).2
          have hk := Tables.objectByUid_key ho
          simp [hk.1, hk.2] at hgone
      · have hlate := herr.mp ⟨e, he⟩
        rcases h with h | h | h
        · omega
        · omega
        · rw [ho] at h; cases h

end ObjectWrite

/-- **Failure atomicity, exactly.** With SQL statement number `n` failing, an object write
    that returns an error has changed nothing if and only if the failure is harmless. -/
theorem objectWrite_atomic_iff_harmless (env : Env) (message : String) (x : ObjectWrite) (n : Nat)
    (w : World) : x.Atomic env message n w ↔ x.Harmless env n w := by
  cases x with
  | delete calendarId uid => exact ObjectWrite.atomic_delete_iff n
  | upsert calendarId uid icalData fields =>
    by_cases hn : n < 2
    · exact ⟨fun _ => Or.inl hn, fun _ => ObjectWrite.atomic_upsert_early hn⟩
    · cases ho : w.db.objectByUid calendarId uid with
      | none =>
        by_cases hr : w.db.Accepts (ObjectWrite.newRow env w calendarId uid icalData fields)
        · rw [ObjectWrite.atomic_upsert_accepted hn hr]
          simp [ObjectWrite.Harmless, ho, hn, hr]
        · refine ⟨fun _ => ?_, fun _ => ObjectWrite.atomic_upsert_refused hn ho hr⟩
          simp [ObjectWrite.Harmless, ho, hr]
      | some o =>
        rw [ObjectWrite.atomic_upsert_old hn ho]
        simp [ObjectWrite.Harmless, ho, hn]

/-- An upsert whose log insert fails returns an error and leaves the new row behind. -/
theorem objectWrite_not_atomic : ¬ ∀ (env : Env) (message : String) (x : ObjectWrite) (n : Nat)
    (w : World), x.Atomic env message n w := by
  intro h
  have hlog := h countingEnv "disk I/O error"
    (.upsert "work" "meeting" "BEGIN:VCALENDAR" ⟨"VEVENT", none, none, none⟩) 2 aliceWorld
  rw [ObjectWrite.atomic_upsert_accepted (by decide) (by decide)] at hlog
  exact absurd hlog (by decide)

end CaldavMcp
