/-
  How far an object write has come.

  A `Phase` is what can be told from a call's history: which call it is, the stage it has
  reached, and the last values it drew from `Uuid::new_v4` and `Uuid::now_v7`. The stages
  follow the statements of `upsert_object` and `delete_object`; `checking` is the If-Match
  check that a PUT makes before its upsert.

  `writeOutline` is the proof outline of these programs, and `upsert_follows` and
  `delete_follows` say that they keep to it, with results as in `UpsertEnds` and `DeleteEnds`.
  It leaves open what a call knows about the database while it runs (`knows`): that is what the
  other calls leave it, and each result about interleavings has its own.
-/
import CaldavMcp.Program.Pool
import CaldavMcp.Db.Writes
import CaldavMcp.Db.Effects

namespace CaldavMcp

open Program

/-- The stages of an object write. -/
inductive Stage where
  /-- the If-Match check is next -/
  | checking (etag : String)
  /-- the call is about to start -/
  | ready
  /-- the existence SELECT found a row; the UPDATE is next -/
  | found
  /-- the existence SELECT found none; the INSERT is next -/
  | absent
  /-- the row statement is done; the log insert is next -/
  | wrote
  /-- the change is logged; the ctag update is next -/
  | logged
  /-- the ctag is updated -/
  | bumped
  /-- the re-read found the row -/
  | finished
  /-- the If-Match check failed -/
  | rejected
  /-- the call ended in an error -/
  | failed
  deriving DecidableEq, Repr

namespace Stage

/-- Where a SELECT of the object leads. -/
def afterSelect : Stage → Option CalendarObject → Stage
  | checking etag, some o => if o.etag = etag then ready else rejected
  | checking _, none => rejected
  | ready, some _ => found
  | ready, none => absent
  | bumped, some _ => finished
  | _, _ => failed

/-- Where the answer of a statement leads. -/
def next (st : Stage) : (s : Sql) → Except DbError s.Rows → Stage
  | .selectObjectByUid _ _, r =>
    match r with
    | .ok row => st.afterSelect row
    | .error _ => failed
  | .deleteObject _ _, r =>
    match r with
    | .ok rows => if rows = 0 then failed else wrote
    | .error _ => failed
  | .updateObject .., r | .insertObject _, r =>
    match r with
    | .ok _ => wrote
    | .error _ => failed
  | .insertChange .., r =>
    match r with
    | .ok _ => logged
    | .error _ => failed
  | .updateCtag .., r =>
    match r with
    | .ok _ => bumped
    | .error _ => failed
  | _, _ => failed

end Stage

/-- What a call's history tells. -/
structure Phase where
  write : ObjectWrite
  stage : Stage
  v4 : Option String
  v7 : Option String

namespace Phase

/-- A call that has done nothing yet. -/
def start (x : ObjectWrite) : Phase := ⟨x, .ready, none, none⟩

/-- One operation and its answer. -/
def next (ph : Phase) : (o : Op) → o.Resp → Phase
  | .sql s, r => { ph with stage := ph.stage.next s r }
  | .newV4, v => { ph with v4 := some v }
  | .nowV7, v => { ph with v7 := some v }
  | .salt, _ | .utcNow, _ => ph

/-- The operations a call may perform next. -/
inductive Sends (ph : Phase) : Op → Prop
  | check (etag : String) (hs : ph.stage = .checking etag) :
    Sends ph (.sql (.selectObjectByUid ph.write.calendarId ph.write.uid))
  | look (hs : ph.stage = .ready) :
    Sends ph (.sql (.selectObjectByUid ph.write.calendarId ph.write.uid))
  | etag (hs : ph.stage = .found ∨ ph.stage = .absent) (hv : ph.v4 = none) : Sends ph .newV4
  | uuid (hs : ph.stage = .found ∨ ph.stage = .absent ∨ ph.stage = .wrote ∨ ph.stage = .logged) :
    Sends ph .nowV7
  | update (v icalData : String) (fields : ObjectFields) (hs : ph.stage = .found)
    (hw : ph.write = .upsert ph.write.calendarId ph.write.uid icalData fields)
    (hv : ph.v4 = some v) :
    Sends ph (.sql (.updateObject (etagOf v) icalData fields ph.write.calendarId ph.write.uid))
  | insert (v icalData : String) (fields : ObjectFields) (row : CalendarObject)
    (hs : ph.stage = .absent)
    (hw : ph.write = .upsert ph.write.calendarId ph.write.uid icalData fields)
    (hv : ph.v4 = some v) (hc : row.calendarId = ph.write.calendarId)
    (hu : row.uid = ph.write.uid) (he : row.etag = etagOf v) (hd : row.icalData = icalData) :
    Sends ph (.sql (.insertObject row))
  | remove (hs : ph.stage = .ready)
    (hw : ph.write = .delete ph.write.calendarId ph.write.uid) :
    Sends ph (.sql (.deleteObject ph.write.calendarId ph.write.uid))
  | log (type : ChangeType) (token : String) (hs : ph.stage = .wrote)
    (ht : type = .deleted ↔ ph.write = .delete ph.write.calendarId ph.write.uid) :
    Sends ph (.sql (.insertChange ph.write.calendarId ph.write.uid type token))
  | bump (b : String) (hs : ph.stage = .logged) (hv : ph.v7 = some b) :
    Sends ph (.sql (.updateCtag (syncTokenOf b) (syncTokenOf b) ph.write.calendarId))
  | reread (hs : ph.stage = .bumped) :
    Sends ph (.sql (.selectObjectByUid ph.write.calendarId ph.write.uid))

@[simp] theorem next_write (ph : Phase) (o : Op) (r : o.Resp) : (ph.next o r).write = ph.write := by
  cases o <;> rfl

/-- The stage after a SELECT of the object. -/
theorem next_select (env : Env) (ph : Phase) (calendarId uid : String) (w : World) :
    (ph.next (.sql (.selectObjectByUid calendarId uid))
      (exec env (.sql (.selectObjectByUid calendarId uid)) w).1).stage =
    ph.stage.afterSelect (w.db.objectByUid calendarId uid) := rfl

end Phase

/-- The proof outline of the object writes. -/
@[reducible] def writeOutline (env : Env) (α : Type) (knows : Phase → World → Prop)
    (ends : Phase → α → Prop) : Outline (exec env) α where
  Phase := Phase
  next := Phase.next
  sends := Phase.Sends
  knows := knows
  ends := ends

/-- A program ends with the write it started with. -/
theorem follows_write {env : Env} {α β : Type} {knows : Phase → World → Prop}
    {ends : Phase → α → Prop} {ends' : Phase → β → Prop} {p : Action β} :
    ∀ {ph : Phase}, (writeOutline env α knows ends).Follows ends' ph p →
      (writeOutline env α knows ends).Follows
        (fun ph' b => ph'.write = ph.write ∧ ends' ph' b) ph p := by
  induction p with
  | ret b => intro ph hp; exact ⟨rfl, hp⟩
  | call o k ih =>
    intro ph hp
    refine ⟨hp.1, fun w hw => Outline.Follows.mono (fun ph' b hb => ⟨?_, hb.2⟩) (ih _ (hp.2 w hw))⟩
    exact hb.1.trans (Phase.next_write ..)

/-! ## The programs keep to the outline -/

section

variable {env : Env} {α : Type} {knows : Phase → World → Prop} {ends : Phase → α → Prop}
  {calendarId uid icalData : String} {fields : ObjectFields}

/-- How an upsert ends: with the row it read, which is what it knew of the database then, or
    with an error. -/
def UpsertEnds (knows : Phase → World → Prop) (ph : Phase) :
    Except AppError (CalendarObject × Bool) → Prop
  | .ok (o, _) => ph.stage = .finished ∧ ∃ w : World, knows { ph with stage := .bumped } w ∧
      w.db.objectByUid ph.write.calendarId ph.write.uid = some o
  | .error _ => ph.stage = .failed

/-- How a delete ends. -/
def DeleteEnds (ph : Phase) : Except AppError Unit → Prop
  | .ok () => ph.stage = .bumped
  | .error _ => ph.stage = .failed

theorem upsertRead_follows (v4 v7 : Option String) (isNew : Bool) :
    (writeOutline env α knows ends).Follows (UpsertEnds knows)
      ⟨.upsert calendarId uid icalData fields, .bumped, v4, v7⟩
      (upsertRead calendarId uid isNew) := by
  refine ⟨Phase.Sends.reread rfl, fun w hw => ?_⟩
  have ha : w.answer (.selectObjectByUid calendarId uid) =
    .ok (w.db.objectByUid calendarId uid) := rfl
  rw [exec_sql, ha]
  cases ho : w.db.objectByUid calendarId uid with
  | none => exact rfl
  | some o => exact ⟨rfl, w, hw, ho⟩

theorem upsertBump_follows (v4 v7 : Option String) (isNew : Bool) :
    (writeOutline env α knows ends).Follows (UpsertEnds knows)
      ⟨.upsert calendarId uid icalData fields, .logged, v4, v7⟩
      (upsertBump calendarId uid isNew) := by
  refine ⟨Phase.Sends.uuid (Or.inr (Or.inr (Or.inr rfl))), fun w _ => ?_⟩
  refine ⟨Phase.Sends.bump (env.uuid w.drawn) rfl rfl, fun w' _ => ?_⟩
  exact upsertRead_follows v4 (some (env.uuid w.drawn)) isNew

theorem upsertLog_follows (v4 v7 : Option String) (token : String) (isNew : Bool) :
    (writeOutline env α knows ends).Follows (UpsertEnds knows)
      ⟨.upsert calendarId uid icalData fields, .wrote, v4, v7⟩
      (upsertLog calendarId uid token isNew) := by
  refine ⟨Phase.Sends.log (upsertChange isNew) token rfl ?_, fun w _ => ?_⟩
  · cases isNew <;> simp [upsertChange]
  · rw [exec_sql]
    cases w.answer (.insertChange calendarId uid (upsertChange isNew) token) with
    | ok r => exact upsertBump_follows v4 v7 isNew
    | error e => exact rfl

theorem upsertRow_follows (v : String) (v7 : Option String) (token : String)
    (existing : Option CalendarObject) :
    (writeOutline env α knows ends).Follows (UpsertEnds knows)
      ⟨.upsert calendarId uid icalData fields, if existing.isSome then .found else .absent, some v,
        v7⟩
      (upsertRow calendarId uid icalData fields (etagOf v) token existing) := by
  cases existing with
  | none =>
    refine ⟨Phase.Sends.uuid (Or.inr (Or.inl rfl)), fun w _ => ?_⟩
    refine ⟨Phase.Sends.insert v icalData fields _ rfl rfl rfl rfl rfl rfl rfl, fun w' _ => ?_⟩
    rw [exec_sql]
    cases w'.answer (.insertObject _) with
    | ok r => exact upsertLog_follows (some v) (some (env.uuid w.drawn)) token true
    | error e => exact rfl
  | some o =>
    refine ⟨Phase.Sends.update v icalData fields rfl rfl rfl, fun w' _ => ?_⟩
    exact upsertLog_follows (some v) v7 token false

/-- `upsert_object` keeps to the outline. -/
theorem upsert_follows :
    (writeOutline env α knows ends).Follows (UpsertEnds knows)
      (Phase.start (.upsert calendarId uid icalData fields))
      (upsertObject calendarId uid icalData fields).run := by
  rw [upsertObject_run]
  refine ⟨Phase.Sends.look rfl, fun w _ => ?_⟩
  have ha : w.answer (.selectObjectByUid calendarId uid) =
    .ok (w.db.objectByUid calendarId uid) := rfl
  rw [exec_sql, ha]
  cases w.db.objectByUid calendarId uid with
  | none =>
    refine ⟨Phase.Sends.etag (Or.inr rfl) rfl, fun w₁ _ => ?_⟩
    refine ⟨Phase.Sends.uuid (Or.inr (Or.inl rfl)), fun w₂ _ => ?_⟩
    exact upsertRow_follows (env.uuid w₁.drawn) (some (env.uuid w₂.drawn))
      (syncTokenOf (env.uuid w₂.drawn)) none
  | some o =>
    refine ⟨Phase.Sends.etag (Or.inl rfl) rfl, fun w₁ _ => ?_⟩
    refine ⟨Phase.Sends.uuid (Or.inl rfl), fun w₂ _ => ?_⟩
    exact upsertRow_follows (env.uuid w₁.drawn) (some (env.uuid w₂.drawn))
      (syncTokenOf (env.uuid w₂.drawn)) (some o)

/-- `delete_object` keeps to the outline. -/
theorem delete_follows :
    (writeOutline env α knows ends).Follows DeleteEnds
      (Phase.start (.delete calendarId uid)) (deleteObject calendarId uid).run := by
  rw [deleteObject_run]
  refine ⟨Phase.Sends.remove rfl rfl, fun w _ => ?_⟩
  have ha : w.answer (.deleteObject calendarId uid) = .ok (w.db.rowsOf calendarId uid) := rfl
  rw [exec_sql, ha]
  cases w.db.rowsOf calendarId uid with
  | zero => exact rfl
  | succ n =>
    refine ⟨Phase.Sends.uuid (Or.inr (Or.inr (Or.inl rfl))), fun w₁ _ => ?_⟩
    refine ⟨Phase.Sends.log .deleted _ rfl ⟨fun _ => rfl, fun _ => rfl⟩, fun w₂ _ => ?_⟩
    rw [exec_sql]
    cases w₂.answer (.insertChange calendarId uid .deleted _) with
    | error e => exact rfl
    | ok r =>
      refine ⟨Phase.Sends.uuid (Or.inr (Or.inr (Or.inr rfl))), fun w₃ _ => ?_⟩
      exact ⟨Phase.Sends.bump (env.uuid w₃.drawn) rfl rfl, fun w₄ _ => rfl⟩

/-- The stages in which a call may have returned. -/
def Stage.Over (st : Stage) : Prop :=
  st = .finished ∨ st = .bumped ∨ st = .rejected ∨ st = .failed

/-- An object write keeps to the outline, and returns behind the ctag update or in failure. -/
theorem objectWrite_follows (x : ObjectWrite) :
    (writeOutline env α knows ends).Follows (fun ph _ => ph.stage.Over) (Phase.start x)
      x.call.run := by
  cases x with
  | upsert calendarId uid icalData fields =>
    rw [ObjectWrite.run_upsert]
    refine Outline.follows_bind (fun ph r (hr : UpsertEnds knows ph r) => ?_) upsert_follows
    cases r with
    | ok r => exact Or.inl hr.1
    | error e => exact Or.inr (Or.inr (Or.inr hr))
  | delete calendarId uid =>
    refine Outline.Follows.mono (fun ph r hr => ?_) delete_follows
    cases r with
    | ok r => exact Or.inr (Or.inl hr)
    | error e => exact Or.inr (Or.inr (Or.inr hr))

end

end CaldavMcp
