/-
  The states a server reaches, and what holds in all of them.

  `Reachable` is every state reached from the empty database by calls of `src/db/`, one after
  the other, with any arguments and whether they succeed or not. (States reached by calls that
  interleave are the subject of `Concurrent`.)

  `Synced` is the invariant. Every token and etag in the tables has been drawn; the token of a
  calendar is not in the log, because `bump_ctag` draws its own; the log agrees with the
  objects, and every object is in the log.
-/
import CaldavMcp.Db.Runs
import CaldavMcp.Db.Users
import CaldavMcp.Db.Shares

namespace CaldavMcp

open Program

/-- The calls of `src/db/` that write. -/
inductive DbCall (lib : Lib) : {α : Type} → Call α → Prop
  | createUser (username : String) (email : Option String) (password : String) :
    DbCall lib (createUser lib username email password)
  | resetPassword (username newPassword : String) :
    DbCall lib (resetPassword lib username newPassword)
  | createCalendar (ownerId name description color timezone : String) :
    DbCall lib (createCalendar ownerId name description color timezone)
  | createCalendarWithId (id ownerId name description color timezone : String) :
    DbCall lib (createCalendarWithId id ownerId name description color timezone)
  | updateCalendar (id : String) (name description color timezone : Option String) :
    DbCall lib (updateCalendar id name description color timezone)
  | deleteCalendar (id : String) : DbCall lib (deleteCalendar id)
  | shareCalendar (calendarId userId : String) (permission : Permission) :
    DbCall lib (shareCalendar calendarId userId permission)
  | unshareCalendar (calendarId userId : String) : DbCall lib (unshareCalendar calendarId userId)
  | write (x : ObjectWrite) : DbCall lib x.call

/-- The states reached by calls that run one after the other. -/
inductive Reachable (env : Env) (lib : Lib) : World → Prop
  | init : Reachable env lib ⟨Db.init, 0⟩
  | draw {w : World} (n : Nat) (hw : Reachable env lib w) : Reachable env lib (w.draw n)
  | call {w : World} {α : Type} {c : Call α} (hc : DbCall lib c) (hw : Reachable env lib w) :
    Reachable env lib (c.exec env w).2

/-! ## The invariant -/

/-- What the tables look like after any history. -/
structure Synced (env : Env) (w : World) : Prop where
  rowToken : ∀ r ∈ w.db.calendars, ∃ n < w.drawn, r.syncToken = syncTokenOf (env.uuid n)
  logToken : ∀ e ∈ w.db.syncChanges, ∃ n < w.drawn, e.syncToken = syncTokenOf (env.uuid n)
  apart : ∀ r ∈ w.db.calendars, ∀ e ∈ w.db.syncChanges, e.syncToken ≠ r.syncToken
  agrees : ∀ calendarId, w.db.LogAgrees calendarId
  logged : ∀ o ∈ w.db.calendarObjects,
    ∃ e ∈ w.db.syncChanges, e.calendarId = o.calendarId ∧ e.objectUid = o.uid
  etag : ∀ o ∈ w.db.calendarObjects, ∃ n < w.drawn, o.etag = etagOf (env.uuid n)
  objectId : ∀ o ∈ w.db.calendarObjects, ∃ n < w.drawn, o.id = env.uuid n

namespace Synced

variable {env : Env} {w w' : World}

theorem init : Synced env ⟨Db.init, 0⟩ := by
  refine ⟨nofun, nofun, nofun, fun c uid => ?_, nofun, nofun, nofun⟩
  rw [Tables.agreesAt_iff]
  exact nofun

/-- A change that keeps objects, log and tokens, or drops whole calendars. -/
theorem frame (h : Synced env w) (hdrawn : w.drawn ≤ w'.drawn)
    (hcal : ∀ r ∈ w'.db.calendars, ∃ r' ∈ w.db.calendars, r.syncToken = r'.syncToken)
    (hlog : ∀ calendarId, w'.db.changesOf calendarId = w.db.changesOf calendarId ∧
        w'.db.objectByUid calendarId = w.db.objectByUid calendarId ∨
      w'.db.changesOf calendarId = [])
    (hchanges : w'.db.syncChanges ⊆ w.db.syncChanges)
    (hobj : ∀ o ∈ w'.db.calendarObjects, o ∈ w.db.calendarObjects ∧
      ∀ e ∈ w.db.syncChanges, e.calendarId = o.calendarId → e ∈ w'.db.syncChanges) :
    Synced env w' := by
  have mono : ∀ {s : String} {f : String → String},
      (∃ n < w.drawn, s = f (env.uuid n)) → ∃ n < w'.drawn, s = f (env.uuid n) :=
    fun ⟨n, hn, he⟩ => ⟨n, lt_of_lt_of_le hn hdrawn, he⟩
  refine ⟨?_, fun e he => mono (h.logToken e (hchanges he)), ?_, ?_, ?_,
    fun o ho => mono (h.etag o (hobj o ho).1), fun o ho => ?_⟩
  · intro r hr
    obtain ⟨r', hr', he⟩ := hcal r hr
    rw [he]
    exact mono (h.rowToken r' hr')
  · intro r hr e he
    obtain ⟨r', hr', ht⟩ := hcal r hr
    rw [ht]
    exact h.apart r' hr' e (hchanges he)
  · intro c uid
    rcases hlog c with ⟨h1, h2⟩ | h1
    · have := h.agrees c uid
      unfold Tables.AgreesAt at this ⊢
      rwa [h1, h2]
    · rw [Tables.agreesAt_iff]
      unfold Tables.lastChange
      rw [h1]
      exact nofun
  · intro o ho
    obtain ⟨ho', hkeep⟩ := hobj o ho
    obtain ⟨e, he, hc, hu⟩ := h.logged o ho'
    exact ⟨e, hkeep e he hc, hc, hu⟩
  · exact mono (f := id) (h.objectId o (hobj o ho).1)

theorem draw (h : Synced env w) (n : Nat) : Synced env (w.draw n) :=
  h.frame (Nat.le_add_right _ _) (fun r hr => ⟨r, hr, rfl⟩) (fun _ => Or.inl ⟨rfl, rfl⟩)
    (fun _ he => he) fun _ ho => ⟨ho, fun _ he _ => he⟩

/-- The same tables, with more drawn. -/
theorem of_tables (h : Synced env w) (ht : w'.db.toTables = w.db.toTables)
    (hdrawn : w.drawn ≤ w'.drawn) : Synced env w' := by
  refine h.frame hdrawn ?_ ?_ ?_ ?_
  · rw [ht]; exact fun r hr => ⟨r, hr, rfl⟩
  · rw [ht]; exact fun _ => Or.inl ⟨rfl, rfl⟩
  · rw [ht]; exact fun _ he => he
  · rw [ht]; exact fun o ho => ⟨ho, fun e he _ => he⟩

/-- A successful object write. -/
theorem effect (hinj : Function.Injective env.uuid) (h : Synced env w) {calendarId uid : String}
    {type : ChangeType} {m n : Nat}
    (he : ObjectWrite.Effect env w w' calendarId uid type m n) : Synced env w' := by
  have hdrawn : w.drawn ≤ w'.drawn := le_trans he.logDraw.1 (le_of_lt he.logDraw.2)
  have mono : ∀ {s : String} {f : String → String},
      (∃ n < w.drawn, s = f (env.uuid n)) → ∃ n < w'.drawn, s = f (env.uuid n) :=
    fun ⟨n, hn, he⟩ => ⟨n, lt_of_lt_of_le hn hdrawn, he⟩
  have hcal : ∀ r ∈ w'.db.calendars, r.syncToken = syncTokenOf (env.uuid n) ∨
      ∃ r' ∈ w.db.calendars, r.syncToken = r'.syncToken := by
    intro r hr
    rw [he.calendars] at hr
    obtain ⟨r', hr', rfl⟩ := List.mem_map.mp hr
    split
    · exact Or.inl rfl
    · exact Or.inr ⟨r', hr', rfl⟩
  have hlog : ∀ e ∈ w'.db.syncChanges, e ∈ w.db.syncChanges ∨
      e = ⟨w.db.changeSeq + 1, calendarId, uid, type, syncTokenOf (env.uuid m)⟩ := by
    intro e hmem
    rw [he.log] at hmem
    exact (List.mem_append.mp hmem).imp id List.mem_singleton.mp
  have hold : ∀ {s : String} {k : Nat}, w.drawn ≤ k →
      (∃ n < w.drawn, s = syncTokenOf (env.uuid n)) → s ≠ syncTokenOf (env.uuid k) := by
    rintro s k hk ⟨j, hj, rfl⟩ heq
    have := hinj (syncTokenOf_inj heq)
    omega
  refine ⟨?_, ?_, ?_, ?_, ?_, ?_, ?_⟩
  · intro r hr
    rcases hcal r hr with h' | ⟨r', hr', h'⟩
    · exact ⟨n, he.rowDraw.2, h'⟩
    · rw [h']; exact mono (h.rowToken r' hr')
  · intro e hmem
    rcases hlog e hmem with h' | rfl
    · exact mono (h.logToken e h')
    · exact ⟨m, he.logDraw.2, rfl⟩
  · intro r hr e hmem
    rcases hcal r hr with h' | ⟨r', hr', h'⟩
    · rw [h']
      rcases hlog e hmem with h'' | rfl
      · exact hold he.rowDraw.1 (h.logToken e h'')
      · exact fun heq => he.apart (hinj (syncTokenOf_inj heq))
    · rw [h']
      rcases hlog e hmem with h'' | rfl
      · exact h.apart r' hr' e h''
      · exact (hold he.logDraw.1 (h.rowToken r' hr')).symm
  · intro c u
    rw [Tables.agreesAt_iff, Tables.lastChange_snoc he.log]
    by_cases hk : calendarId = c ∧ uid = u
    · obtain ⟨rfl, rfl⟩ := hk
      rw [if_pos ⟨rfl, rfl⟩]
      intro e hlast
      obtain rfl := Option.some.inj hlast
      exact he.holds
    · rw [if_neg hk, he.others c u fun h' => hk ⟨h'.1.symm, h'.2.symm⟩]
      exact Tables.agreesAt_iff.mp (h.agrees c u)
  · intro o ho
    rw [he.log]
    rcases he.rows o ho with h' | ⟨hc, hu, -⟩
    · obtain ⟨e, hmem, hkey⟩ := h.logged o h'
      exact ⟨e, List.mem_append_left _ hmem, hkey⟩
    · exact ⟨_, List.mem_append_right _ (List.mem_singleton_self _), hc.symm, hu.symm⟩
  · intro o ho
    rcases he.rows o ho with h' | ⟨-, -, h', -⟩
    · exact mono (h.etag o h')
    · exact h'
  · intro o ho
    rcases he.rows o ho with h' | ⟨-, -, -, ⟨o', ho', hid⟩ | h'⟩
    · exact mono (f := id) (h.objectId o h')
    · rw [hid]; exact mono (f := id) (h.objectId o' ho')
    · exact h'

/-- A statement that leaves calendars, objects and log alone. -/
theorem of_same (h : Synced env w) (hdrawn : w.drawn ≤ w'.drawn)
    (hcal : w'.db.calendars = w.db.calendars) (hobj : w'.db.calendarObjects = w.db.calendarObjects)
    (hlog : w'.db.syncChanges = w.db.syncChanges) : Synced env w' := by
  refine h.frame hdrawn ?_ ?_ ?_ ?_
  · rw [hcal]; exact fun r hr => ⟨r, hr, rfl⟩
  · unfold Tables.changesOf Tables.objectByUid
    rw [hlog, hobj]
    exact fun _ => Or.inl ⟨rfl, rfl⟩
  · rw [hlog]; exact fun _ he => he
  · rw [hobj, hlog]; exact fun _ ho => ⟨ho, fun _ he _ => he⟩

/-- A whole calendar is dropped. -/
theorem dropCalendar (h : Synced env w) (id : String) :
    Synced env (w.after (.deleteCalendar id)) := by
  refine h.frame (le_refl _) (fun r hr => ⟨r, (List.mem_filter.mp hr).1, rfl⟩) (fun c => ?_)
    (fun e he => (List.mem_filter.mp he).1) fun o ho => ?_
  · have hlog : (w.after (.deleteCalendar id)).db.changesOf c =
        (w.db.syncChanges.filter (·.calendarId ≠ id)).filter (·.calendarId = c) := rfl
    have hobj : ∀ uid, (w.after (.deleteCalendar id)).db.objectByUid c uid =
        (w.db.calendarObjects.filter (·.calendarId ≠ id)).find? fun o =>
          o.calendarId = c ∧ o.uid = uid := fun _ => rfl
    by_cases hc : c = id
    · refine Or.inr ?_
      rw [hlog, List.filter_filter, List.filter_eq_nil_iff]
      intro e _
      simp only [hc, ne_eq, decide_not, Bool.and_eq_true, Bool.not_eq_true', decide_eq_true_eq,
        decide_eq_false_iff_not]
      exact fun h' => h'.2 h'.1
    · refine Or.inl ⟨?_, funext fun uid => ?_⟩
      · rw [hlog, List.filter_filter]
        refine List.filter_congr fun e _ => ?_
        by_cases he : e.calendarId = c
        · simp [he, hc]
        · simp [he]
      · rw [hobj, List.find?_filter]
        refine congrArg (fun p => w.db.calendarObjects.find? p) (funext fun o => ?_)
        by_cases ho : o.calendarId = c
        · simp [ho, hc]
        · simp [ho]
  · obtain ⟨ho, hne⟩ := List.mem_filter.mp ho
    refine ⟨ho, fun e he hc => List.mem_filter.mpr ⟨he, ?_⟩⟩
    rwa [← hc] at hne

/-- A calendar is created with a token just drawn. -/
theorem addCalendar (hinj : Function.Injective env.uuid) (h : Synced env w) {r : Calendar} {n : Nat}
    (hn : w.drawn ≤ n) (hn' : n < w'.drawn) (hr : r.syncToken = syncTokenOf (env.uuid n))
    (hcal : w'.db.calendars = w.db.calendars ++ [r])
    (hobj : w'.db.calendarObjects = w.db.calendarObjects)
    (hlog : w'.db.syncChanges = w.db.syncChanges) : Synced env w' := by
  have h' : Synced env ⟨w.db, w'.drawn⟩ :=
    h.of_same (by simp; omega) rfl rfl rfl
  have hnew : ∀ e ∈ w.db.syncChanges, e.syncToken ≠ syncTokenOf (env.uuid n) := by
    intro e he heq
    obtain ⟨k, hk, ht⟩ := h.logToken e he
    have := hinj (syncTokenOf_inj (ht.symm.trans heq))
    omega
  refine ⟨?_, by rw [hlog]; exact h'.logToken, ?_, ?_, by rw [hobj, hlog]; exact h'.logged,
    by rw [hobj]; exact h'.etag, by rw [hobj]; exact h'.objectId⟩
  · rw [hcal]
    intro r' hr'
    rcases List.mem_append.mp hr' with hr' | hr'
    · exact h'.rowToken r' hr'
    · rw [List.mem_singleton.mp hr']
      exact ⟨n, hn', hr⟩
  · rw [hcal, hlog]
    intro r' hr' e he
    rcases List.mem_append.mp hr' with hr' | hr'
    · exact h.apart r' hr' e he
    · rw [List.mem_singleton.mp hr', hr]
      exact hnew e he
  · unfold Tables.LogAgrees Tables.AgreesAt Tables.changesOf Tables.objectByUid
    rw [hlog, hobj]
    exact h.agrees

end Synced

/-! ## The operations of a call -/

section

variable {lib : Lib} {P : Op → Prop}

theorem only_hashPassword (hsalt : P .salt) (password : String) :
    (hashPassword lib password).run.Only P := by
  unfold hashPassword
  have hdraw : (ExceptT.lift (Prog.perform Op.salt) : Call String).run.Only P :=
    ⟨hsalt, fun _ => trivial⟩
  refine only_except_bind hdraw fun salt => ?_
  cases lib.argon2Hash password salt <;> exact trivial

theorem only_createUser (hid : P .nowV7) (hsalt : P .salt)
    (hinsert : ∀ u, P (.sql (.insertUser u)))
    (hread : ∀ username, P (.sql (.selectUserByUsername username)))
    (username : String) (email : Option String) (password : String) :
    (createUser lib username email password).run.Only P := by
  unfold createUser
  refine only_except_bind (only_nowV7 hid) fun id => ?_
  refine only_except_bind (only_hashPassword hsalt password) fun hash => ?_
  refine only_except_bind ?_ fun n => ?_
  · refine only_bind (only_sql (hinsert _)) fun r => ?_
    rcases r with e | n
    · dsimp only
      split <;> exact trivial
    · exact trivial
  · refine only_except_bind (only_sql (hread username)) fun user => ?_
    cases user <;> exact trivial

theorem only_resetPassword (hsalt : P .salt)
    (hupdate : ∀ hash username, P (.sql (.updatePassword hash username)))
    (username newPassword : String) : (resetPassword lib username newPassword).run.Only P := by
  unfold resetPassword
  refine only_except_bind (only_hashPassword hsalt newPassword) fun hash => ?_
  refine only_except_bind (only_sql (hupdate hash username)) fun rows => ?_
  split <;> exact trivial

theorem only_createCalendarWithId (htoken : P .nowV7)
    (hinsert : ∀ c, P (.sql (.insertCalendar c))) (hread : ∀ id, P (.sql (.selectCalendarById id)))
    (id ownerId name description color timezone : String) :
    (createCalendarWithId id ownerId name description color timezone).run.Only P := by
  unfold createCalendarWithId newSyncToken
  refine only_except_bind (only_except_bind (only_nowV7 htoken) fun _ => trivial) fun token => ?_
  refine only_except_bind (only_sql (hinsert _)) fun _ => ?_
  refine only_except_bind (only_sql (hread id)) fun cal => ?_
  cases cal <;> exact trivial

theorem only_updateCalendar (hread : ∀ id, P (.sql (.selectCalendarById id)))
    (hupdate : ∀ name description color timezone id,
      P (.sql (.updateCalendar name description color timezone id)))
    (id : String) (name description color timezone : Option String) :
    (updateCalendar id name description color timezone).run.Only P := by
  unfold updateCalendar
  refine only_except_bind (only_sql (hread id)) fun cal => ?_
  cases cal with
  | none => exact trivial
  | some cal =>
    refine only_except_bind (only_sql (hupdate ..)) fun rows => ?_
    refine only_except_bind (only_sql (hread id)) fun cal => ?_
    cases cal <;> exact trivial

theorem only_deleteCalendar (hdelete : ∀ id, P (.sql (.deleteCalendar id))) (id : String) :
    (deleteCalendar id).run.Only P := by
  unfold deleteCalendar
  refine only_except_bind (only_sql (hdelete id)) fun rows => ?_
  split <;> exact trivial

theorem only_shareCalendar (hid : P .nowV7) (hshare : ∀ s, P (.sql (.upsertShare s)))
    (hread : ∀ calendarId userId, P (.sql (.selectShare calendarId userId)))
    (calendarId userId : String) (permission : Permission) :
    (shareCalendar calendarId userId permission).run.Only P := by
  unfold shareCalendar
  refine only_except_bind (only_nowV7 hid) fun id => ?_
  refine only_except_bind (only_sql (hshare _)) fun rows => ?_
  refine only_except_bind (only_sql (hread calendarId userId)) fun share => ?_
  cases share <;> exact trivial

theorem only_unshareCalendar
    (hdelete : ∀ calendarId userId, P (.sql (.deleteShare calendarId userId)))
    (calendarId userId : String) : (unshareCalendar calendarId userId).run.Only P := by
  unfold unshareCalendar
  refine only_except_bind (only_sql (hdelete calendarId userId)) fun rows => ?_
  split <;> exact trivial

theorem only_bumpCtag {calendarId : String} (htoken : P .nowV7)
    (hupdate : ∀ ctag token, P (.sql (.updateCtag ctag token calendarId))) :
    (bumpCtag calendarId).run.Only P := by
  unfold bumpCtag newSyncToken
  refine only_except_bind (only_except_bind (only_nowV7 htoken) fun _ => trivial) fun token => ?_
  exact only_except_bind (only_sql (hupdate token token)) fun _ => trivial

theorem only_logSyncChange {calendarId uid token : String} {type : ChangeType}
    (hinsert : P (.sql (.insertChange calendarId uid type token))) :
    (logSyncChange calendarId uid type token).run.Only P :=
  only_except_bind (only_sql hinsert) fun _ => trivial

theorem only_deleteObject {calendarId uid : String} (hdelete : P (.sql (.deleteObject calendarId uid)))
    (htoken : P .nowV7)
    (hinsert : ∀ token, P (.sql (.insertChange calendarId uid .deleted token)))
    (hupdate : ∀ ctag token, P (.sql (.updateCtag ctag token calendarId))) :
    (deleteObject calendarId uid).run.Only P := by
  unfold deleteObject
  refine only_except_bind (only_sql hdelete) fun rows => ?_
  dsimp only
  split
  · exact trivial
  · refine only_except_bind (only_nowV7 htoken) fun token => ?_
    refine only_except_bind (only_logSyncChange (hinsert _)) fun _ => ?_
    exact only_except_bind (only_bumpCtag htoken hupdate) fun _ => trivial

theorem only_upsertLog {calendarId uid token : String} {isNew : Bool}
    (hread : P (.sql (.selectObjectByUid calendarId uid))) (htoken : P .nowV7)
    (hinsert : ∀ type, P (.sql (.insertChange calendarId uid type token)))
    (hupdate : ∀ ctag token, P (.sql (.updateCtag ctag token calendarId))) :
    (upsertLog calendarId uid token isNew).Only P := by
  have hreread : (upsertRead calendarId uid isNew).Only P := by
    refine ⟨hread, fun r => ?_⟩
    rcases r with e | (_ | obj) <;> exact trivial
  have hbump : (upsertBump calendarId uid isNew).Only P := by
    refine ⟨htoken, fun b => ⟨hupdate _ _, fun r => ?_⟩⟩
    cases r with
    | ok _ => exact hreread
    | error e => exact trivial
  refine ⟨hinsert _, fun r => ?_⟩
  cases r with
  | ok _ => exact hbump
  | error e => exact trivial

theorem only_upsertObject {calendarId uid icalData : String} {fields : ObjectFields}
    (hread : P (.sql (.selectObjectByUid calendarId uid))) (hetag : P .newV4) (htoken : P .nowV7)
    (hcreate : ∀ id etag, P (.sql (.insertObject
      { id := id, calendarId := calendarId, uid := uid, etag := etag, icalData := icalData,
        toObjectFields := fields })))
    (hmodify : ∀ etag, P (.sql (.updateObject etag icalData fields calendarId uid)))
    (hinsert : ∀ type token, P (.sql (.insertChange calendarId uid type token)))
    (hupdate : ∀ ctag token, P (.sql (.updateCtag ctag token calendarId))) :
    (upsertObject calendarId uid icalData fields).run.Only P := by
  rw [upsertObject_run]
  refine ⟨hread, fun r => ?_⟩
  rcases r with e | (_ | o)
  · exact trivial
  · refine ⟨hetag, fun v => ⟨htoken, fun t => ⟨htoken, fun id => ⟨hcreate _ _, fun r => ?_⟩⟩⟩⟩
    cases r with
    | ok _ => exact only_upsertLog hread htoken (fun type => hinsert type _) hupdate
    | error e => exact trivial
  · refine ⟨hetag, fun v => ⟨htoken, fun t => ⟨hmodify _, fun r => ?_⟩⟩⟩
    cases r with
    | ok _ => exact only_upsertLog hread htoken (fun type => hinsert type _) hupdate
    | error e => exact trivial

end

/-! ## Every call keeps the invariant -/

/-- A statement that writes no object, no log entry and no token. -/
def Sql.Plain : Sql → Prop
  | .insertCalendar _ | .updateCtag .. | .insertObject _ | .updateObject .. | .deleteObject .. |
    .insertChange .. => False
  | _ => True

/-- An operation that draws a value, or a plain statement. -/
def Op.Plain : Op → Prop
  | .sql s => s.Plain
  | .newV4 | .nowV7 | .salt | .utcNow => True

section

variable {env : Env} {lib : Lib} {w : World}

theorem Tables.after_insertUser (t : Tables) (u : User) :
    ∃ us, t.after (.insertUser u) = { t with users := us } := by
  simp only [after, exec]
  split
  · rename_i h
    split at h
    · cases h
    · split at h <;> cases h
      exact ⟨_, rfl⟩
  · exact ⟨t.users, rfl⟩

/-- A share is granted, or its level changed, or nothing happens. -/
theorem Tables.after_upsertShare (t : Tables) (s : CalendarShare) :
    ∃ ss, t.after (.upsertShare s) = { t with calendarShares := ss } ∧
      ∀ calendarId, calendarId ≠ s.calendarId →
        (ss.filter fun s' => s'.calendarId = calendarId) = t.sharesOfCalendar calendarId := by
  simp only [after, exec]
  split
  · rename_i h
    split at h
    · cases h
      refine ⟨_, rfl, fun calendarId hne => ?_⟩
      rw [List.filter_map]
      have same : ((fun s' : CalendarShare => decide (s'.calendarId = calendarId)) ∘ fun s' =>
          if s'.calendarId = s.calendarId ∧ s'.userId = s.userId then
            { s' with permission := s.permission }
          else s') = fun s' => decide (s'.calendarId = calendarId) := by
        funext s'
        simp only [Function.comp_apply]
        split <;> rfl
      rw [same]
      refine (List.map_congr_left fun s' hs' => ?_).trans (List.map_id _)
      have hk : s'.calendarId = calendarId := of_decide_eq_true (List.mem_filter.mp hs').2
      rw [if_neg fun h' => hne (hk.symm.trans h'.1)]
      rfl
    · split at h
      · cases h
      · split at h <;> cases h
        refine ⟨_, rfl, fun calendarId hne => ?_⟩
        rw [List.filter_append]
        simp [hne.symm, sharesOfCalendar]
  · exact ⟨t.calendarShares, rfl, fun _ _ => rfl⟩

/-- A calendar is added, or nothing happens. -/
theorem Tables.after_insertCalendar (t : Tables) (c : Calendar) :
    t.after (.insertCalendar c) = t ∨
      t.after (.insertCalendar c) = { t with calendars := t.calendars ++ [c] } := by
  simp only [after, exec]
  split
  · rename_i he
    split at he
    · cases he
    · split at he <;> cases he
      exact Or.inr rfl
  · exact Or.inl rfl

/-- A plain operation keeps the invariant. -/
theorem Synced.plain (o : Op) (w : World) (hP : o.Plain) (h : Synced env w) :
    Synced env (CaldavMcp.exec env o w).2 := by
  cases o with
  | sql s =>
    rw [exec_sql]
    cases s with
    | insertUser u =>
      obtain ⟨us, hus⟩ := w.db.toTables.after_insertUser u
      refine h.of_same (le_refl _) ?_ ?_ ?_ <;> rw [World.after_tables, hus]
    | upsertShare s =>
      obtain ⟨ss, hss, -⟩ := w.db.toTables.after_upsertShare s
      refine h.of_same (le_refl _) ?_ ?_ ?_ <;> rw [World.after_tables, hss]
    | deleteCalendar id => exact h.dropCalendar id
    | updateCalendar name description color timezone id =>
      refine h.frame (le_refl _) (fun r hr => ?_) (fun _ => Or.inl ⟨rfl, rfl⟩) (fun _ he => he)
        fun _ ho => ⟨ho, fun _ he _ => he⟩
      obtain ⟨r', hr', rfl⟩ := List.mem_map.mp hr
      refine ⟨r', hr', ?_⟩
      split <;> rfl
    | insertCalendar | updateCtag | insertObject | updateObject | deleteObject | insertChange =>
      exact absurd hP id
    | _ => exact h.of_same (le_refl _) rfl rfl rfl
  | newV4 => exact h.draw 1
  | nowV7 => exact h.draw 1
  | salt => exact h.draw 1
  | utcNow => exact h.draw 1

/-- The world after `create_calendar_with_id`. -/
theorem createCalendarWithId_exec (id ownerId name description color timezone : String) :
    ((createCalendarWithId id ownerId name description color timezone).exec env w).2 =
      (w.draw 1).after (.insertCalendar ⟨id, ownerId, name, description, color, timezone,
        syncTokenOf (env.uuid w.drawn), syncTokenOf (env.uuid w.drawn)⟩) := by
  have hdraw : nowV7.run.run (CaldavMcp.exec env) w = (.ok (env.uuid w.drawn), w.draw 1) := rfl
  unfold Call.exec CaldavMcp.createCalendarWithId newSyncToken
  simp only [bind_assoc, pure_bind]
  rw [run_except_bind_ok hdraw, run_sql_bind, run_call, exec_sql]
  dsimp only
  cases (w.draw 1).answer (.insertCalendar ⟨id, ownerId, name, description, color, timezone,
    syncTokenOf (env.uuid w.drawn), syncTokenOf (env.uuid w.drawn)⟩) with
  | error e => rfl
  | ok n =>
    dsimp only
    unfold getCalendarById
    rw [run_sql_bind, run_call, exec_sql]
    rcases ((w.draw 1).after _).answer (.selectCalendarById id) with e | (_ | cal) <;> rfl

theorem Synced.createCalendarWithId (hinj : Function.Injective env.uuid) (h : Synced env w)
    (id ownerId name description color timezone : String) : Synced env
      ((createCalendarWithId id ownerId name description color timezone).exec env w).2 := by
  rw [createCalendarWithId_exec]
  rcases w.db.toTables.after_insertCalendar ⟨id, ownerId, name, description, color, timezone,
    syncTokenOf (env.uuid w.drawn), syncTokenOf (env.uuid w.drawn)⟩ with ht | ht
  · exact h.of_tables ht (Nat.le_succ _)
  · refine h.addCalendar hinj (le_refl _) (Nat.lt_succ_self _) (r := ⟨id, ownerId, name,
      description, color, timezone, syncTokenOf (env.uuid w.drawn),
      syncTokenOf (env.uuid w.drawn)⟩) rfl ?_ ?_ ?_ <;>
      rw [World.after_tables, World.draw_db, ht]

/-- **The invariant holds in every reachable state.** -/
theorem Reachable.synced (hinj : Function.Injective env.uuid) (hw : Reachable env lib w) :
    Synced env w := by
  induction hw with
  | init => exact Synced.init
  | draw n _ ih => exact ih.draw n
  | call hc _ ih =>
    cases hc with
    | createUser username email password =>
      exact run_only Synced.plain (only_createUser trivial trivial
        (fun _ => trivial) (fun _ => trivial) username email password) ih
    | resetPassword username newPassword =>
      exact run_only Synced.plain (only_resetPassword trivial (fun _ _ => trivial)
        username newPassword) ih
    | createCalendar ownerId name description color timezone =>
      exact (ih.draw 1).createCalendarWithId hinj _ ownerId name description color timezone
    | createCalendarWithId id ownerId name description color timezone =>
      exact ih.createCalendarWithId hinj id ownerId name description color timezone
    | updateCalendar id name description color timezone =>
      exact run_only Synced.plain (only_updateCalendar (fun _ => trivial)
        (fun _ _ _ _ _ => trivial) id name description color timezone) ih
    | deleteCalendar id =>
      exact run_only Synced.plain (only_deleteCalendar (fun _ => trivial) id) ih
    | shareCalendar calendarId userId permission =>
      exact run_only Synced.plain (only_shareCalendar trivial (fun _ => trivial)
        (fun _ _ => trivial) calendarId userId permission) ih
    | unshareCalendar calendarId userId =>
      exact run_only Synced.plain (only_unshareCalendar (fun _ _ => trivial) calendarId userId) ih
    | write x =>
      rcases x.exec_cases env _ with ⟨-, hs⟩ | ⟨-, ht, hd⟩
      · obtain ⟨type, m, n, he⟩ := hs.effect
        exact ih.effect hinj he
      · exact ih.of_tables ht hd

end

/-! ## Upserts succeed -/

section

variable {env : Env} {w : World} {calendarId : String}

/-- A new row is accepted wherever the calendar exists: its id has just been drawn. -/
theorem Synced.accepts (hinj : Function.Injective env.uuid) (h : Synced env w)
    (hc : calendarId ∈ w.db.calendarIds) {uid : String}
    (ho : w.db.objectByUid calendarId uid = none) (icalData : String) (fields : ObjectFields) :
    w.db.Accepts (ObjectWrite.newRow env w calendarId uid icalData fields) := by
  refine ⟨fun hid => ?_, ho, hc⟩
  obtain ⟨o, hmem, heq⟩ := List.mem_map.mp hid
  obtain ⟨n, hn, hid'⟩ := h.objectId o hmem
  have := hinj (hid'.symm.trans heq)
  omega

/-- An etag just drawn is in no row. -/
theorem Synced.etag_fresh (hinj : Function.Injective env.uuid) (h : Synced env w)
    {o : CalendarObject} (ho : o ∈ w.db.calendarObjects) : o.etag ≠ etagOf (env.uuid w.drawn) := by
  intro heq
  obtain ⟨n, hn, he⟩ := h.etag o ho
  have := hinj (etagOf_inj (he.symm.trans heq))
  omega

/-- An upsert into a calendar that exists succeeds, and answers the row that is then stored. -/
theorem Synced.upsert (hinj : Function.Injective env.uuid) (h : Synced env w)
    (hc : calendarId ∈ w.db.calendarIds) (uid icalData : String) (fields : ObjectFields) :
    ∃ o w', (upsertObject calendarId uid icalData fields).run.run (exec env) w =
        (.ok (o, (w.db.objectByUid calendarId uid).isNone), w') ∧
      ObjectWrite.Step env w (.upsert calendarId uid icalData fields) w' ∧
      w'.db.objectByUid calendarId uid = some o ∧ o.etag = etagOf (env.uuid w.drawn) ∧
      o.icalData = icalData ∧ o.toObjectFields = fields := by
  cases ho : w.db.objectByUid calendarId uid with
  | none =>
    have hrun := upsert_exec_accepted (h.accepts hinj hc ho icalData fields)
    exact ⟨_, _, hrun, upsert_stored hrun⟩
  | some o =>
    have hrun : (upsertObject calendarId uid icalData fields).run.run (exec env) w = _ :=
      upsert_exec_old ho
    exact ⟨_, _, hrun, upsert_stored hrun⟩

end

/-! ## A small history -/

/-- Library functions for the examples: a fixed password hash, no XML. -/
def sampleLib : Lib where
  argon2Hash _ _ := .ok "$argon2id$v=19$m=19456,t=2,p=1$c2FsdHNhbHQ$aGFzaGhhc2g"
  argon2Verify _ _ := .ok true
  base64Decode _ := none
  readXml _ := []

/-- Alice has an empty calendar `work`. -/
def foundedWorld : World :=
  ((createCalendarWithId "work" (countingEnv.uuid 0) "Work" "" "#0E61B9" "UTC").exec countingEnv
    ((createUser sampleLib "alice" (some "alice@example.com") "secret").exec countingEnv
      ⟨Db.init, 0⟩).2).2

theorem foundedWorld_reachable : Reachable countingEnv sampleLib foundedWorld :=
  .call (.createCalendarWithId ..) (.call (.createUser ..) .init)

end CaldavMcp
