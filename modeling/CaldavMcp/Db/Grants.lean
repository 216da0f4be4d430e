/-
  Access equals history.

  `Deed` is a call that creates, deletes, shares or unshares a calendar, or writes an object.
  A run of deeds leaves a record (`history`, newest first): one `Grant` for each deed that
  answered Ok, since a call that answers an error grants nothing.

  `expected` reads a permission off the record, with no database at hand: the creator of the
  current calendar may read and write, anyone else has what the last `share_calendar` since
  its creation gave them, unless it was taken back. `Recorded` says that the tables agree with
  the record; every deed keeps that, so `get_user_permission` answers what is expected.
-/
import CaldavMcp.Db.Access

namespace CaldavMcp

open Program

/-! ## The calls, one by one -/

namespace Tables

variable {t : Tables}

theorem shareOf_key {calendarId userId : String} {s : CalendarShare}
    (hs : t.shareOf calendarId userId = some s) :
    s.calendarId = calendarId ∧ s.userId = userId := by
  have hk := List.find?_some hs
  simpa using hk

/-- A share is stored with the level asked for, or the statement fails. -/
theorem upsertShare_cases (t : Tables) (s : CalendarShare) :
    (∃ n t', t.exec (.upsertShare s) = .ok (n, t') ∧ t'.calendars = t.calendars ∧
      ∀ calendarId userId, (t'.shareOf calendarId userId).map (·.permission) =
        if calendarId = s.calendarId ∧ userId = s.userId then some s.permission
        else (t.shareOf calendarId userId).map (·.permission)) ∨
    ∃ e, t.exec (.upsertShare s) = .error e := by
  simp only [exec]
  split
  · rename_i hsome
    refine Or.inl ⟨_, _, rfl, rfl, fun calendarId userId => ?_⟩
    unfold shareOf
    rw [List.find?_map]
    have same : ((fun s' : CalendarShare => decide (s'.calendarId = calendarId ∧
        s'.userId = userId)) ∘ fun s' =>
        if s'.calendarId = s.calendarId ∧ s'.userId = s.userId then
          { s' with permission := s.permission }
        else s') = fun s' => decide (s'.calendarId = calendarId ∧ s'.userId = userId) := by
      funext s'
      simp only [Function.comp_apply]
      split <;> rfl
    rw [same]
    cases hs : t.calendarShares.find? fun s' => s'.calendarId = calendarId ∧ s'.userId = userId with
    | none =>
      rw [if_neg]
      · rfl
      · rintro ⟨rfl, rfl⟩
        rw [shareOf, hs] at hsome
        cases hsome
    | some s' =>
      obtain ⟨h1, h2⟩ := shareOf_key (t := t) hs
      rw [Option.map_some, Option.map_some, h1, h2]
      split <;> rfl
  · rename_i hnone
    split
    · exact Or.inr ⟨_, rfl⟩
    · split
      · refine Or.inl ⟨_, _, rfl, rfl, fun calendarId userId => ?_⟩
        unfold shareOf
        rw [List.find?_append]
        split
        · rename_i hk
          have hfree : t.calendarShares.find? (fun s' => s'.calendarId = calendarId ∧
              s'.userId = userId) = none := by
            rw [hk.1, hk.2]
            exact Option.not_isSome_iff_eq_none.mp hnone
          rw [hfree, hk.1, hk.2]
          simp
        · rename_i hk
          have hne : ¬ (s.calendarId = calendarId ∧ s.userId = userId) :=
            fun h => hk ⟨h.1.symm, h.2.symm⟩
          simp [hne]
      · exact Or.inr ⟨_, rfl⟩

theorem shareOf_deleteShare (t : Tables) (calendarId userId calendarId' userId' : String) :
    (t.after (.deleteShare calendarId userId)).shareOf calendarId' userId' =
      if calendarId' = calendarId ∧ userId' = userId then none
      else t.shareOf calendarId' userId' := by
  show List.find? _ (List.filter _ _) = _
  rw [List.find?_filter]
  split
  · rename_i h
    rw [h.1, h.2, List.find?_eq_none]
    intro s _
    simp only [decide_eq_true_eq, decide_not, Bool.not_eq_true']
    rintro ⟨h1, h2⟩
    simp [h2] at h1
  · rename_i h
    unfold shareOf
    congr 1
    funext s
    by_cases hk : s.calendarId = calendarId' ∧ s.userId = userId'
    · have hne : ¬ (s.calendarId = calendarId ∧ s.userId = userId) :=
        fun h' => h ⟨hk.1.symm.trans h'.1, hk.2.symm.trans h'.2⟩
      rw [decide_eq_true hk, decide_eq_true hne]
      rfl
    · rw [decide_eq_false hk]
      simp

/-- The shares of one calendar decide its `shareOf`. -/
theorem shareOf_eq (t : Tables) (calendarId userId : String) :
    t.shareOf calendarId userId =
      (t.sharesOfCalendar calendarId).find? fun s => s.userId = userId := by
  unfold shareOf sharesOfCalendar
  rw [List.find?_filter]
  congr 1
  funext s
  simp

/-- A calendar that is not there has no share. -/
theorem Ok.shareOf_none (h : t.Ok) {calendarId : String} (hc : calendarId ∉ t.calendarIds)
    (userId : String) : t.shareOf calendarId userId = none := by
  by_contra hs
  obtain ⟨s, hs⟩ := Option.ne_none_iff_exists'.mp hs
  exact hc (h.calendar_of_share hs)

end Tables

section

variable {env : Env} {w : World}

theorem deleteCalendar_exec (env : Env) (w : World) (id : String) :
    (deleteCalendar id).exec env w =
      (if id ∈ w.db.calendarIds then .ok ()
        else .error (.notFound ("Calendar " ++ id ++ " not found")),
        w.after (.deleteCalendar id)) := by
  have ha : w.answer (.deleteCalendar id) =
    .ok (w.db.calendars.filter (·.id = id)).length := rfl
  have hrows : (w.db.calendars.filter (·.id = id)).length = 0 ↔ id ∉ w.db.calendarIds := by
    rw [List.length_eq_zero_iff, List.filter_eq_nil_iff]
    unfold Tables.calendarIds
    rw [List.mem_map]
    simp
  unfold Call.exec deleteCalendar
  rw [run_sql_bind, run_call, exec_sql, ha]
  dsimp only
  by_cases hc : id ∈ w.db.calendarIds
  · rw [if_pos hc, if_neg fun h => hrows.mp h hc]
    rfl
  · rw [if_neg hc, if_pos (hrows.mpr hc)]
    rfl

theorem unshareCalendar_exec (env : Env) (w : World) (calendarId userId : String) :
    (unshareCalendar calendarId userId).exec env w =
      (if (w.db.shareOf calendarId userId).isSome then .ok ()
        else .error (.notFound "Share not found"), w.after (.deleteShare calendarId userId)) := by
  have ha : w.answer (.deleteShare calendarId userId) = .ok (w.db.calendarShares.filter
    fun s => s.calendarId = calendarId ∧ s.userId = userId).length := rfl
  have hrows : (w.db.calendarShares.filter fun s =>
      s.calendarId = calendarId ∧ s.userId = userId).length = 0 ↔
      ¬ (w.db.shareOf calendarId userId).isSome := by
    rw [List.length_eq_zero_iff, List.filter_eq_nil_iff]
    unfold Tables.shareOf
    rw [List.find?_isSome]
    simp
  unfold Call.exec unshareCalendar
  rw [run_sql_bind, run_call, exec_sql, ha]
  dsimp only
  by_cases hs : (w.db.shareOf calendarId userId).isSome
  · rw [if_pos hs, if_neg fun h => hrows.mp h hs]
    rfl
  · rw [if_neg hs, if_pos (hrows.mpr hs)]
    rfl

/-- `share_calendar` answers Ok and stores the level, or answers an error and stores nothing. -/
theorem shareCalendar_exec (env : Env) (w : World) (calendarId userId : String)
    (permission : Permission) :
    (∃ s t', s.calendarId = calendarId ∧ s.userId = userId ∧
      ((shareCalendar calendarId userId permission).exec env w).1 = .ok s ∧
      ((shareCalendar calendarId userId permission).exec env w).2.db.toTables = t' ∧
      t'.calendars = w.db.calendars ∧
      ∀ calendarId' userId', (t'.shareOf calendarId' userId').map (·.permission) =
        if calendarId' = calendarId ∧ userId' = userId then some permission
        else (w.db.shareOf calendarId' userId').map (·.permission)) ∨
    (∃ e, ((shareCalendar calendarId userId permission).exec env w).1 = .error e) ∧
      ((shareCalendar calendarId userId permission).exec env w).2.db.toTables =
        w.db.toTables := by
  have hdraw : nowV7.run.run (CaldavMcp.exec env) w = (.ok (env.uuid w.drawn), w.draw 1) := rfl
  have hrun : (shareCalendar calendarId userId permission).exec env w =
      match (w.draw 1).answer (.upsertShare ⟨env.uuid w.drawn, calendarId, userId, permission⟩) with
      | .ok _ =>
        match ((w.draw 1).after (.upsertShare
          ⟨env.uuid w.drawn, calendarId, userId, permission⟩)).db.shareOf calendarId userId with
        | some s => (.ok s, (w.draw 1).after (.upsertShare
          ⟨env.uuid w.drawn, calendarId, userId, permission⟩))
        | none => (.error (.database (.failed
          "no rows returned by a query that expected to return at least one row")),
          (w.draw 1).after (.upsertShare ⟨env.uuid w.drawn, calendarId, userId, permission⟩))
      | .error e => (.error (.database e), (w.draw 1).after (.upsertShare
          ⟨env.uuid w.drawn, calendarId, userId, permission⟩)) := by
    unfold Call.exec shareCalendar
    rw [run_except_bind_ok hdraw, run_sql_bind, run_call, exec_sql]
    dsimp only
    cases (w.draw 1).answer
        (.upsertShare ⟨env.uuid w.drawn, calendarId, userId, permission⟩) with
    | error e => rfl
    | ok n =>
      dsimp only
      rw [run_sql_bind, run_call, exec_sql, show World.answer _ (.selectShare calendarId userId) =
        .ok (Tables.shareOf _ calendarId userId) from rfl]
      dsimp only
      cases Tables.shareOf _ calendarId userId <;> rfl
  rw [hrun]
  rcases w.db.toTables.upsertShare_cases ⟨env.uuid w.drawn, calendarId, userId, permission⟩ with
    ⟨n, t', he, hcal, hview⟩ | ⟨e, he⟩
  · have ha : (w.draw 1).answer (.upsertShare
        ⟨env.uuid w.drawn, calendarId, userId, permission⟩) = .ok n := (Tables.of_exec_ok he).1
    have ht : ((w.draw 1).after (.upsertShare
        ⟨env.uuid w.drawn, calendarId, userId, permission⟩)).db.toTables = t' :=
      (Tables.of_exec_ok he).2
    have hself := hview calendarId userId
    rw [if_pos ⟨rfl, rfl⟩] at hself
    rw [ha]
    dsimp only
    rw [ht]
    cases hs : t'.shareOf calendarId userId with
    | none => rw [hs] at hself; cases hself
    | some s =>
      obtain ⟨h1, h2⟩ := Tables.shareOf_key hs
      exact Or.inl ⟨s, t', h1, h2, rfl, ht, hcal, hview⟩
  · have ha : (w.draw 1).answer (.upsertShare
        ⟨env.uuid w.drawn, calendarId, userId, permission⟩) = .error e :=
      (Tables.of_exec_error he).1
    have ht : ((w.draw 1).after (.upsertShare
        ⟨env.uuid w.drawn, calendarId, userId, permission⟩)).db.toTables = w.db.toTables :=
      (Tables.of_exec_error he).2
    rw [ha]
    exact Or.inr ⟨⟨_, rfl⟩, ht⟩

/-- `create_calendar_with_id` answers the new row, or answers an error and creates nothing. -/
theorem createCalendarWithId_cases (env : Env) (w : World)
    (id ownerId name description color timezone : String) :
    (∃ r : Calendar, r = ⟨id, ownerId, name, description, color, timezone,
        syncTokenOf (env.uuid w.drawn), syncTokenOf (env.uuid w.drawn)⟩ ∧ id ∉ w.db.calendarIds ∧
      ((createCalendarWithId id ownerId name description color timezone).exec env w).1 = .ok r ∧
      ((createCalendarWithId id ownerId name description color timezone).exec env
        w).2.db.toTables = { w.db.toTables with calendars := w.db.calendars ++ [r] }) ∨
    (id ∈ w.db.calendarIds ∨ ownerId ∉ w.db.users.map (·.id)) ∧
      (∃ e, ((createCalendarWithId id ownerId name description color timezone).exec env w).1 =
        .error e) ∧
      ((createCalendarWithId id ownerId name description color timezone).exec env
        w).2.db.toTables = w.db.toTables := by
  have hdraw : nowV7.run.run (CaldavMcp.exec env) w = (.ok (env.uuid w.drawn), w.draw 1) := rfl
  rw [createCalendarWithId_exec]
  generalize hrow : (⟨id, ownerId, name, description, color, timezone,
    syncTokenOf (env.uuid w.drawn), syncTokenOf (env.uuid w.drawn)⟩ : Calendar) = r
  have hid : r.id = id := by rw [← hrow]
  have howner : r.ownerId = ownerId := by rw [← hrow]
  have hrun : ((createCalendarWithId id ownerId name description color timezone).exec env w).1 =
      (((w.draw 1).answer (.insertCalendar r)).mapError AppError.database).bind fun _ =>
        (((w.draw 1).after (.insertCalendar r)).db.calendarById id).elim
          (.error (.internal "Calendar created but not found")) .ok := by
    unfold Call.exec CaldavMcp.createCalendarWithId newSyncToken
    simp only [bind_assoc, pure_bind]
    rw [run_except_bind_ok hdraw, hrow, run_sql_bind, run_call, exec_sql]
    dsimp only
    cases (w.draw 1).answer (.insertCalendar r) with
    | error e => rfl
    | ok n =>
      dsimp only
      unfold getCalendarById
      rw [run_sql_bind, run_call, exec_sql, show World.answer _ (.selectCalendarById id) =
        .ok (Tables.calendarById _ id) from rfl]
      dsimp only [Except.mapError, Except.bind]
      cases Tables.calendarById _ id <;> rfl
  rw [hrun]
  by_cases hfree : id ∈ w.db.calendarIds
  · have he : w.db.toTables.exec (.insertCalendar r) = .error (.primaryKey "calendars.id") := by
      simp only [Tables.exec]
      rw [if_pos (any_eq_iff.mpr (by rw [hid]; exact hfree))]
    obtain ⟨ha, ht⟩ := Tables.of_exec_error he
    rw [show (w.draw 1).answer (.insertCalendar r) = _ from ha]
    exact Or.inr ⟨Or.inl hfree, ⟨_, rfl⟩, ht⟩
  · have hnot : ¬ (w.db.calendars.any (·.id = r.id)) = true := by
      rw [any_eq_iff, hid]; exact hfree
    by_cases hu : (w.db.users.any (·.id = r.ownerId)) = true
    · have he : w.db.toTables.exec (.insertCalendar r) =
          .ok (1, { w.db.toTables with calendars := w.db.calendars ++ [r] }) := by
        simp only [Tables.exec]
        rw [if_neg hnot, if_pos hu]
      have hfind : Tables.calendarById { w.db.toTables with calendars := w.db.calendars ++ [r] } id =
          some r := by
        have hnone : w.db.calendars.find? (fun c => c.id = id) = none := by
          rw [List.find?_eq_none]
          intro c hc hcid
          exact hfree (List.mem_map.mpr ⟨c, hc, of_decide_eq_true hcid⟩)
        unfold Tables.calendarById
        rw [List.find?_append, hnone]
        simp [hid]
      obtain ⟨ha, ht⟩ := Tables.of_exec_ok he
      rw [show (w.draw 1).answer (.insertCalendar r) = _ from ha]
      dsimp only
      rw [show ((w.draw 1).after (.insertCalendar r)).db.toTables = _ from ht, hfind]
      exact Or.inl ⟨r, rfl, hfree, rfl, rfl⟩
    · have he : w.db.toTables.exec (.insertCalendar r) = .error .foreignKey := by
        simp only [Tables.exec]
        rw [if_neg hnot, if_neg hu]
      obtain ⟨ha, ht⟩ := Tables.of_exec_error he
      rw [show (w.draw 1).answer (.insertCalendar r) = _ from ha]
      rw [any_eq_iff, howner] at hu
      exact Or.inr ⟨Or.inr hu, ⟨_, rfl⟩, ht⟩

end

/-! ## Deeds and their record -/

/-- A call of a run. -/
inductive Deed where
  | createCalendar (ownerId name description color timezone : String)
  | createCalendarWithId (id ownerId name description color timezone : String)
  | deleteCalendar (id : String)
  | shareCalendar (calendarId userId : String) (permission : Permission)
  | unshareCalendar (calendarId userId : String)
  | write (x : ObjectWrite)

/-- What a deed that answered Ok has done. -/
inductive Grant where
  | created (calendarId ownerId : String)
  | deleted (calendarId : String)
  | shared (calendarId userId : String) (permission : Permission)
  | unshared (calendarId userId : String)
  deriving DecidableEq, Repr

/-- The note of a call, if it answered Ok. -/
def noted {α : Type} (note : α → Grant) : Except AppError α × World → List Grant × World
  | (.ok a, w) => ([note a], w)
  | (.error _, w) => ([], w)

theorem noted_ok {α : Type} {note : α → Grant} {out : Except AppError α × World} {a : α}
    (h : out.1 = .ok a) : noted note out = ([note a], out.2) := by
  cases out
  cases h
  rfl

theorem noted_error {α : Type} {note : α → Grant} {out : Except AppError α × World} {e : AppError}
    (h : out.1 = .error e) : noted note out = ([], out.2) := by
  cases out
  cases h
  rfl

/-- A deed's notes, and the world after it. -/
def Deed.exec (env : Env) (w : World) : Deed → List Grant × World
  | .createCalendar ownerId name description color timezone =>
    noted (fun cal => .created cal.id ownerId)
      ((CaldavMcp.createCalendar ownerId name description color timezone).exec env w)
  | .createCalendarWithId id ownerId name description color timezone =>
    noted (fun cal => .created cal.id ownerId)
      ((CaldavMcp.createCalendarWithId id ownerId name description color timezone).exec env w)
  | .deleteCalendar id =>
    noted (fun _ => .deleted id) ((CaldavMcp.deleteCalendar id).exec env w)
  | .shareCalendar calendarId userId permission =>
    noted (fun _ => .shared calendarId userId permission)
      ((CaldavMcp.shareCalendar calendarId userId permission).exec env w)
  | .unshareCalendar calendarId userId =>
    noted (fun _ => .unshared calendarId userId)
      ((CaldavMcp.unshareCalendar calendarId userId).exec env w)
  | .write x => ([], (x.call.exec env w).2)

/-- A run, with its record, newest note first. -/
def history (env : Env) : List Deed → List Grant × World → List Grant × World
  | [], s => s
  | d :: ds, (log, w) => history env ds ((d.exec env w).1 ++ log, (d.exec env w).2)

/-- Who created the current calendar. -/
def creatorOf (calendarId : String) : List Grant → Option String
  | [] => none
  | .created calendarId' ownerId :: log =>
    if calendarId' = calendarId then some ownerId else creatorOf calendarId log
  | _ :: log => creatorOf calendarId log

/-- The level of the last share since the calendar was created, unless it was taken back. -/
def grantOf (calendarId userId : String) : List Grant → Option Permission
  | [] => none
  | .created calendarId' _ :: log =>
    if calendarId' = calendarId then none else grantOf calendarId userId log
  | .shared calendarId' userId' permission :: log =>
    if calendarId' = calendarId ∧ userId' = userId then some permission
    else grantOf calendarId userId log
  | .unshared calendarId' userId' :: log =>
    if calendarId' = calendarId ∧ userId' = userId then none else grantOf calendarId userId log
  | .deleted _ :: log => grantOf calendarId userId log

/-- The permission the record gives a user. -/
def expected (calendarId userId : String) (log : List Grant) : Option Permission :=
  if creatorOf calendarId log = some userId then some .readWrite
  else grantOf calendarId userId log

/-! ## The tables agree with the record -/

/-- The owner of each calendar is its creator, and its shares are those granted. -/
structure Recorded (t : Tables) (log : List Grant) : Prop where
  owner : ∀ calendarId r, t.calendarById calendarId = some r →
    creatorOf calendarId log = some r.ownerId
  share : ∀ calendarId ∈ t.calendarIds, ∀ userId,
    (t.shareOf calendarId userId).map (·.permission) = grantOf calendarId userId log

namespace Recorded

variable {env : Env} {t t' : Tables} {log : List Grant} {w : World}

/-- From agreeing tables the permission is the expected one. -/
theorem permissionOf (h : Recorded t log) {calendarId : String}
    (hc : calendarId ∈ t.calendarIds) (userId : String) :
    t.permissionOf calendarId userId = expected calendarId userId log := by
  obtain ⟨r, hr⟩ := Option.isSome_iff_exists.mp (Tables.mem_calendarIds.mp hc)
  have howns : t.Owns userId calendarId ↔ creatorOf calendarId log = some userId := by
    rw [h.owner calendarId r hr]
    constructor
    · rintro ⟨r', hr', rfl⟩
      rw [hr] at hr'
      rw [Option.some.inj hr']
    · exact fun ho => ⟨r, hr, Option.some.inj ho⟩
  unfold expected
  by_cases ho : t.Owns userId calendarId
  · rw [if_pos (howns.mp ho), ho.permissionOf]
  · rw [if_neg (mt howns.mpr ho), Tables.permissionOf_of_not_owns ho, h.share calendarId hc]

/-- A change that keeps owners and shares of the calendars that remain. -/
theorem frame (h : Recorded t log)
    (howner : ∀ calendarId r, t'.calendarById calendarId = some r →
      (t.calendarById calendarId).map (·.ownerId) = some r.ownerId)
    (hshare : ∀ calendarId ∈ t'.calendarIds, ∀ userId,
      (t'.shareOf calendarId userId).map (·.permission) =
        (t.shareOf calendarId userId).map (·.permission)) : Recorded t' log := by
  have hback : ∀ {calendarId r}, t'.calendarById calendarId = some r →
      ∃ r', t.calendarById calendarId = some r' ∧ r'.ownerId = r.ownerId := by
    intro calendarId r hr
    exact Option.map_eq_some_iff.mp (howner calendarId r hr)
  refine ⟨fun calendarId r hr => ?_, fun calendarId hc userId => ?_⟩
  · obtain ⟨r', hr', ho⟩ := hback hr
    rw [h.owner calendarId r' hr', ho]
  · obtain ⟨r, hr⟩ := Option.isSome_iff_exists.mp (Tables.mem_calendarIds.mp hc)
    obtain ⟨r', hr', -⟩ := hback hr
    have hc' : calendarId ∈ t.calendarIds := by
      rw [Tables.mem_calendarIds, hr']
      rfl
    rw [hshare calendarId hc userId, h.share calendarId hc' userId]

theorem created (h : Recorded t log) (hok : t.Ok) {r : Calendar}
    (hfree : r.id ∉ t.calendarIds) (ht : t' = { t with calendars := t.calendars ++ [r] }) :
    Recorded t' (.created r.id r.ownerId :: log) := by
  subst ht
  have hnone : t.calendarById r.id = none := by
    rw [Tables.mem_calendarIds] at hfree
    simpa using hfree
  have hfind : ∀ calendarId, Tables.calendarById { t with calendars := t.calendars ++ [r] }
      calendarId = if r.id = calendarId then some r else t.calendarById calendarId := by
    intro calendarId
    unfold Tables.calendarById at hnone ⊢
    rw [List.find?_append]
    split
    · rename_i hid
      rw [← hid, hnone]
      simp
    · rename_i hid
      simp [hid]
  refine ⟨fun calendarId r' hr' => ?_, fun calendarId hc userId => ?_⟩
  · rw [hfind] at hr'
    unfold creatorOf
    split at hr'
    · rename_i hid
      rw [if_pos hid, Option.some.inj hr']
    · rename_i hid
      rw [if_neg hid, h.owner calendarId r' hr']
  · rw [Tables.mem_calendarIds, hfind] at hc
    have hshare : Tables.shareOf { t with calendars := t.calendars ++ [r] } calendarId userId =
      t.shareOf calendarId userId := rfl
    rw [hshare]
    unfold grantOf
    split at hc
    · rename_i hid
      rw [if_pos hid, hok.shareOf_none (hid ▸ hfree)]
      rfl
    · rename_i hid
      rw [if_neg hid, h.share calendarId (Tables.mem_calendarIds.mpr hc)]

theorem createWithId (h : Recorded w.db.toTables log)
    (id ownerId name description color timezone : String) :
    Recorded ((Deed.createCalendarWithId id ownerId name description color timezone).exec env
      w).2.db.toTables
      (((Deed.createCalendarWithId id ownerId name description color timezone).exec env w).1 ++
        log) := by
  rcases createCalendarWithId_cases env w id ownerId name description color timezone with
    ⟨r, hr, hfree, ha, ht⟩ | ⟨-, ⟨e, ha⟩, ht⟩
  · obtain rfl : r.id = id := by rw [hr]
    obtain rfl : r.ownerId = ownerId := by rw [hr]
    rw [show (Deed.createCalendarWithId r.id r.ownerId name description color timezone).exec env w =
      _ from noted_ok ha]
    exact h.created w.db.ok hfree ht
  · rw [show (Deed.createCalendarWithId id ownerId name description color timezone).exec env w =
      _ from noted_error ha]
    dsimp only
    rw [ht]
    exact h

/-- **One deed.** -/
theorem step (h : Recorded w.db.toTables log) (d : Deed) :
    Recorded (d.exec env w).2.db.toTables ((d.exec env w).1 ++ log) := by
  cases d with
  | createCalendar ownerId name description color timezone =>
    have h' : Recorded (w.draw 1).db.toTables log := h
    exact h'.createWithId (env.uuid w.drawn) ownerId name description color timezone
  | createCalendarWithId id ownerId name description color timezone =>
    exact h.createWithId id ownerId name description color timezone
  | deleteCalendar id =>
    -- a note of a deletion counts for nothing, and so does one that is missing
    have hlog : Recorded (w.after (.deleteCalendar id)).db.toTables log := by
      refine h.frame (fun calendarId r hr => ?_) fun calendarId hc userId => ?_
      · rw [World.after_tables, Tables.calendarById_deleteCalendar] at hr
        split at hr
        · cases hr
        · rw [hr]
          rfl
      · rw [Tables.mem_calendarIds, World.after_tables,
          Tables.calendarById_deleteCalendar] at hc
        split at hc
        · cases hc
        · rename_i hne
          rw [Tables.shareOf_eq, Tables.shareOf_eq, World.after_tables,
            (Tables.sameCalendar_deleteCalendar w.db.toTables hne).shares]
    have hrun := deleteCalendar_exec env w id
    by_cases hc : id ∈ w.db.calendarIds
    · rw [if_pos hc] at hrun
      rw [show (Deed.deleteCalendar id).exec env w = _ from noted_ok (congrArg Prod.fst hrun), hrun]
      exact ⟨hlog.owner, hlog.share⟩
    · rw [if_neg hc] at hrun
      rw [show (Deed.deleteCalendar id).exec env w = _ from noted_error (congrArg Prod.fst hrun),
        hrun]
      exact hlog
  | shareCalendar calendarId userId permission =>
    rcases shareCalendar_exec env w calendarId userId permission with
      ⟨s, t', -, -, ha, ht, hcal, hview⟩ | ⟨⟨e, ha⟩, ht⟩
    · rw [show (Deed.shareCalendar calendarId userId permission).exec env w = _ from noted_ok ha]
      dsimp only
      rw [ht]
      have hrow : ∀ c, t'.calendarById c = w.db.calendarById c := by
        intro c
        unfold Tables.calendarById
        rw [hcal]
      refine ⟨fun c r hr => h.owner c r ((hrow c).symm.trans hr), fun c hc u => ?_⟩
      rw [Tables.mem_calendarIds, hrow] at hc
      rw [hview]
      show _ = grantOf c u (_ :: log)
      unfold grantOf
      by_cases hk : c = calendarId ∧ u = userId
      · rw [if_pos hk, if_pos ⟨hk.1.symm, hk.2.symm⟩]
      · rw [if_neg hk, if_neg fun h' => hk ⟨h'.1.symm, h'.2.symm⟩,
          h.share c (Tables.mem_calendarIds.mpr hc)]
    · rw [show (Deed.shareCalendar calendarId userId permission).exec env w = _ from
        noted_error ha]
      dsimp only
      rw [ht]
      exact h
  | unshareCalendar calendarId userId =>
    have hview := w.db.toTables.shareOf_deleteShare calendarId userId
    have hrun := unshareCalendar_exec env w calendarId userId
    by_cases hs : (w.db.shareOf calendarId userId).isSome
    · rw [if_pos hs] at hrun
      rw [show (Deed.unshareCalendar calendarId userId).exec env w = _ from
        noted_ok (congrArg Prod.fst hrun), hrun]
      refine ⟨h.owner, fun c hc u => ?_⟩
      show (Tables.shareOf (w.db.toTables.after _) c u).map _ = _
      rw [hview]
      show _ = grantOf c u (_ :: log)
      unfold grantOf
      by_cases hk : c = calendarId ∧ u = userId
      · rw [if_pos hk, if_pos ⟨hk.1.symm, hk.2.symm⟩]
        rfl
      · rw [if_neg hk, if_neg fun h' => hk ⟨h'.1.symm, h'.2.symm⟩]
        exact h.share c hc u
    · rw [if_neg hs] at hrun
      rw [show (Deed.unshareCalendar calendarId userId).exec env w = _ from
        noted_error (congrArg Prod.fst hrun), hrun]
      refine ⟨h.owner, fun c hc u => ?_⟩
      show (Tables.shareOf (w.db.toTables.after _) c u).map _ = _
      rw [hview]
      show _ = grantOf c u log
      by_cases hk : c = calendarId ∧ u = userId
      · rw [if_pos hk, hk.1, hk.2, ← h.share calendarId (hk.1 ▸ hc) userId,
          Option.not_isSome_iff_eq_none.mp hs]
      · rw [if_neg hk]
        exact h.share c hc u
  | write x =>
    have hsame : Tables.SameOwners w.db.toTables (x.call.exec env w).2.db.toTables :=
      run_ofWrite (only_objectWrite x) w
    refine h.frame (fun c r hr => ?_) fun c _ u => ?_
    · rw [← hsame.owners c, show (x.call.exec env w).2.db.calendarById c = some r from hr]
      rfl
    · unfold Tables.shareOf
      rw [show ((Deed.write x).exec env w).2.db.calendarShares = w.db.calendarShares from
        hsame.shares]

/-- **A whole run.** -/
theorem run (ds : List Deed) (h : Recorded w.db.toTables log) :
    Recorded (history env ds (log, w)).2.db.toTables (history env ds (log, w)).1 := by
  induction ds generalizing log w with
  | nil => exact h
  | cons d ds ih => exact ih (h.step d)

/-- Where there is no calendar there is nothing to record. -/
theorem empty (h : t.calendars = []) : Recorded t [] := by
  have hnone : ∀ calendarId, t.calendarById calendarId = none := by
    intro calendarId
    unfold Tables.calendarById
    rw [h]
    rfl
  refine ⟨fun calendarId r hr => ?_, fun calendarId hc => ?_⟩
  · rw [hnone] at hr
    cases hr
  · rw [Tables.mem_calendarIds, hnone] at hc
    cases hc

end Recorded

/-- **Access equals history.** After any run from a database without calendars, the permission
    on a calendar that exists is the one its record gives, and `list_calendars_for_user` lists
    the calendar once if there is a permission and not at all otherwise. -/
theorem access_equals_history (env : Env) (w₀ : World) (h₀ : w₀.db.calendars = [])
    (ds : List Deed) {log : List Grant} {w : World} (hrun : history env ds ([], w₀) = (log, w))
    (calendarId : String) (hc : calendarId ∈ w.db.calendarIds) (userId : String) :
    ((getUserPermission calendarId userId).exec env w).1 =
        .ok (expected calendarId userId log) ∧
      ∃ listed, ((listCalendarsForUser userId).exec env w).1 = .ok listed ∧
        (listed.map (·.id)).count calendarId =
          if (expected calendarId userId log).isSome then 1 else 0 := by
  have hrec : Recorded w.db.toTables log := by
    have h := @Recorded.run env [] w₀ ds (Recorded.empty h₀)
    rwa [hrun] at h
  have hperm := hrec.permissionOf hc userId
  refine ⟨?_, w.db.calendarsFor userId, rfl, ?_⟩
  · rw [getUserPermission_exec, hperm]
  · rw [← hperm, w.db.ok.calendarsFor_ids_nodup.count]
    refine if_congr ?_ rfl rfl
    exact w.db.ok.mem_calendarsFor_ids

/-- Alice shares a calendar with bob, deletes it and creates it again. -/
def recreation : List Deed :=
  [.createCalendarWithId "work" "alice-id" "Work" "" "#0E61B9" "UTC",
    .shareCalendar "work" "bob-id" .read, .deleteCalendar "work",
    .createCalendarWithId "work" "alice-id" "Work" "" "#0E61B9" "UTC"]

/-- The users of the small database, without a calendar. -/
def usersWorld : World :=
  ⟨⟨{ aliceTables with calendars := [] }, by constructor <;> decide⟩, 0⟩

/-- The grant does not survive the calendar. -/
theorem access_equals_history_recreation :
    ((getUserPermission "work" "bob-id").exec countingEnv
        (history countingEnv recreation ([], usersWorld)).2).1 = .ok none :=
  (access_equals_history countingEnv usersWorld rfl recreation rfl "work" (by decide)
    "bob-id").1

end CaldavMcp
