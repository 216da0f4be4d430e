/-
  Events of the simple mode, over whole runs.

  `add_event` stores an event in a calendar of the user, under a new uid. From then on anyone
  may do anything. As long as no statement deletes the event (`Op.Spares`), its row is there:
  that is `Undeleted.row`, from one lemma on a statement. But `list_events` and `delete_event`
  choose their calendar anew, as the first accessible one by name, so they find the event
  exactly when its calendar is that one.
-/
import CaldavMcp.Mcp.Outcomes

namespace CaldavMcp

open Program

/-! ## Runs that do not delete an event -/

/-- Not a deletion of the event, nor of its calendar. -/
def Op.Spares (calendarId uid : String) : Op → Prop
  | .sql (.deleteObject calendarId' uid') => ¬ (calendarId = calendarId' ∧ uid = uid')
  | .sql (.deleteCalendar id) => calendarId ≠ id
  | _ => True

/-- Draws and calls, one after the other, that do not delete the event. -/
inductive Undeleted (env : Env) (lib : Lib) (calendarId uid : String) (w : World) : World → Prop
  | refl : Undeleted env lib calendarId uid w w
  | draw {w' : World} (n : Nat) (h : Undeleted env lib calendarId uid w w') :
      Undeleted env lib calendarId uid w (w'.draw n)
  | call {w' : World} {α : Type} {c : Call α} (hc : DbCall lib c)
      (hspares : c.run.Only (Op.Spares calendarId uid))
      (h : Undeleted env lib calendarId uid w w') :
      Undeleted env lib calendarId uid w (c.exec env w').2

section

variable {env : Env} {lib : Lib} {w w' : World} {calendarId uid : String}

/-- A statement that does not delete the event leaves a row for it. -/
theorem row_spared (s : Sql) (hs : (Op.sql s).Spares calendarId uid) (t : Tables)
    (h : (t.objectByUid calendarId uid).isSome) :
    ((t.after s).objectByUid calendarId uid).isSome := by
  cases s with
  | insertObject o =>
    by_cases ha : t.Accepts o
    · rw [Tables.objectByUid_insertObject ha]
      split
      · rfl
      · exact h
    · rwa [Tables.after_insertObject_refused ha]
  | updateObject etag icalData fields calendarId' uid' =>
    rw [Tables.objectByUid_updateObject]
    split
    · rename_i hkey
      rw [Option.isSome_map, ← hkey.1, ← hkey.2]
      exact h
    · exact h
  | deleteObject calendarId' uid' =>
    rw [Tables.objectByUid_deleteObject, if_neg hs]
    exact h
  | deleteCalendar id =>
    have hsame := Tables.sameCalendar_deleteCalendar t (show calendarId ≠ id from hs)
    rw [hsame.objectByUid]
    exact h
  | insertUser u =>
    obtain ⟨us, hus⟩ := t.after_insertUser u
    rw [hus]
    exact h
  | insertCalendar c =>
    rcases t.after_insertCalendar c with ht | ht
    · rw [ht]
      exact h
    · rw [ht]
      exact h
  | insertChange calendarId' uid' type token =>
    unfold Tables.objectByUid at h ⊢
    rw [Tables.calendarObjects_insertChange]
    exact h
  | upsertShare s =>
    obtain ⟨ss, hss, -⟩ := t.after_upsertShare s
    rw [hss]
    exact h
  | _ => exact h

/-- **The event stays.** As long as nothing deletes it, its row is there. -/
theorem Undeleted.row (h : Undeleted env lib calendarId uid w w')
    (hrow : (w.db.objectByUid calendarId uid).isSome) :
    (w'.db.objectByUid calendarId uid).isSome := by
  induction h with
  | refl => exact hrow
  | draw n _ ih => exact ih
  | call hc hspares _ ih =>
    refine run_only (I := fun w : World => (w.db.objectByUid calendarId uid).isSome) ?_ hspares ih
    intro o w hs hrow
    cases o with
    | sql s => exact row_spared s hs w.db.toTables hrow
    | newV4 | nowV7 | salt | utcNow => exact hrow

/-! ## Where an added event is -/

theorem stored_uid {icalData : String} {fields : ObjectFields} {a : EventArgs} {json : Json}
    (h : Stored env w calendarId uid icalData fields (addedJson a) (.ok json, w')) {uid' : String}
    (huid : json.str? "uid" = some uid') :
    uid' = uid ∧ ∃ o, w'.db.objectByUid calendarId uid = some o ∧
      o.etag = etagOf (env.uuid w.drawn) := by
  cases h with
  | stored o w' hc hstep hrow hetag =>
    have hkey := (Tables.objectByUid_key hrow).2
    refine ⟨?_, o, hrow, hetag⟩
    rw [← hkey]
    exact (Option.some.inj huid).symm

/-- `add_event` stores a new row in some calendar, under the uid of its answer. -/
theorem add_event_row (hinj : Function.Injective env.uuid) (hw : Reachable env lib w)
    {userId : String} {args json : Json}
    (hadd : (dispatch userId "add_event" args "simple").run.run (exec env) w = (.ok json, w'))
    (huid : json.str? "uid" = some uid) :
    ∃ calendarId, w'.db.objectByUid calendarId uid ≠ w.db.objectByUid calendarId uid ∧
      (w'.db.objectByUid calendarId uid).isSome := by
  have hadd : (Simple.handleAdd userId args).run.run (exec env) w = (.ok json, w') := hadd
  cases ha : eventArgs? args with
  | none =>
    have hmissing : ∃ e, (Simple.handleAdd userId args).run.run (exec env) w = (.error e, w) :=
      handleAdd_missing userId ha
    obtain ⟨e, he⟩ := hmissing
    rw [he] at hadd
    cases hadd
  | some a =>
    have hsteps : Steps env lib w ((Simple.resolveCalendar userId).run.run (exec env) w).2 :=
      moves_resolveCalendar userId w
    cases hr : (Simple.resolveCalendar userId).run.run (exec env) w with
    | mk result w₁ =>
      rw [hr] at hsteps
      cases result with
      | error e =>
        rw [handleAdd_failed userId ha hr] at hadd
        cases hadd
      | ok calendarId =>
        have hstored := handleAdd_run userId hinj ha ((hw.steps hsteps).synced hinj) hr
        rw [hadd] at hstored
        obtain ⟨rfl, o, ho, hetag⟩ := stored_uid hstored huid
        refine ⟨calendarId, fun hsame => ?_, by rw [ho]; rfl⟩
        -- the etag of the row was drawn after the earlier state
        rw [ho] at hsame
        obtain ⟨n, hn, hetag'⟩ := (hw.synced hinj).etag o (List.mem_of_find?_eq_some hsame.symm)
        have hdrawn := hsteps.drawn_le
        have hindex := hinj (etagOf_inj (hetag'.symm.trans hetag))
        rw [World.draw_drawn] at hindex
        omega

/-! ## Which calendar is looked at -/

/-- The first calendar accessible to the user, by name. -/
def firstCalendar (w : World) (userId : String) : Option String :=
  (w.db.calendarsFor userId).head?.map (·.id)

theorem resolve_first (h : firstCalendar w userId = some calendarId) :
    (Simple.resolveCalendar userId).run.run (exec env) w = (.ok calendarId, w) := by
  have hresolved := resolveCalendar_run env w userId
  generalize (Simple.resolveCalendar userId).run.run (exec env) w = out at hresolved ⊢
  unfold firstCalendar at h
  cases hresolved with
  | found cal rest hcals =>
    rw [hcals] at h
    obtain rfl := Option.some.inj h
    rfl
  | created r w' hcals =>
    rw [hcals] at h
    cases h
  | failed e w' hcals =>
    rw [hcals] at h
    cases h

/-- A deleted row is gone. -/
theorem deleted_gone (h : ObjectWrite.Step env w (.delete calendarId uid) w') :
    w'.db.objectByUid calendarId uid = none := by
  cases h with
  | deleted calendarId uid o ho =>
    have hc : calendarId ∈ ((w.after (.deleteObject calendarId uid)).draw 1).db.calendarIds :=
      w.db.ok.calendar_of_object ho
    rw [World.logged_objectByUid env _ hc, World.draw_db, World.after_tables,
      Tables.objectByUid_deleteObject, if_pos ⟨rfl, rfl⟩]

/-- A write in one calendar leaves the objects of another. -/
theorem step_other {x : ObjectWrite} (h : x.Step env w w') (hne : calendarId ≠ x.calendarId) :
    w'.db.objectByUid calendarId uid = w.db.objectByUid calendarId uid := by
  obtain ⟨type, m, n, he⟩ := h.effect
  exact he.others calendarId uid fun hkey => hne hkey.1

end

/-- `list_events` without a range, and with a limit that lets every event through, shows the
    event, and `delete_event` with its uid removes it. -/
structure ServesEvent (env : Env) (userId calendarId uid : String) (w : World) : Prop where
  returned : ∀ args : Json, args.str? "start" = none ∨ args.str? "end" = none →
    (w.db.objectsOf calendarId).length ≤ limitOf args →
    ∃ o events, w.db.objectByUid calendarId uid = some o ∧ listedEvent o ∈ events ∧
      ((dispatch userId "list_events" args "simple").run.run (exec env) w).1 =
        .ok (.object [("count", .ofNat events.length), ("events", .array events)])
  removed : ∀ args : Json, args.str? "event_uid" = some uid →
    ((dispatch userId "delete_event" args "simple").run.run (exec env) w).1.isOk ∧
      ((dispatch userId "delete_event" args "simple").run.run (exec env) w).2.db.objectByUid
        calendarId uid = none

section

variable {env : Env} {lib : Lib} {w w' : World} {userId calendarId uid : String}

theorem serves_of_first (hfirst : firstCalendar w userId = some calendarId)
    (hrow : (w.db.objectByUid calendarId uid).isSome) :
    ServesEvent env userId calendarId uid w := by
  have hr : (Simple.resolveCalendar userId).run.run (exec env) w = (.ok calendarId, w) :=
    resolve_first hfirst
  obtain ⟨o, ho⟩ := Option.isSome_iff_exists.mp hrow
  refine ⟨fun args hrange hlimit => ?_, fun args hu => ?_⟩
  · obtain ⟨events, hevents, hrun⟩ := handleList_run userId hrange hr
    refine ⟨o, events, ho, ?_, ?_⟩
    · have hmem : o ∈ orderByDtstart (w.db.objectsOf calendarId) := by
        refine (List.perm_insertionSort _ _).mem_iff.mpr ?_
        refine List.mem_filter.mpr ⟨List.mem_of_find?_eq_some ho, ?_⟩
        exact decide_eq_true (Tables.objectByUid_key ho).1
      have hlength : (orderByDtstart (w.db.objectsOf calendarId)).length ≤ limitOf args := by
        rw [show (orderByDtstart (w.db.objectsOf calendarId)).length = _ from
          (List.perm_insertionSort _ _).length_eq]
        exact hlimit
      rw [hevents, List.take_of_length_le hlength]
      exact List.mem_map_of_mem hmem
    · exact congrArg Prod.fst hrun
  · have hdeleted := handleDelete_run userId hu hr
    show ((Simple.handleDelete userId args).run.run (exec env) w).1.isOk ∧
      ((Simple.handleDelete userId args).run.run (exec env) w).2.db.objectByUid calendarId uid = none
    generalize (Simple.handleDelete userId args).run.run (exec env) w = out at hdeleted ⊢
    cases hdeleted with
    | missing e w' hnone =>
      rw [ho] at hnone
      cases hnone
    | deleted o' w' ho' hstep => exact ⟨rfl, deleted_gone hstep⟩

/-- In a calendar that is not the first, the event is not removed. -/
theorem first_of_serves (haccess : (w.db.permissionOf calendarId userId).isSome)
    (hrow : (w.db.objectByUid calendarId uid).isSome)
    (h : ServesEvent env userId calendarId uid w) :
    firstCalendar w userId = some calendarId := by
  have hmem := w.db.ok.mem_calendarsFor_ids.mpr haccess
  cases hcals : w.db.calendarsFor userId with
  | nil =>
    rw [hcals] at hmem
    cases hmem
  | cons cal rest =>
    have hfirst : firstCalendar w userId = some cal.id := by
      unfold firstCalendar
      rw [hcals]
      rfl
    have hr : (Simple.resolveCalendar userId).run.run (exec env) w = (.ok cal.id, w) :=
      resolve_first hfirst
    let args : Json := .object [("event_uid", .string uid)]
    have hu : args.str? "event_uid" = some uid := rfl
    have hdeleted : Deleted env w cal.id uid (deletedJson uid)
        ((Simple.handleDelete userId args).run.run (exec env) w) :=
      handleDelete_run userId hu hr
    have hgone : ((Simple.handleDelete userId args).run.run (exec env) w).2.db.objectByUid
        calendarId uid = none :=
      (h.removed args hu).2
    rw [hfirst]
    refine congrArg some ?_
    by_contra hne
    generalize (Simple.handleDelete userId args).run.run (exec env) w = out at hdeleted hgone
    have hsame : out.2.db.objectByUid calendarId uid = w.db.objectByUid calendarId uid := by
      cases hdeleted with
      | missing e w' hnone ht => rw [ht]
      | deleted o w' ho hstep => exact step_other hstep (Ne.symm hne)
    rw [hsame] at hgone
    rw [hgone] at hrow
    cases hrow

end

/-- **Events of the simple mode.** An event that `add_event` stored for a user lies in one
    calendar. After every run that does not delete it, if that calendar is still accessible to
    the user, `list_events` shows the event and `delete_event` removes it exactly when the
    calendar is the first one accessible to the user. -/
theorem simple_event_iff (env : Env) (hinj : Function.Injective env.uuid) (lib : Lib) (w w' : World)
    (hw : Reachable env lib w) (userId : String) (args json : Json)
    (hadd : (dispatch userId "add_event" args "simple").run.run (exec env) w = (.ok json, w'))
    (uid : String) (huid : json.str? "uid" = some uid) :
    ∃ calendarId, w'.db.objectByUid calendarId uid ≠ w.db.objectByUid calendarId uid ∧
      (w'.db.objectByUid calendarId uid).isSome ∧
      ∀ later, Undeleted env lib calendarId uid w' later →
        (later.db.permissionOf calendarId userId).isSome →
        (ServesEvent env userId calendarId uid later ↔
          firstCalendar later userId = some calendarId) := by
  obtain ⟨calendarId, hnew, hrow⟩ := add_event_row hinj hw hadd huid
  refine ⟨calendarId, hnew, hrow, fun later hlater haccess => ?_⟩
  have hthere := hlater.row hrow
  exact ⟨first_of_serves haccess hthere, fun hfirst => serves_of_first hfirst hthere⟩

/-! ### Alice's lunch -/

/-- Alice and bob have accounts, and bob has a calendar `Archive`. -/
def archiveWorld : World :=
  ((createCalendarWithId "archive" (countingEnv.uuid 2) "Archive" "" "#0E61B9" "UTC").exec
    countingEnv ((createUser sampleLib "bob" none "secret").exec countingEnv
      ((createUser sampleLib "alice" none "secret").exec countingEnv ⟨Db.init, 0⟩).2).2).2

theorem archiveWorld_reachable : Reachable countingEnv sampleLib archiveWorld :=
  .call (.createCalendarWithId ..) (.call (.createUser ..) (.call (.createUser ..) .init))

def lunchArgs : Json :=
  .object [("title", .string "Lunch"), ("start", .string "20260301T120000Z"),
    ("end", .string "20260301T130000Z")]

/-- Alice has added a lunch. -/
def addedWorld : World :=
  ((dispatch (countingEnv.uuid 0) "add_event" lunchArgs "simple").run.run (exec countingEnv)
    archiveWorld).2

/-- The uid of the lunch. -/
def addedUid : String := countingEnv.uuid 7 ++ "@caldav-server"

theorem lunch_added : ∃ json, (dispatch (countingEnv.uuid 0) "add_event" lunchArgs
      "simple").run.run (exec countingEnv) archiveWorld = (.ok json, addedWorld) ∧
    json.str? "uid" = some addedUid := by
  have huid : (((dispatch (countingEnv.uuid 0) "add_event" lunchArgs "simple").run.run
      (exec countingEnv) archiveWorld).1.toOption.bind fun json => json.str? "uid") =
        some addedUid := by
    decide +kernel
  cases hresult : ((dispatch (countingEnv.uuid 0) "add_event" lunchArgs "simple").run.run
      (exec countingEnv) archiveWorld).1 with
  | error e =>
    rw [hresult] at huid
    cases huid
  | ok json =>
    rw [hresult] at huid
    exact ⟨json, Prod.ext hresult rfl, huid⟩

/-- The lunch lies in the calendar that was made for alice. -/
theorem lunch_calendar {calendarId : String}
    (h : (addedWorld.db.objectByUid calendarId addedUid).isSome) :
    calendarId = countingEnv.uuid 5 := by
  obtain ⟨o, ho⟩ := Option.isSome_iff_exists.mp h
  have hall : ∀ o ∈ addedWorld.db.calendarObjects, o.calendarId = countingEnv.uuid 5 := by
    decide +kernel
  rw [← hall o (List.mem_of_find?_eq_some ho)]
  exact (Tables.objectByUid_key ho).1.symm

theorem simple_event_iff_lunch :
    ∃ calendarId, ServesEvent countingEnv (countingEnv.uuid 0) calendarId addedUid addedWorld := by
  obtain ⟨json, hadd, huid⟩ := lunch_added
  obtain ⟨calendarId, -, hrow, hiff⟩ := simple_event_iff countingEnv countingEnv_uuid_injective
    sampleLib archiveWorld addedWorld archiveWorld_reachable (countingEnv.uuid 0) lunchArgs json
    hadd addedUid huid
  obtain rfl := lunch_calendar hrow
  have haccess : (addedWorld.db.permissionOf (countingEnv.uuid 5) (countingEnv.uuid 0)).isSome := by
    decide +kernel
  exact ⟨_, (hiff addedWorld .refl haccess).mpr (by decide +kernel)⟩

/-- Bob has shared his archive with alice. -/
def sharedWorld : World :=
  ((shareCalendar "archive" (countingEnv.uuid 0) .read).exec countingEnv addedWorld).2

theorem sharedWorld_undeleted (calendarId uid : String) :
    Undeleted countingEnv sampleLib calendarId uid addedWorld sharedWorld := by
  refine .call (.shareCalendar ..) ?_ .refl
  unfold shareCalendar
  refine only_except_bind (only_nowV7 trivial) fun id => ?_
  refine only_except_bind (only_sql trivial) fun _ => ?_
  refine only_except_bind (only_sql trivial) fun share => ?_
  cases share <;> exact trivial

/-- Bob's share hides alice's lunch from her. -/
theorem simple_event_hidden : ∃ calendarId json,
    Reachable countingEnv sampleLib archiveWorld ∧
      (dispatch (countingEnv.uuid 0) "add_event" lunchArgs "simple").run.run (exec countingEnv)
        archiveWorld = (.ok json, addedWorld) ∧ json.str? "uid" = some addedUid ∧
      (addedWorld.db.objectByUid calendarId addedUid).isSome ∧
      Undeleted countingEnv sampleLib calendarId addedUid addedWorld sharedWorld ∧
      (sharedWorld.db.permissionOf calendarId (countingEnv.uuid 0)).isSome ∧
      ¬ ServesEvent countingEnv (countingEnv.uuid 0) calendarId addedUid sharedWorld := by
  obtain ⟨json, hadd, huid⟩ := lunch_added
  have haccess : (sharedWorld.db.permissionOf (countingEnv.uuid 5) (countingEnv.uuid 0)).isSome := by
    decide +kernel
  have hrow : (sharedWorld.db.objectByUid (countingEnv.uuid 5) addedUid).isSome := by
    decide +kernel
  refine ⟨countingEnv.uuid 5, json, archiveWorld_reachable, hadd, huid, by decide +kernel,
    sharedWorld_undeleted _ _, haccess, fun h => ?_⟩
  have hfirst := first_of_serves haccess hrow h
  revert hfirst
  decide +kernel

end CaldavMcp
