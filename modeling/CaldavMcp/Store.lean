/-
  What the server is for: a store of calendars, and of texts in them under uids.

  `Store` and its machine know no rows, no etags and no logs. `Tables.store` is what the tables
  hold of it, and `storeMark` names the action that a statement amounts to, by its answer: an
  INSERT of an object that is accepted creates it, a DELETE that finds no row has seen that there
  is none. Every other statement leaves the store as it is (`simulated`).
-/
import CaldavMcp.Program.Linearization
import CaldavMcp.Caldav.Mediation

namespace CaldavMcp

open Program

/-! ## The store -/

/-- The calendars that there are, and the texts in each. -/
abbrev Store := String → Option (String → Option String)

namespace Store

/-- The text of an object. -/
def text (s : Store) (calendarId uid : String) : Option String :=
  (s calendarId).bind fun objects => objects uid

/-- The store with another text, or none, for an object; calendars are not made. -/
def write (s : Store) (calendarId uid : String) (data : Option String) : Store :=
  fun id => if id = calendarId then (s id).map fun objects => Function.update objects uid data
    else s id

theorem text_write (s : Store) (calendarId uid : String) (data : Option String)
    (calendarId' uid' : String) :
    (s.write calendarId uid data).text calendarId' uid' =
      if calendarId' = calendarId ∧ uid' = uid then (s calendarId').bind fun _ => data
      else s.text calendarId' uid' := by
  unfold text write
  by_cases hc : calendarId' = calendarId
  · rw [if_pos hc, Option.bind_map]
    by_cases hu : uid' = uid
    · rw [if_pos ⟨hc, hu⟩]
      refine Option.bind_congr fun objects _ => ?_
      rw [Function.comp_apply, hu, Function.update_self]
    · rw [if_neg fun h => hu h.2]
      refine Option.bind_congr fun objects _ => ?_
      rw [Function.comp_apply, Function.update_of_ne hu]
  · rw [if_neg hc, if_neg fun h => hc h.1]

end Store

/-- What can be done with a store. -/
inductive StoreAction where
  | makeCalendar (calendarId : String)
  | dropCalendar (calendarId : String)
  | create (calendarId uid data : String)
  | replace (calendarId uid data : String)
  | remove (calendarId uid : String)
  | look (calendarId uid : String) (found : Option String)
  deriving DecidableEq, Repr

/-- The machine of stores. A calendar is made where there is none. An object is created in a
    calendar that is there, where there is none. `replace` is for an object that is there, and
    comes to nothing otherwise. A look finds what there is. -/
def storeMachine : Machine Store StoreAction where
  act
    | .makeCalendar id, s =>
      if s id = none then some (Function.update s id (some fun _ => none)) else none
    | .dropCalendar id, s => if (s id).isSome then some (Function.update s id none) else none
    | .create calendarId uid data, s =>
      if (s calendarId).isSome ∧ s.text calendarId uid = none then
        some (s.write calendarId uid (some data))
      else none
    | .replace calendarId uid data, s =>
      some (if (s.text calendarId uid).isSome then s.write calendarId uid (some data) else s)
    | .remove calendarId uid, s =>
      if (s.text calendarId uid).isSome then some (s.write calendarId uid none) else none
    | .look calendarId uid found, s => if s.text calendarId uid = found then some s else none

/-! ## The tables as a store -/

/-- The store that the tables hold. -/
def Tables.store (t : Tables) : Store := fun calendarId =>
  (t.calendarById calendarId).map fun _ uid => (t.objectByUid calendarId uid).map (·.icalData)

/-- The store of a world. -/
def World.store (w : World) : Store := w.db.toTables.store

/-- The action that an operation amounts to. -/
def storeMark : (o : Op) → o.Resp → Option StoreAction
  | .sql (.insertCalendar c), .ok _ => some (.makeCalendar c.id)
  | .sql (.deleteCalendar id), .ok rows => if rows = 0 then none else some (.dropCalendar id)
  | .sql (.insertObject o), .ok _ => some (.create o.calendarId o.uid o.icalData)
  | .sql (.updateObject _ icalData _ calendarId uid), .ok _ =>
    some (.replace calendarId uid icalData)
  | .sql (.deleteObject calendarId uid), .ok rows =>
    some (if rows = 0 then .look calendarId uid none else .remove calendarId uid)
  | .sql (.selectObjectByUid calendarId uid), .ok found =>
    some (.look calendarId uid (found.map (·.icalData)))
  | _, _ => none

namespace Tables

variable {t t' : Tables}

theorem Ok.store_text (h : t.Ok) (calendarId uid : String) :
    t.store.text calendarId uid = (t.objectByUid calendarId uid).map (·.icalData) := by
  unfold store Store.text
  rw [Option.bind_map]
  cases ho : t.objectByUid calendarId uid with
  | none => cases t.calendarById calendarId <;> simp [ho]
  | some o =>
    obtain ⟨r, hr⟩ := Option.isSome_iff_exists.mp (mem_calendarIds.mp (h.calendar_of_object ho))
    rw [hr]
    simp [ho]

theorem store_isSome {calendarId : String} :
    (t.store calendarId).isSome ↔ calendarId ∈ t.calendarIds := by
  rw [mem_calendarIds]
  unfold store
  rw [Option.isSome_map]

theorem store_eq_none {calendarId : String} :
    t.store calendarId = none ↔ calendarId ∉ t.calendarIds := by
  rw [← store_isSome, Option.not_isSome_iff_eq_none]

theorem store_of_mem {calendarId : String} (h : calendarId ∈ t.calendarIds) :
    t.store calendarId = some fun uid => (t.objectByUid calendarId uid).map (·.icalData) := by
  obtain ⟨r, hr⟩ := Option.isSome_iff_exists.mp (mem_calendarIds.mp h)
  unfold store
  rw [hr]
  rfl

/-- Tables with the same calendars and the same texts hold the same store. -/
theorem store_congr (hcalendars : t'.calendarIds = t.calendarIds)
    (hobjects : ∀ calendarId uid, (t'.objectByUid calendarId uid).map (·.icalData) =
      (t.objectByUid calendarId uid).map (·.icalData)) : t'.store = t.store := by
  funext id
  by_cases hid : id ∈ t.calendarIds
  · rw [store_of_mem hid, store_of_mem (hcalendars ▸ hid)]
    simp only [hobjects]
  · rw [store_eq_none.mpr hid, store_eq_none.mpr (hcalendars ▸ hid)]

/-- The store after the text of one object has changed. -/
theorem store_write {calendarId uid : String} {data : Option String}
    (hcalendars : t'.calendarIds = t.calendarIds)
    (hobjects : ∀ calendarId' uid', (t'.objectByUid calendarId' uid').map (·.icalData) =
      if calendarId' = calendarId ∧ uid' = uid then data
      else (t.objectByUid calendarId' uid').map (·.icalData)) :
    t'.store = t.store.write calendarId uid data := by
  funext id
  unfold Store.write
  by_cases hid : id ∈ t.calendarIds
  · rw [store_of_mem hid, store_of_mem (hcalendars ▸ hid)]
    simp only [hobjects]
    split
    · rename_i heq
      refine congrArg some (funext fun uid' => ?_)
      have hupdate : ∀ f : String → Option String,
          Function.update f uid data uid' = if uid' = uid then data else f uid' :=
        fun f => Function.update_apply f uid data uid'
      refine Eq.trans ?_ (hupdate fun uid => (t.objectByUid id uid).map (·.icalData)).symm
      exact if_congr (and_iff_right heq) rfl rfl
    · rename_i hne
      simp only [hne, false_and, if_false]
  · rw [store_eq_none.mpr hid, store_eq_none.mpr (hcalendars ▸ hid)]
    split <;> rfl

/-! ## Statements -/

/-- A calendar that is inserted was not there; one that is refused changes nothing. -/
theorem insertCalendar_cases (t : Tables) (c : Calendar) :
    (c.id ∉ t.calendarIds ∧ t.answer (.insertCalendar c) = .ok 1 ∧
      t.after (.insertCalendar c) = { t with calendars := t.calendars ++ [c] }) ∨
    ∃ e, t.answer (.insertCalendar c) = .error e ∧ t.after (.insertCalendar c) = t := by
  by_cases hnew : (t.calendars.any (·.id = c.id)) = true
  · exact Or.inr ⟨_, of_exec_error (if_pos hnew)⟩
  · by_cases howner : (t.users.any (·.id = c.ownerId)) = true
    · have hexec : t.exec (.insertCalendar c) =
          .ok (1, { t with calendars := t.calendars ++ [c] }) :=
        (if_neg hnew).trans (if_pos howner)
      exact Or.inl ⟨by rwa [any_eq_iff] at hnew, of_exec_ok hexec⟩
    · exact Or.inr ⟨_, of_exec_error ((if_neg hnew).trans (if_neg howner))⟩

theorem store_insertCalendar {c : Calendar} (hok : t.Ok) (hnew : c.id ∉ t.calendarIds)
    (hafter : t.after (.insertCalendar c) = { t with calendars := t.calendars ++ [c] }) :
    (t.after (.insertCalendar c)).store =
      Function.update t.store c.id (some fun _ => none) := by
  have hids : (t.after (.insertCalendar c)).calendarIds = t.calendarIds ++ [c.id] := by
    rw [hafter]
    exact List.map_append
  funext id
  rw [Function.update_apply]
  split
  · rename_i heq
    subst heq
    rw [store_of_mem (by rw [hids]; exact List.mem_append_right _ List.mem_cons_self)]
    refine congrArg some (funext fun uid => ?_)
    rw [hafter]
    show (t.objectByUid c.id uid).map _ = none
    cases ho : t.objectByUid c.id uid with
    | none => rfl
    | some o => exact absurd (hok.calendar_of_object ho) hnew
  · rename_i hne
    have hiff : id ∈ (t.after (.insertCalendar c)).calendarIds ↔ id ∈ t.calendarIds := by
      rw [hids, List.mem_append, List.mem_singleton]
      exact or_iff_left hne
    by_cases hid : id ∈ t.calendarIds
    · rw [store_of_mem hid, store_of_mem (hiff.mpr hid), hafter]
      rfl
    · rw [store_eq_none.mpr hid, store_eq_none.mpr fun h => hid (hiff.mp h)]

/-- A calendar is dropped with its objects. -/
theorem store_deleteCalendar (t : Tables) (calendarId : String) :
    (t.after (.deleteCalendar calendarId)).store = Function.update t.store calendarId none := by
  funext id
  rw [Function.update_apply]
  unfold store
  rw [calendarById_deleteCalendar]
  split
  · rfl
  · rename_i hne
    simp only [(sameCalendar_deleteCalendar t hne).objectByUid]

theorem store_insertObject {o : CalendarObject} (h : t.Accepts o) :
    (t.after (.insertObject o)).store =
      t.store.write o.calendarId o.uid (some o.icalData) := by
  refine store_write (congrArg (List.map _) (calendars_insertObject o)) fun calendarId uid => ?_
  rw [objectByUid_insertObject h]
  split <;> rfl

theorem store_updateObject (hok : t.Ok) (etag icalData : String) (fields : ObjectFields)
    (calendarId uid : String) :
    (t.after (.updateObject etag icalData fields calendarId uid)).store =
      if (t.store.text calendarId uid).isSome then
        t.store.write calendarId uid (some icalData)
      else t.store := by
  rw [hok.store_text, Option.isSome_map]
  split
  · rename_i hsome
    refine store_write rfl fun calendarId' uid' => ?_
    rw [objectByUid_updateObject]
    split
    · obtain ⟨o, ho⟩ := Option.isSome_iff_exists.mp hsome
      rw [ho]
      rfl
    · rfl
  · rename_i hnone
    refine store_congr rfl fun calendarId' uid' => ?_
    rw [objectByUid_updateObject]
    split
    · rename_i heq
      rw [heq.1, heq.2, Option.not_isSome_iff_eq_none.mp hnone]
      rfl
    · rfl

theorem store_deleteObject (t : Tables) (calendarId uid : String) :
    (t.after (.deleteObject calendarId uid)).store = t.store.write calendarId uid none := by
  refine store_write rfl fun calendarId' uid' => ?_
  rw [objectByUid_deleteObject]
  split <;> rfl

end Tables

/-! ## The server simulates the machine -/

/-- A marked operation does what its action does. -/
theorem storeMark_marked (env : Env) (o : Op) (w : World) (action : StoreAction)
    (h : storeMark o (exec env o w).1 = some action) :
    storeMachine.act action w.store = some (exec env o w).2.store := by
  cases o with
  | newV4 | nowV7 | salt | utcNow => cases h
  | sql s =>
    rw [exec_sql] at h ⊢
    cases s with
    | insertCalendar c =>
      obtain ⟨hnew, hr, hafter⟩ | ⟨e, hr, -⟩ := w.db.toTables.insertCalendar_cases c
      · have hr : w.answer (.insertCalendar c) = .ok 1 := hr
        rw [hr] at h
        obtain rfl := Option.some.inj h
        have hstore := Tables.store_insertCalendar w.db.ok hnew hafter
        exact (if_pos (Tables.store_eq_none.mpr hnew)).trans (congrArg some hstore.symm)
      · have hr : w.answer (.insertCalendar c) = .error e := hr
        rw [hr] at h
        cases h
    | deleteCalendar id =>
      have hrows : w.answer (.deleteCalendar id) =
        .ok ((w.db.calendars.filter (·.id = id)).length) := rfl
      rw [hrows] at h
      by_cases hzero : (w.db.calendars.filter (·.id = id)).length = 0
      · exact absurd ((if_pos hzero).symm.trans h) nofun
      · obtain rfl := Option.some.inj ((if_neg hzero).symm.trans h)
        have hmem : id ∈ w.db.calendarIds := by
          obtain ⟨c, hc⟩ := List.exists_mem_of_length_pos (Nat.pos_of_ne_zero hzero)
          obtain ⟨hc, hid⟩ := List.mem_filter.mp hc
          exact List.mem_map.mpr ⟨c, hc, of_decide_eq_true hid⟩
        have hstore := Tables.store_deleteCalendar w.db.toTables id
        exact (if_pos (Tables.store_isSome.mpr hmem)).trans (congrArg some hstore.symm)
    | insertObject o =>
      by_cases ha : w.db.Accepts o
      · have hr : w.answer (.insertObject o) = .ok 1 := Tables.answer_insertObject_accepted ha
        rw [hr] at h
        obtain rfl := Option.some.inj h
        have hfree : (w.db.toTables.store o.calendarId).isSome ∧
            w.db.toTables.store.text o.calendarId o.uid = none := by
          refine ⟨Tables.store_isSome.mpr ha.calendar, ?_⟩
          rw [w.db.ok.store_text, ha.key]
          rfl
        exact (if_pos hfree).trans (congrArg some (Tables.store_insertObject ha).symm)
      · obtain ⟨e, hr⟩ := Tables.answer_insertObject_refused ha
        have hr : w.answer (.insertObject o) = .error e := hr
        rw [hr] at h
        cases h
    | updateObject etag icalData fields calendarId uid =>
      obtain rfl := Option.some.inj h
      exact congrArg some (Tables.store_updateObject w.db.ok etag icalData fields calendarId uid).symm
    | deleteObject calendarId uid =>
      have hr : w.answer (.deleteObject calendarId uid) = .ok (w.db.rowsOf calendarId uid) := rfl
      rw [hr] at h
      have htext := w.db.ok.store_text calendarId uid
      by_cases hzero : w.db.rowsOf calendarId uid = 0
      · obtain rfl := Option.some.inj ((congrArg some (if_pos hzero)).symm.trans h)
        have hnone := Tables.rowsOf_eq_zero.mp hzero
        rw [hnone] at htext
        show (if _ = none then some w.store else none) = some (Tables.store (Tables.after _ _))
        rw [Tables.after_deleteObject_none hnone]
        exact if_pos htext
      · obtain rfl := Option.some.inj ((congrArg some (if_neg hzero)).symm.trans h)
        have hsome : (w.db.toTables.store.text calendarId uid).isSome := by
          rw [htext, Option.isSome_map, Option.isSome_iff_ne_none]
          exact fun hnone => hzero (Tables.rowsOf_eq_zero.mpr hnone)
        have hstore := Tables.store_deleteObject w.db.toTables calendarId uid
        exact (if_pos hsome).trans (congrArg some hstore.symm)
    | selectObjectByUid calendarId uid =>
      obtain rfl := Option.some.inj h
      exact if_pos (w.db.ok.store_text calendarId uid)
    | _ => exact absurd h nofun

/-- Every other operation leaves the store as it is. -/
theorem storeMark_silent (env : Env) (o : Op) (w : World)
    (h : storeMark o (exec env o w).1 = none) : (exec env o w).2.store = w.store := by
  cases o with
  | newV4 | nowV7 | salt | utcNow => rfl
  | sql s =>
    rw [exec_sql] at h ⊢
    show (w.db.toTables.after s).store = w.db.toTables.store
    cases s with
    | insertUser u =>
      obtain ⟨us, hus⟩ := w.db.toTables.after_insertUser u
      rw [hus]
      rfl
    | updatePassword hash username => rfl
    | insertCalendar c =>
      obtain ⟨-, hr, -⟩ | ⟨e, -, hafter⟩ := w.db.toTables.insertCalendar_cases c
      · have hr : w.answer (.insertCalendar c) = .ok 1 := hr
        rw [hr] at h
        cases h
      · rw [hafter]
    | updateCalendar name description color timezone id =>
      refine Tables.store_congr ?_ fun _ _ => rfl
      show List.map _ (List.map _ _) = _
      rw [List.map_map]
      refine List.map_congr_left fun c _ => ?_
      dsimp only [Function.comp_apply]
      split <;> rfl
    | deleteCalendar id =>
      have hrows : w.answer (.deleteCalendar id) =
        .ok ((w.db.calendars.filter (·.id = id)).length) := rfl
      rw [hrows] at h
      by_cases hzero : (w.db.calendars.filter (·.id = id)).length = 0
      · have hid : id ∉ w.db.calendarIds := by
          intro hmem
          obtain ⟨c, hc, rfl⟩ := List.mem_map.mp hmem
          have hc' : c ∈ w.db.calendars.filter (·.id = c.id) :=
            List.mem_filter.mpr ⟨hc, decide_eq_true rfl⟩
          rw [List.length_eq_zero_iff.mp hzero] at hc'
          cases hc'
        rw [Tables.store_deleteCalendar, ← Tables.store_eq_none.mpr hid]
        exact Function.update_eq_self id _
      · exact absurd ((if_neg hzero).symm.trans h) nofun
    | updateCtag ctag syncToken id =>
      exact Tables.store_congr (Tables.calendarIds_updateCtag ctag syncToken id) fun _ _ => rfl
    | insertObject o =>
      by_cases ha : w.db.Accepts o
      · have hr : w.answer (.insertObject o) = .ok 1 := Tables.answer_insertObject_accepted ha
        rw [hr] at h
        cases h
      · rw [Tables.after_insertObject_refused ha]
    | insertChange calendarId uid type token =>
      by_cases hc : calendarId ∈ w.db.calendarIds
      · rw [Tables.after_insertChange hc]
        rfl
      · rw [Tables.after_insertChange_missing hc]
    | upsertShare s =>
      obtain ⟨ss, hss, -⟩ := w.db.toTables.after_upsertShare s
      rw [hss]
      rfl
    | updateObject | deleteObject | selectObjectByUid => cases h
    | _ => rfl

/-- **The server's operations simulate the machine of stores.** -/
theorem store_simulated (env : Env) :
    storeMachine.Simulated (exec env) World.store storeMark :=
  ⟨storeMark_marked env, storeMark_silent env⟩

end CaldavMcp
