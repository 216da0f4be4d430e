/-
  What the statements of an object write do, seen through the lookups.

  One lemma for each statement and each view: the row of a key (`objectByUid`), the change log
  and the calendar rows. A refused INSERT changes nothing.
-/
import CaldavMcp.Db.Exec
import CaldavMcp.ChangeLog

namespace CaldavMcp

open Program

/-- `n` values are drawn. -/
def World.draw (w : World) (n : Nat) : World := { w with drawn := w.drawn + n }

@[simp] theorem World.draw_db (w : World) (n : Nat) : (w.draw n).db = w.db := rfl

@[simp] theorem World.draw_drawn (w : World) (n : Nat) : (w.draw n).drawn = w.drawn + n := rfl

namespace Tables

variable (t : Tables)

/-- The ids of the calendars. -/
def calendarIds : List String := t.calendars.map (·.id)

/-- The INSERT of a row is accepted: its id and its key are free, and its calendar exists. -/
structure Accepts (o : CalendarObject) : Prop where
  id : o.id ∉ t.calendarObjects.map (·.id)
  key : t.objectByUid o.calendarId o.uid = none
  calendar : o.calendarId ∈ t.calendarIds

instance (o : CalendarObject) : Decidable (t.Accepts o) :=
  decidable_of_iff (o.id ∉ t.calendarObjects.map (·.id) ∧
    t.objectByUid o.calendarId o.uid = none ∧ o.calendarId ∈ t.calendarIds)
    ⟨fun h => ⟨h.1, h.2.1, h.2.2⟩, fun h => ⟨h.id, h.key, h.calendar⟩⟩

variable {t}

/-! ## Insert -/

theorem insertObject_accepted {o : CalendarObject} (h : t.Accepts o) :
    t.exec (.insertObject o) =
      .ok (1, { t with calendarObjects := t.calendarObjects ++ [o] }) := by
  have h1 : ¬ (t.calendarObjects.any (·.id = o.id)) = true := by
    rw [any_eq_iff]; exact h.id
  have h2 : ¬ (t.objectByUid o.calendarId o.uid).isSome = true := by
    rw [h.key]; simp
  have h3 : (t.calendars.any (·.id = o.calendarId)) = true := any_eq_iff.mpr h.calendar
  simp only [exec]
  rw [if_neg h1, if_neg h2, if_pos h3]

theorem insertObject_refused {o : CalendarObject} (h : ¬ t.Accepts o) :
    ∃ e, t.exec (.insertObject o) = .error e := by
  simp only [exec]
  split
  · exact ⟨_, rfl⟩
  · split
    · exact ⟨_, rfl⟩
    · split
      · rename_i h1 h2 h3
        refine absurd ⟨?_, ?_, any_eq_iff.mp h3⟩ h
        · rwa [any_eq_iff] at h1
        · simpa using h2
      · exact ⟨_, rfl⟩

theorem answer_insertObject_accepted {o : CalendarObject} (h : t.Accepts o) :
    t.answer (.insertObject o) = .ok 1 := by
  unfold answer; rw [insertObject_accepted h]

theorem after_insertObject_accepted {o : CalendarObject} (h : t.Accepts o) :
    t.after (.insertObject o) = { t with calendarObjects := t.calendarObjects ++ [o] } := by
  unfold after; rw [insertObject_accepted h]

theorem answer_insertObject_refused {o : CalendarObject} (h : ¬ t.Accepts o) :
    ∃ e, t.answer (.insertObject o) = .error e := by
  obtain ⟨e, he⟩ := insertObject_refused h
  exact ⟨e, by unfold answer; rw [he]⟩

theorem after_insertObject_refused {o : CalendarObject} (h : ¬ t.Accepts o) :
    t.after (.insertObject o) = t := by
  obtain ⟨e, he⟩ := insertObject_refused h
  unfold after; rw [he]

/-! ## Log insert -/

theorem insertChange_ok {calendarId uid token : String} {type : ChangeType}
    (h : calendarId ∈ t.calendarIds) :
    t.exec (.insertChange calendarId uid type token) =
      .ok (1, { t with
        syncChanges := t.syncChanges ++ [⟨t.changeSeq + 1, calendarId, uid, type, token⟩]
        changeSeq := t.changeSeq + 1 }) := by
  simp only [exec]
  rw [if_pos (any_eq_iff.mpr h)]

theorem answer_insertChange {calendarId uid token : String} {type : ChangeType}
    (h : calendarId ∈ t.calendarIds) :
    t.answer (.insertChange calendarId uid type token) = .ok 1 := by
  unfold answer; rw [insertChange_ok h]

theorem after_insertChange {calendarId uid token : String} {type : ChangeType}
    (h : calendarId ∈ t.calendarIds) :
    t.after (.insertChange calendarId uid type token) = { t with
        syncChanges := t.syncChanges ++ [⟨t.changeSeq + 1, calendarId, uid, type, token⟩]
        changeSeq := t.changeSeq + 1 } := by
  unfold after; rw [insertChange_ok h]

theorem after_insertChange_missing {calendarId uid token : String} {type : ChangeType}
    (h : calendarId ∉ t.calendarIds) :
    t.after (.insertChange calendarId uid type token) = t := by
  have h' : ¬ (t.calendars.any (·.id = calendarId)) = true := by rwa [any_eq_iff]
  unfold after
  simp only [exec]
  rw [if_neg h']

/-! ## Lookups after a statement -/

/-- The row of a key after an UPDATE. -/
theorem objectByUid_updateObject (etag icalData : String) (fields : ObjectFields)
    (calendarId uid calendarId' uid' : String) :
    (t.after (.updateObject etag icalData fields calendarId uid)).objectByUid calendarId' uid' =
      if calendarId' = calendarId ∧ uid' = uid then
        (t.objectByUid calendarId uid).map (setObject etag icalData fields)
      else t.objectByUid calendarId' uid' := by
  show List.find? _ (List.map _ _) = _
  rw [List.find?_map]
  have key : ∀ o : CalendarObject,
      (if o.calendarId = calendarId ∧ o.uid = uid then setObject etag icalData fields o
        else o).calendarId = o.calendarId ∧
      (if o.calendarId = calendarId ∧ o.uid = uid then setObject etag icalData fields o
        else o).uid = o.uid := by
    intro o; split <;> exact ⟨rfl, rfl⟩
  have same : ((fun o : CalendarObject => decide (o.calendarId = calendarId' ∧ o.uid = uid')) ∘
      fun o => if o.calendarId = calendarId ∧ o.uid = uid then setObject etag icalData fields o
        else o) = fun o => decide (o.calendarId = calendarId' ∧ o.uid = uid') := by
    funext o
    simp only [Function.comp_apply, (key o).1, (key o).2]
  rw [same]
  show (t.objectByUid calendarId' uid').map _ = _
  cases ho : t.objectByUid calendarId' uid' with
  | none =>
    split
    · rename_i h; rw [← h.1, ← h.2, ho]; rfl
    · rfl
  | some o =>
    have hk := List.find?_some ho
    simp only [decide_eq_true_eq] at hk
    rw [Option.map_some, hk.1, hk.2]
    split
    · rename_i h; rw [← h.1, ← h.2, ho]; rfl
    · rfl

/-- The row of a key after an accepted INSERT. -/
theorem objectByUid_insertObject {o : CalendarObject} (h : t.Accepts o)
    (calendarId uid : String) :
    (t.after (.insertObject o)).objectByUid calendarId uid =
      if calendarId = o.calendarId ∧ uid = o.uid then some o
      else t.objectByUid calendarId uid := by
  rw [after_insertObject_accepted h]
  show List.find? _ (_ ++ [o]) = _
  rw [List.find?_append]
  split
  · rename_i hk
    have hnone : t.objectByUid calendarId uid = none := by rw [hk.1, hk.2]; exact h.key
    unfold objectByUid at hnone
    rw [hnone, hk.1, hk.2]
    simp
  · rename_i hk
    have hne : ¬ (o.calendarId = calendarId ∧ o.uid = uid) := fun h' => hk ⟨h'.1.symm, h'.2.symm⟩
    simp [hne, objectByUid]

/-- The row of a key after a DELETE. -/
theorem objectByUid_deleteObject (calendarId uid calendarId' uid' : String) :
    (t.after (.deleteObject calendarId uid)).objectByUid calendarId' uid' =
      if calendarId' = calendarId ∧ uid' = uid then none else t.objectByUid calendarId' uid' := by
  show List.find? _ (List.filter _ _) = _
  rw [List.find?_filter]
  split
  · rename_i h
    rw [h.1, h.2, List.find?_eq_none]
    intro o _
    simp only [decide_eq_true_eq, decide_not, Bool.not_eq_true']
    rintro ⟨h1, h2⟩
    simp [h2] at h1
  · rename_i h
    unfold objectByUid
    congr 1
    funext o
    by_cases hk : o.calendarId = calendarId' ∧ o.uid = uid'
    · have hne : ¬ (o.calendarId = calendarId ∧ o.uid = uid) := by
        intro h'; exact h ⟨hk.1.symm.trans h'.1, hk.2.symm.trans h'.2⟩
      rw [decide_eq_true hk, decide_eq_true hne]
      rfl
    · rw [decide_eq_false hk]
      simp

/-- How many rows a DELETE removes. -/
def rowsOf (t : Tables) (calendarId uid : String) : Nat :=
  (t.calendarObjects.filter fun o => o.calendarId = calendarId ∧ o.uid = uid).length

theorem rowsOf_eq_zero {calendarId uid : String} :
    t.rowsOf calendarId uid = 0 ↔ t.objectByUid calendarId uid = none := by
  unfold rowsOf objectByUid
  rw [List.length_eq_zero_iff, List.filter_eq_nil_iff, List.find?_eq_none]

/-! ## The objects of a calendar -/

theorem objectsOf_insertObject {o : CalendarObject} {calendarId : String}
    (h : o.calendarId ≠ calendarId) :
    (t.after (.insertObject o)).objectsOf calendarId = t.objectsOf calendarId := by
  by_cases ha : t.Accepts o
  · rw [after_insertObject_accepted ha]
    unfold objectsOf
    rw [List.filter_append]
    simp [h]
  · rw [after_insertObject_refused ha]

theorem objectsOf_updateObject (etag icalData : String) (fields : ObjectFields) (uid : String)
    {calendarId calendarId' : String} (h : calendarId' ≠ calendarId) :
    (t.after (.updateObject etag icalData fields calendarId' uid)).objectsOf calendarId =
      t.objectsOf calendarId := by
  show List.filter _ (List.map _ _) = List.filter _ _
  rw [List.filter_map]
  have same : ((fun o : CalendarObject => decide (o.calendarId = calendarId)) ∘ fun o =>
      if o.calendarId = calendarId' ∧ o.uid = uid then setObject etag icalData fields o else o) =
      fun o => decide (o.calendarId = calendarId) := by
    funext o
    simp only [Function.comp_apply]
    split <;> rfl
  rw [same]
  refine (List.map_congr_left fun o ho => ?_).trans (List.map_id _)
  have hk : o.calendarId = calendarId := of_decide_eq_true (List.mem_filter.mp ho).2
  rw [if_neg fun h' => h (h'.1.symm.trans hk)]
  rfl

theorem objectsOf_deleteObject (uid : String) {calendarId calendarId' : String}
    (h : calendarId' ≠ calendarId) :
    (t.after (.deleteObject calendarId' uid)).objectsOf calendarId = t.objectsOf calendarId := by
  show List.filter _ (List.filter _ _) = List.filter _ _
  rw [List.filter_filter]
  refine List.filter_congr fun o _ => ?_
  by_cases hk : o.calendarId = calendarId
  · have : ¬ (o.calendarId = calendarId' ∧ o.uid = uid) := fun h' => h (h'.1.symm.trans hk)
    rw [decide_eq_true hk, decide_eq_true this]
    rfl
  · rw [decide_eq_false hk]
    rfl

/-- A DELETE that finds no row changes nothing. -/
theorem objects_deleteObject_none {calendarId uid : String}
    (h : t.objectByUid calendarId uid = none) :
    (t.after (.deleteObject calendarId uid)).calendarObjects = t.calendarObjects := by
  refine List.filter_eq_self.mpr fun o ho => ?_
  have := List.find?_eq_none.mp h o ho
  exact decide_eq_true fun h' => this (decide_eq_true h')

/-- A DELETE that finds nothing changes nothing. -/
theorem after_deleteObject_none {calendarId uid : String}
    (h : t.objectByUid calendarId uid = none) : t.after (.deleteObject calendarId uid) = t :=
  congrArg (fun os => { t with calendarObjects := os }) (objects_deleteObject_none h)

/-! ## The change log -/

/-- The last change logged for an object. -/
def lastChange (t : Tables) (calendarId uid : String) : Option SyncChange :=
  ChangeLog.lastOf (·.objectUid) uid (t.changesOf calendarId)

theorem changesOf_snoc {t' : Tables} {e : SyncChange}
    (h : t'.syncChanges = t.syncChanges ++ [e]) (calendarId : String) :
    t'.changesOf calendarId =
      if e.calendarId = calendarId then t.changesOf calendarId ++ [e]
      else t.changesOf calendarId := by
  unfold changesOf
  rw [h, List.filter_append]
  split
  · rename_i hc; simp [hc]
  · rename_i hc; simp [hc]

theorem lastChange_snoc {t' : Tables} {e : SyncChange}
    (h : t'.syncChanges = t.syncChanges ++ [e]) (calendarId uid : String) :
    t'.lastChange calendarId uid =
      if e.calendarId = calendarId ∧ e.objectUid = uid then some e
      else t.lastChange calendarId uid := by
  unfold lastChange
  rw [changesOf_snoc h]
  by_cases hc : e.calendarId = calendarId
  · rw [if_pos hc, ChangeLog.lastOf_snoc]
    by_cases hu : e.objectUid = uid
    · rw [if_pos hu, if_pos ⟨hc, hu⟩]
    · rw [if_neg hu, if_neg fun h => hu h.2]
  · rw [if_neg hc, if_neg fun h => hc h.1]

theorem lastChange_insertChange {calendarId uid token : String} {type : ChangeType}
    (h : calendarId ∈ t.calendarIds) (calendarId' uid' : String) :
    (t.after (.insertChange calendarId uid type token)).lastChange calendarId' uid' =
      if calendarId = calendarId' ∧ uid = uid' then
        some ⟨t.changeSeq + 1, calendarId, uid, type, token⟩
      else t.lastChange calendarId' uid' := by
  have hlog : (t.after (.insertChange calendarId uid type token)).syncChanges =
      t.syncChanges ++ [⟨t.changeSeq + 1, calendarId, uid, type, token⟩] := by
    rw [after_insertChange h]
  exact lastChange_snoc hlog calendarId' uid'

/-- The last change logged for an object says whether it exists. -/
def AgreesAt (t : Tables) (calendarId uid : String) : Prop :=
  ChangeLog.AgreesAt (·.objectUid) (fun e => decide (e.changeType = .deleted))
    (t.changesOf calendarId) (t.objectByUid calendarId) uid

/-- The change log of a calendar agrees with its objects. -/
def LogAgrees (t : Tables) (calendarId : String) : Prop :=
  ∀ uid, t.AgreesAt calendarId uid

theorem agreesAt_iff {calendarId uid : String} :
    t.AgreesAt calendarId uid ↔ ∀ e, t.lastChange calendarId uid = some e →
      (e.changeType ≠ .deleted ↔ (t.objectByUid calendarId uid).isSome) := by
  unfold AgreesAt ChangeLog.AgreesAt lastChange
  simp only [decide_eq_false_iff_not, ne_eq]

theorem agreesAt_congr {t' : Tables} {calendarId uid : String}
    (hl : t'.lastChange calendarId uid = t.lastChange calendarId uid)
    (ho : (t'.objectByUid calendarId uid).isSome = (t.objectByUid calendarId uid).isSome) :
    t'.AgreesAt calendarId uid ↔ t.AgreesAt calendarId uid := by
  rw [agreesAt_iff, agreesAt_iff, hl, ho]

/-! ## Calendars -/

theorem calendarIds_updateCtag (ctag syncToken id : String) :
    (t.after (.updateCtag ctag syncToken id)).calendarIds = t.calendarIds := by
  show List.map _ (List.map _ _) = _
  rw [List.map_map]
  refine List.map_congr_left fun c _ => ?_
  dsimp only [Function.comp_apply]
  split <;> rfl

theorem calendars_insertObject (o : CalendarObject) :
    (t.after (.insertObject o)).calendars = t.calendars := by
  by_cases h : t.Accepts o
  · rw [after_insertObject_accepted h]
  · rw [after_insertObject_refused h]

theorem calendars_insertChange (calendarId uid : String) (type : ChangeType) (token : String) :
    (t.after (.insertChange calendarId uid type token)).calendars = t.calendars := by
  by_cases h : calendarId ∈ t.calendarIds
  · rw [after_insertChange h]
  · rw [after_insertChange_missing h]

theorem calendarObjects_insertChange (calendarId uid : String) (type : ChangeType)
    (token : String) :
    (t.after (.insertChange calendarId uid type token)).calendarObjects = t.calendarObjects := by
  by_cases h : calendarId ∈ t.calendarIds
  · rw [after_insertChange h]
  · rw [after_insertChange_missing h]

theorem calendarById_id {id : String} {r : Calendar} (hr : t.calendarById id = some r) :
    r.id = id := by
  have hk := List.find?_some hr
  exact of_decide_eq_true hk

/-- The row of a calendar after a ctag update. -/
theorem calendarById_updateCtag (ctag syncToken id id' : String) :
    (t.after (.updateCtag ctag syncToken id)).calendarById id' =
      if id' = id then
        (t.calendarById id).map fun c => { c with ctag := ctag, syncToken := syncToken }
      else t.calendarById id' := by
  show List.find? _ (List.map _ _) = _
  rw [List.find?_map]
  have same : ((fun c : Calendar => decide (c.id = id')) ∘ fun c =>
      if c.id = id then { c with ctag := ctag, syncToken := syncToken } else c) =
      fun c => decide (c.id = id') := by
    funext c
    simp only [Function.comp_apply]
    split <;> rfl
  rw [same]
  show (t.calendarById id').map _ = _
  cases hc : t.calendarById id' with
  | none =>
    split
    · rename_i h; rw [← h, hc]; rfl
    · rfl
  | some c =>
    have hk := List.find?_some hc
    obtain rfl : c.id = id' := of_decide_eq_true hk
    rw [Option.map_some]
    split
    · rename_i h; rw [← h, hc]; rfl
    · rfl

/-- A row's calendar exists. -/
theorem Ok.calendar_of_object (h : t.Ok) {calendarId uid : String} {o : CalendarObject}
    (ho : t.objectByUid calendarId uid = some o) : calendarId ∈ t.calendarIds := by
  have hk := List.find?_some ho
  simp only [decide_eq_true_eq] at hk
  have := h.objectCalendar o (List.mem_of_find?_eq_some ho)
  rwa [hk.1] at this

/-- A row found by key has that key. -/
theorem objectByUid_key {calendarId uid : String} {o : CalendarObject}
    (ho : t.objectByUid calendarId uid = some o) : o.calendarId = calendarId ∧ o.uid = uid := by
  have hk := List.find?_some ho
  simpa using hk

/-- A row is the one its key finds. -/
theorem Ok.objectByUid_of_mem (h : t.Ok) {o : CalendarObject} (ho : o ∈ t.calendarObjects) :
    t.objectByUid o.calendarId o.uid = some o := by
  have hs : (t.objectByUid o.calendarId o.uid).isSome :=
    objectByUid_isSome.mpr (List.mem_map.mpr ⟨o, ho, rfl⟩)
  obtain ⟨o', ho'⟩ := Option.isSome_iff_exists.mp hs
  have hk := objectByUid_key ho'
  have := List.inj_on_of_nodup_map h.objectUid (List.mem_of_find?_eq_some ho') ho
    (Prod.ext hk.1 hk.2)
  rw [ho', this]

/-- An object of a calendar is the one its uid finds there. -/
theorem Ok.objectByUid_of_objectsOf (h : t.Ok) {calendarId : String} {o : CalendarObject}
    (ho : o ∈ t.objectsOf calendarId) :
    o.calendarId = calendarId ∧ t.objectByUid calendarId o.uid = some o := by
  obtain ⟨hmem, hcal⟩ := List.mem_filter.mp ho
  have hcal' : o.calendarId = calendarId := by simpa using hcal
  exact ⟨hcal', hcal' ▸ h.objectByUid_of_mem hmem⟩

end Tables

end CaldavMcp
