/-
  Which rows a statement reads and writes, and which calendars a user may use.

  `Op.Reads` and `Op.On` classify operations: those that change no table, and those that change
  rows of one calendar only. A program made of the former leaves the world as it is but for the
  draws, and one made of the latter leaves every other calendar as it is (`SameCalendar`).

  `Tables.permissionOf` is what `get_user_permission` answers. A user has access to a calendar,
  in the sense of `list_calendars_for_user`, exactly when there is a permission.
-/
import CaldavMcp.Db.History

namespace CaldavMcp

open Program

/-! ## Reads -/

/-- A SELECT. -/
def Sql.Reads : Sql → Prop
  | .selectUserByUsername _ | .selectUserById _ | .selectUserByEmail _ | .selectCalendarById _
  | .selectCalendarsOfOwner _ | .selectCalendarsOfUser _ | .selectObjectByUid _ _
  | .selectObjects _ | .selectObjectsInRange _ _ _ | .selectObjectsByUids _ _
  | .selectAnchor _ _ | .selectChangesAfter _ _ | .selectChanges _ | .selectShare _ _
  | .selectSharesOfCalendar _ | .selectSharesOfUser _ | .selectOwned _ _
  | .selectPermission _ _ => True
  | _ => False

/-- An operation that changes nothing. -/
def Op.Reads : Op → Prop
  | .sql s => s.Reads
  | .newV4 | .nowV7 | .salt | .utcNow => False

theorem exec_reads (env : Env) (o : Op) (w : World) (h : o.Reads) :
    (CaldavMcp.exec env o w).2 = w := by
  cases o with
  | sql s => cases s <;> first | rfl | exact absurd h id
  | newV4 => exact absurd h id
  | nowV7 => exact absurd h id
  | salt => exact absurd h id
  | utcNow => exact absurd h id

/-- A program of reads leaves the world as it is. -/
theorem run_reads {env : Env} {α : Type} {p : Action α} (hp : p.Only Op.Reads) (w : World) :
    (p.run (exec env) w).2 = w :=
  run_only (I := fun w' => w' = w) (fun o w' ho hw' => (exec_reads env o w' ho).trans hw') hp rfl

/-- A look-up of a user. -/
def Op.LooksUpUser : Op → Prop
  | .sql (.selectUserByUsername _) | .sql (.selectUserById _) | .sql (.selectUserByEmail _) => True
  | _ => False

theorem Op.LooksUpUser.reads (o : Op) (h : o.LooksUpUser) : o.Reads := by
  cases o with
  | sql s => cases s <;> first | exact trivial | exact h.elim
  | _ => exact h.elim

/-- Look-ups of users answer alike where the users are alike. -/
theorem uniform_lookUps {env : Env} {α : Type} {p : Action α} (hp : p.Only Op.LooksUpUser) :
    p.Uniform (exec env) fun w w' => w.db.users = w'.db.users := by
  refine uniform_of_only (fun o w w' ho hw => ?_) hp
  rw [exec_reads env o w (ho.reads o), exec_reads env o w' (ho.reads o)]
  refine ⟨?_, hw⟩
  cases o with
  | sql s =>
    cases s with
    | selectUserByUsername username =>
      exact congrArg (fun us : List User => Except.ok (us.find? fun u => u.username = username)) hw
    | selectUserById id =>
      exact congrArg (fun us : List User => Except.ok (us.find? fun u => u.id = id)) hw
    | selectUserByEmail email =>
      exact congrArg (fun us : List User => Except.ok (us.find? fun u => u.email = some email)) hw
    | _ => exact ho.elim
  | _ => exact ho.elim

/-! ## The objects -/

/-- Where an object comes from after an operation: it was there, it was inserted, or it is the
    new version of one that was there. -/
theorem mem_objects_exec {env : Env} {o : Op} {w : World} {r : CalendarObject}
    (hr : r ∈ (exec env o w).2.db.calendarObjects) :
    r ∈ w.db.calendarObjects ∨ o = .sql (.insertObject r) ∨
      ∃ etag icalData fields, ∃ r' ∈ w.db.calendarObjects,
        o = .sql (.updateObject etag icalData fields r'.calendarId r'.uid) ∧
        r = { r' with etag := etag, icalData := icalData, toObjectFields := fields } := by
  cases o with
  | newV4 | nowV7 | salt | utcNow => exact Or.inl hr
  | sql s =>
    rw [exec_sql, World.after_tables] at hr
    cases s with
    | insertObject o =>
      by_cases ha : w.db.Accepts o
      · rw [Tables.after_insertObject_accepted ha] at hr
        obtain hr | hr := List.mem_append.mp hr
        · exact Or.inl hr
        · rw [List.mem_singleton.mp hr]
          exact Or.inr (Or.inl rfl)
      · rw [Tables.after_insertObject_refused ha] at hr
        exact Or.inl hr
    | updateObject etag icalData fields calendarId uid =>
      obtain ⟨r', hr', rfl⟩ := List.mem_map.mp hr
      split
      · rename_i hkey
        rw [← hkey.1, ← hkey.2]
        exact Or.inr (Or.inr ⟨etag, icalData, fields, r', hr', rfl, rfl⟩)
      · exact Or.inl hr'
    | deleteObject | deleteCalendar => exact Or.inl (List.mem_of_mem_filter hr)
    | insertUser | insertCalendar | insertChange | upsertShare =>
      unfold Tables.after at hr
      simp only [Tables.exec] at hr
      split_ifs at hr <;> exact Or.inl hr
    | _ => exact Or.inl hr

/-! ## One calendar -/

/-- A statement that changes rows of this calendar only. -/
def Sql.On (calendarId : String) : Sql → Prop
  | .insertObject o => o.calendarId = calendarId
  | .updateObject _ _ _ calendarId' _ | .deleteObject calendarId' _
  | .insertChange calendarId' _ _ _ => calendarId' = calendarId
  | .insertCalendar c => c.id = calendarId
  | .updateCalendar _ _ _ _ id | .updateCtag _ _ id | .deleteCalendar id => id = calendarId
  | .upsertShare s => s.calendarId = calendarId
  | .deleteShare calendarId' _ => calendarId' = calendarId
  | s => s.Reads

/-- An operation that changes rows of this calendar only. -/
def Op.On (calendarId : String) : Op → Prop
  | .sql s => s.On calendarId
  | .newV4 | .nowV7 | .salt | .utcNow => True

theorem Op.Reads.on (calendarId : String) (o : Op) (h : o.Reads) : o.On calendarId := by
  cases o with
  | sql s => cases s <;> first | exact h | exact absurd h id
  | _ => exact trivial

/-- The rows of a calendar, in all tables, are the same. -/
structure Tables.SameCalendar (calendarId : String) (t t' : Tables) : Prop where
  row : t'.calendarById calendarId = t.calendarById calendarId
  objects : t'.objectsOf calendarId = t.objectsOf calendarId
  shares : t'.sharesOfCalendar calendarId = t.sharesOfCalendar calendarId
  changes : t'.changesOf calendarId = t.changesOf calendarId

namespace Tables

variable {t t' t'' : Tables} {calendarId : String}

theorem SameCalendar.refl (t : Tables) (calendarId : String) : SameCalendar calendarId t t :=
  ⟨rfl, rfl, rfl, rfl⟩

theorem SameCalendar.trans (h : SameCalendar calendarId t t')
    (h' : SameCalendar calendarId t' t'') : SameCalendar calendarId t t'' :=
  ⟨h'.row.trans h.row, h'.objects.trans h.objects, h'.shares.trans h.shares,
    h'.changes.trans h.changes⟩

theorem SameCalendar.objectByUid (h : SameCalendar calendarId t t') (uid : String) :
    t'.objectByUid calendarId uid = t.objectByUid calendarId uid := by
  have hfind : ∀ t : Tables, t.objectByUid calendarId uid =
      (t.objectsOf calendarId).find? fun o => o.uid = uid := by
    intro t
    unfold Tables.objectByUid objectsOf
    rw [List.find?_filter]
    congr 1
    funext o
    simp
  rw [hfind, hfind, h.objects]

/-- The row of a calendar after an update of calendar rows that keeps their ids. -/
theorem calendarById_map (t : Tables) {f : Calendar → Calendar} (hf : ∀ c, (f c).id = c.id)
    (id : String) :
    calendarById { t with calendars := t.calendars.map f } id = (t.calendarById id).map f := by
  unfold calendarById
  rw [List.find?_map]
  have same : ((fun c : Calendar => decide (c.id = id)) ∘ f) = fun c => decide (c.id = id) := by
    funext c
    rw [Function.comp_apply, hf]
  rw [same]

/-- An update that spares a calendar's row. -/
theorem calendarById_map_other (t : Tables) {f : Calendar → Calendar}
    (hf : ∀ c, (f c).id = c.id) {id : String} (hid : ∀ c : Calendar, c.id = id → f c = c) :
    calendarById { t with calendars := t.calendars.map f } id = t.calendarById id := by
  rw [calendarById_map t hf]
  cases hr : t.calendarById id with
  | none => rfl
  | some r => exact congrArg some (hid r (calendarById_id hr))

/-- Dropping the rows of one calendar spares those of another. -/
theorem filter_other {α : Type} {key : α → String} {id id' : String} (hne : id' ≠ id)
    (rows : List α) :
    (rows.filter (key · ≠ id)).filter (key · = id') = rows.filter (key · = id') := by
  rw [List.filter_filter]
  refine List.filter_congr fun a _ => ?_
  by_cases ha : key a = id'
  · simp [ha, hne]
  · simp [ha]

theorem calendarById_deleteCalendar (t : Tables) (id id' : String) :
    (t.after (.deleteCalendar id)).calendarById id' =
      if id' = id then none else t.calendarById id' := by
  show List.find? _ (List.filter _ _) = _
  rw [List.find?_filter]
  split
  · rename_i h
    rw [h, List.find?_eq_none]
    intro c _
    by_cases hc : c.id = id <;> simp [hc]
  · rename_i h
    unfold calendarById
    congr 1
    funext c
    by_cases hc : c.id = id'
    · simp [hc, h]
    · simp [hc]

/-- A calendar is deleted with all its rows, and no other loses any. -/
theorem sameCalendar_deleteCalendar (t : Tables) {id id' : String} (hne : id' ≠ id) :
    SameCalendar id' t (t.after (.deleteCalendar id)) :=
  ⟨(calendarById_deleteCalendar t id id').trans (if_neg hne), filter_other hne _,
    filter_other hne _, filter_other hne _⟩

/-- A statement on one calendar spares every other. -/
theorem sameCalendar_after (t : Tables) {s : Sql} {id id' : String} (hs : s.On id)
    (hne : id' ≠ id) : SameCalendar id' t (t.after s) := by
  have hid : ∀ {f : Calendar → Calendar} (c : Calendar), c.id = id' →
      (if c.id = id then f c else c) = c := by
    intro f c hc
    exact if_neg fun h => hne (hc.symm.trans h)
  cases s with
  | insertObject o =>
    obtain rfl : o.calendarId = id := hs
    refine ⟨?_, objectsOf_insertObject hne.symm, ?_, ?_⟩ <;>
      by_cases ha : t.Accepts o
    all_goals first
      | rw [after_insertObject_accepted ha]; rfl
      | rw [after_insertObject_refused ha]
  | updateObject etag icalData fields calendarId uid =>
    obtain rfl : calendarId = id := hs
    exact ⟨rfl, objectsOf_updateObject _ _ _ _ hne.symm, rfl, rfl⟩
  | deleteObject calendarId uid =>
    obtain rfl : calendarId = id := hs
    exact ⟨rfl, objectsOf_deleteObject _ hne.symm, rfl, rfl⟩
  | insertChange calendarId uid type token =>
    obtain rfl : calendarId = id := hs
    by_cases hc : calendarId ∈ t.calendarIds
    · rw [after_insertChange hc]
      refine ⟨rfl, rfl, rfl, ?_⟩
      rw [changesOf_snoc rfl, if_neg hne.symm]
    · rw [after_insertChange_missing hc]
      exact SameCalendar.refl t id'
  | updateCalendar name description color timezone id₀ =>
    obtain rfl : id₀ = id := hs
    exact ⟨calendarById_map_other t (fun c => by split <;> rfl) hid, rfl, rfl, rfl⟩
  | updateCtag ctag syncToken id₀ =>
    obtain rfl : id₀ = id := hs
    exact ⟨calendarById_map_other t (fun c => by split <;> rfl) hid, rfl, rfl, rfl⟩
  | deleteCalendar id₀ =>
    obtain rfl : id₀ = id := hs
    exact sameCalendar_deleteCalendar t hne
  | insertCalendar c =>
    obtain rfl : c.id = id := hs
    obtain ht | ht := after_insertCalendar t c
    · rw [ht]
      exact SameCalendar.refl t id'
    · rw [ht]
      refine ⟨?_, rfl, rfl, rfl⟩
      unfold calendarById
      rw [List.find?_append]
      simp [hne.symm]
  | upsertShare s =>
    obtain rfl : s.calendarId = id := hs
    obtain ⟨ss, ht, hss⟩ := after_upsertShare t s
    rw [ht]
    exact ⟨rfl, rfl, hss _ hne, rfl⟩
  | deleteShare calendarId userId =>
    obtain rfl : calendarId = id := hs
    refine ⟨rfl, rfl, ?_, rfl⟩
    show List.filter _ (List.filter _ _) = List.filter _ _
    rw [List.filter_filter]
    refine List.filter_congr fun s _ => ?_
    by_cases hk : s.calendarId = id'
    · simp [hk, hne]
    · simp [hk]
  | insertUser | updatePassword => exact hs.elim
  | _ => exact SameCalendar.refl t id'

end Tables

/-- A program on one calendar spares every other. -/
theorem run_on {env : Env} {α : Type} {p : Action α} {id id' : String} (hp : p.Only (Op.On id))
    (hne : id' ≠ id) (w : World) :
    Tables.SameCalendar id' w.db.toTables (p.run (exec env) w).2.db.toTables := by
  refine run_only (I := fun w' : World => Tables.SameCalendar id' w.db.toTables w'.db.toTables)
    (fun o w' ho hw' => hw'.trans ?_) hp (Tables.SameCalendar.refl _ _)
  cases o with
  | sql s => exact Tables.sameCalendar_after _ ho hne
  | _ => exact Tables.SameCalendar.refl _ _

/-! ## Object writes -/

/-- A statement of an object write on this calendar. -/
def Sql.OfWrite (calendarId : String) : Sql → Prop
  | .selectObjectByUid _ _ => True
  | .insertObject o => o.calendarId = calendarId
  | .updateObject _ _ _ calendarId' _ | .deleteObject calendarId' _
  | .insertChange calendarId' _ _ _ => calendarId' = calendarId
  | .updateCtag _ _ id => id = calendarId
  | _ => False

/-- An operation of an object write on this calendar. -/
def Op.OfWrite (calendarId : String) : Op → Prop
  | .sql s => s.OfWrite calendarId
  | .newV4 | .nowV7 => True
  | .salt | .utcNow => False

theorem Op.OfWrite.on (calendarId : String) (o : Op) (h : o.OfWrite calendarId) :
    o.On calendarId := by
  cases o with
  | sql s => cases s <;> first | exact h | exact h.elim
  | newV4 => exact trivial
  | nowV7 => exact trivial
  | salt => exact h.elim
  | utcNow => exact h.elim

theorem only_objectWrite (x : ObjectWrite) : x.call.run.Only (Op.OfWrite x.calendarId) := by
  cases x with
  | upsert calendarId uid icalData fields =>
    exact only_except_bind (only_upsertObject trivial trivial trivial (fun _ _ => rfl)
      (fun _ => rfl) (fun _ _ => rfl) fun _ _ => rfl) fun _ => trivial
  | delete calendarId uid =>
    exact only_deleteObject rfl trivial (fun _ => rfl) (fun _ _ => rfl)

/-- What an object write leaves alone: users, shares, and who owns which calendar. -/
structure Tables.SameOwners (t t' : Tables) : Prop where
  users : t'.users = t.users
  shares : t'.calendarShares = t.calendarShares
  owners : ∀ calendarId, (t'.calendarById calendarId).map (·.ownerId) =
    (t.calendarById calendarId).map (·.ownerId)

theorem exec_ofWrite (env : Env) {calendarId : String} (o : Op) (w : World)
    (ho : o.OfWrite calendarId) :
    Tables.SameOwners w.db.toTables (exec env o w).2.db.toTables := by
  cases o with
  | sql s =>
    cases s with
    | insertObject o =>
      rw [exec_sql]
      by_cases ha : w.db.Accepts o
      · rw [World.after_tables, Tables.after_insertObject_accepted ha]
        exact ⟨rfl, rfl, fun _ => rfl⟩
      · rw [World.after_tables, Tables.after_insertObject_refused ha]
        exact ⟨rfl, rfl, fun _ => rfl⟩
    | insertChange calendarId uid type token =>
      rw [exec_sql]
      by_cases hc : calendarId ∈ w.db.calendarIds
      · rw [World.after_tables, Tables.after_insertChange hc]
        exact ⟨rfl, rfl, fun _ => rfl⟩
      · rw [World.after_tables, Tables.after_insertChange_missing hc]
        exact ⟨rfl, rfl, fun _ => rfl⟩
    | updateCtag ctag syncToken id =>
      refine ⟨rfl, rfl, fun id' => ?_⟩
      refine (congrArg _ (Tables.calendarById_map w.db.toTables (fun c => ?_) id')).trans ?_
      · split <;> rfl
      · rw [Option.map_map]
        refine congrArg (fun f => Option.map f _) (funext fun c => ?_)
        simp only [Function.comp_apply]
        split <;> rfl
    | selectObjectByUid | updateObject | deleteObject => exact ⟨rfl, rfl, fun _ => rfl⟩
    | _ => exact ho.elim
  | newV4 => exact ⟨rfl, rfl, fun _ => rfl⟩
  | nowV7 => exact ⟨rfl, rfl, fun _ => rfl⟩
  | salt => exact ho.elim
  | utcNow => exact ho.elim

theorem run_ofWrite {env : Env} {α : Type} {p : Action α} {calendarId : String}
    (hp : p.Only (Op.OfWrite calendarId)) (w : World) :
    Tables.SameOwners w.db.toTables (p.run (exec env) w).2.db.toTables := by
  refine run_only (I := fun w' : World => Tables.SameOwners w.db.toTables w'.db.toTables)
    (fun o w' ho hw' => ?_) hp ⟨rfl, rfl, fun _ => rfl⟩
  have h := exec_ofWrite env o w' ho
  exact ⟨h.users.trans hw'.users, h.shares.trans hw'.shares,
    fun c => (h.owners c).trans (hw'.owners c)⟩

/-! ## Who has access -/

namespace Tables

/-- The user owns the calendar. -/
def Owns (t : Tables) (userId calendarId : String) : Prop :=
  ∃ r, t.calendarById calendarId = some r ∧ r.ownerId = userId

instance (t : Tables) (userId calendarId : String) : Decidable (t.Owns userId calendarId) :=
  decidable_of_iff ((t.calendarById calendarId).any (·.ownerId = userId) = true) (by
    unfold Owns
    cases t.calendarById calendarId <;> simp)

/-- A user's permission on a calendar: the owner's, or the share's. -/
def permissionOf (t : Tables) (calendarId userId : String) : Option Permission :=
  if t.Owns userId calendarId then some .readWrite
  else (t.shareOf calendarId userId).map (·.permission)

variable {t : Tables} {userId calendarId : String}

/-- A row is the one its id finds. -/
theorem Ok.calendarById_of_mem (h : t.Ok) {r : Calendar} (hr : r ∈ t.calendars) :
    t.calendarById r.id = some r := by
  have hs : (t.calendarById r.id).isSome := by
    unfold calendarById
    rw [List.find?_isSome]
    exact ⟨r, hr, decide_eq_true rfl⟩
  obtain ⟨r', hr'⟩ := Option.isSome_iff_exists.mp hs
  have := List.inj_on_of_nodup_map h.calendarId (List.mem_of_find?_eq_some hr') hr
    (calendarById_id hr')
  rw [hr', this]

theorem mem_calendarIds : calendarId ∈ t.calendarIds ↔ (t.calendarById calendarId).isSome := by
  unfold calendarIds calendarById
  rw [List.find?_isSome, List.mem_map]
  simp

theorem Ok.owns_iff (h : t.Ok) :
    t.Owns userId calendarId ↔ ∃ r ∈ t.calendars, r.id = calendarId ∧ r.ownerId = userId := by
  constructor
  · rintro ⟨r, hr, ho⟩
    exact ⟨r, List.mem_of_find?_eq_some hr, calendarById_id hr, ho⟩
  · rintro ⟨r, hr, rfl, ho⟩
    exact ⟨r, h.calendarById_of_mem hr, ho⟩

theorem Owns.exists (h : t.Owns userId calendarId) : calendarId ∈ t.calendarIds := by
  obtain ⟨r, hr, -⟩ := h
  rw [mem_calendarIds, hr]
  rfl

theorem Owns.permissionOf (h : t.Owns userId calendarId) :
    t.permissionOf calendarId userId = some .readWrite := if_pos h

theorem permissionOf_of_not_owns (h : ¬ t.Owns userId calendarId) :
    t.permissionOf calendarId userId = (t.shareOf calendarId userId).map (·.permission) :=
  if_neg h

theorem SameOwners.permissionOf {t' : Tables} (h : SameOwners t t')
    (calendarId userId : String) :
    t'.permissionOf calendarId userId = t.permissionOf calendarId userId := by
  have howns : t'.Owns userId calendarId ↔ t.Owns userId calendarId := by
    have hmap := h.owners calendarId
    unfold Owns
    constructor
    · rintro ⟨r, hr, ho⟩
      rw [hr, Option.map_some, ho] at hmap
      exact Option.map_eq_some_iff.mp hmap.symm
    · rintro ⟨r, hr, ho⟩
      rw [hr, Option.map_some, ho] at hmap
      exact Option.map_eq_some_iff.mp hmap
  unfold Tables.permissionOf
  refine if_congr howns rfl ?_
  unfold shareOf
  rw [h.shares]

theorem permissionOf_isSome : (t.permissionOf calendarId userId).isSome ↔
    t.Owns userId calendarId ∨ (t.shareOf calendarId userId).isSome := by
  by_cases ho : t.Owns userId calendarId
  · simp [ho, Owns.permissionOf]
  · simp [ho, permissionOf_of_not_owns]

/-- A shared calendar exists. -/
theorem Ok.calendar_of_share (h : t.Ok) {s : CalendarShare}
    (hs : t.shareOf calendarId userId = some s) : calendarId ∈ t.calendarIds := by
  have hk := List.find?_some hs
  simp only [decide_eq_true_eq] at hk
  have := h.shareCalendar s (List.mem_of_find?_eq_some hs)
  rwa [hk.1] at this

/-- A calendar with a permission exists. -/
theorem Ok.calendar_of_permission (h : t.Ok) (hp : (t.permissionOf calendarId userId).isSome) :
    calendarId ∈ t.calendarIds := by
  rcases permissionOf_isSome.mp hp with ho | hs
  · exact ho.exists
  · obtain ⟨s, hs⟩ := Option.isSome_iff_exists.mp hs
    exact h.calendar_of_share hs

theorem mem_calendarsOwnedOrShared {r : Calendar} : r ∈ t.calendarsOwnedOrShared userId ↔
    r ∈ t.calendars ∧ (r.ownerId = userId ∨ (t.shareOf r.id userId).isSome) := by
  unfold calendarsOwnedOrShared
  rw [List.mem_append, List.mem_filter, List.mem_flatMap, shareOf_isSome]
  simp only [List.mem_map, List.mem_filter, decide_eq_true_eq, Prod.mk.injEq]
  constructor
  · rintro (⟨hr, ho⟩ | ⟨r', hr', s, ⟨hs, h1, h2⟩, rfl⟩)
    · exact ⟨hr, Or.inl ho⟩
    · exact ⟨hr', Or.inr ⟨s, hs, h1, h2⟩⟩
  · rintro ⟨hr, ho | ⟨s, hs, h1, h2⟩⟩
    · exact Or.inl ⟨hr, ho⟩
    · exact Or.inr ⟨r, hr, s, ⟨hs, h1, h2⟩, rfl⟩

/-- The rows `list_calendars_for_user` answers. -/
def calendarsFor (t : Tables) (userId : String) : List Calendar :=
  orderByName (t.calendarsOwnedOrShared userId).dedup

theorem calendarsFor_perm (t : Tables) (userId : String) :
    (t.calendarsFor userId).Perm (t.calendarsOwnedOrShared userId).dedup :=
  List.perm_insertionSort _ _

theorem calendarsFor_nodup (t : Tables) (userId : String) : (t.calendarsFor userId).Nodup :=
  (t.calendarsFor_perm userId).nodup_iff.mpr (List.nodup_dedup _)

/-- They are the rows of the calendars with a permission. -/
theorem Ok.mem_calendarsFor (h : t.Ok) {r : Calendar} : r ∈ t.calendarsFor userId ↔
    r ∈ t.calendars ∧ (t.permissionOf r.id userId).isSome := by
  rw [(t.calendarsFor_perm userId).mem_iff, List.mem_dedup, mem_calendarsOwnedOrShared,
    permissionOf_isSome]
  refine and_congr_right fun hr => or_congr_left ?_
  constructor
  · exact fun ho => ⟨r, h.calendarById_of_mem hr, ho⟩
  · rintro ⟨r', hr', ho⟩
    rw [h.calendarById_of_mem hr] at hr'
    obtain rfl := Option.some.inj hr'
    exact ho

/-- The ids they have. -/
theorem Ok.mem_calendarsFor_ids (h : t.Ok) :
    calendarId ∈ (t.calendarsFor userId).map (·.id) ↔
      (t.permissionOf calendarId userId).isSome := by
  rw [List.mem_map]
  constructor
  · rintro ⟨r, hr, rfl⟩
    exact (h.mem_calendarsFor.mp hr).2
  · intro hp
    obtain ⟨r, hr, hid⟩ := List.mem_map.mp (h.calendar_of_permission hp)
    exact ⟨r, h.mem_calendarsFor.mpr ⟨hr, by rwa [hid]⟩, hid⟩

theorem Ok.calendarsFor_ids_nodup (h : t.Ok) : ((t.calendarsFor userId).map (·.id)).Nodup := by
  refine List.Nodup.map_on (fun r hr r' hr' he => ?_) (t.calendarsFor_nodup userId)
  exact List.inj_on_of_nodup_map h.calendarId (h.mem_calendarsFor.mp hr).1
    (h.mem_calendarsFor.mp hr').1 he

end Tables

section

variable {env : Env} {w : World} {calendarId userId : String}

/-- `get_user_permission` answers the permission. -/
theorem getUserPermission_exec (env : Env) (w : World) (calendarId userId : String) :
    (getUserPermission calendarId userId).exec env w =
      (.ok (w.db.permissionOf calendarId userId), w) := by
  have hown : w.answer (.selectOwned calendarId userId) = .ok
      ((w.db.calendars.find? fun c => c.id = calendarId ∧ c.ownerId = userId).map (·.id)) := rfl
  have hiff : ((w.db.calendars.find? fun c => c.id = calendarId ∧ c.ownerId = userId).map
      (·.id)).isSome ↔ w.db.Owns userId calendarId := by
    rw [w.db.ok.owns_iff, Option.isSome_map, List.find?_isSome]
    simp
  unfold Call.exec getUserPermission
  rw [run_sql_bind, run_call, exec_sql, hown]
  dsimp only
  by_cases ho : w.db.Owns userId calendarId
  · rw [if_pos (hiff.mpr ho), ho.permissionOf]
    rfl
  · rw [if_neg (mt hiff.mp ho), Tables.permissionOf_of_not_owns ho]
    rfl

/-- `list_calendars_for_user` answers the calendars with a permission. -/
theorem listCalendarsForUser_exec (env : Env) (w : World) (userId : String) :
    (listCalendarsForUser userId).exec env w = (.ok (w.db.calendarsFor userId), w) := rfl

end

end CaldavMcp
