/-
  The database: tables, the statements the server sends, and the constraints that hold
  after each of them.

  `Sql` has one constructor for each SQL statement of `src/db/`, with its bound values.
  `Tables.exec` is what SQLite does with it: the rows or the constraint error, and the tables
  afterwards. A table is the list of its rows in insertion order, so a query without ORDER BY
  lists rows in that order, and one with ORDER BY sorts stably (NULL first, text bytewise).
  `UNION ... ORDER BY name` sorts by the remaining columns after `name`; the first of them is
  the primary key, so ties are broken by `id`.

  `Tables.Ok` states the PRIMARY KEY, UNIQUE, REFERENCES and ON DELETE CASCADE clauses of the
  schema and that AUTOINCREMENT numbers the change log in insertion order. `Db` is a set of
  tables with a proof of it: no other database can be built. `Tables.exec_ok` is the proof
  that every statement keeps it, and `Db.exec` the statement on a `Db`.

  `World` adds the process's source of Uuids and of the time; `exec` is the handler for
  programs over `Op`. The n-th value drawn is `env.uuid n`. That Uuids are fresh is
  injectivity of `env.uuid`, and it is a hypothesis wherever it is used.
-/
import CaldavMcp.Program.Basic
import CaldavMcp.Db.Models

namespace CaldavMcp

open Program

/-- The tables of the schema. `changeSeq` is the last number AUTOINCREMENT gave out. -/
structure Tables where
  users : List User
  calendars : List Calendar
  calendarObjects : List CalendarObject
  calendarShares : List CalendarShare
  syncChanges : List SyncChange
  changeSeq : Nat
  deriving DecidableEq, Repr

namespace Tables

/-! ## Selections -/

variable (t : Tables)

def userByUsername (username : String) : Option User :=
  t.users.find? fun u => u.username = username

def userById (id : String) : Option User := t.users.find? fun u => u.id = id

def userByEmail (email : String) : Option User := t.users.find? fun u => u.email = some email

def calendarById (id : String) : Option Calendar := t.calendars.find? fun c => c.id = id

def objectByUid (calendarId uid : String) : Option CalendarObject :=
  t.calendarObjects.find? fun o => o.calendarId = calendarId ∧ o.uid = uid

def objectsOf (calendarId : String) : List CalendarObject :=
  t.calendarObjects.filter fun o => o.calendarId = calendarId

def shareOf (calendarId userId : String) : Option CalendarShare :=
  t.calendarShares.find? fun s => s.calendarId = calendarId ∧ s.userId = userId

def sharesOfUser (userId : String) : List CalendarShare :=
  t.calendarShares.filter fun s => s.userId = userId

def sharesOfCalendar (calendarId : String) : List CalendarShare :=
  t.calendarShares.filter fun s => s.calendarId = calendarId

def changesOf (calendarId : String) : List SyncChange :=
  t.syncChanges.filter fun c => c.calendarId = calendarId

/-- Rows the user owns, and one row for each share the user holds. -/
def calendarsOwnedOrShared (userId : String) : List Calendar :=
  (t.calendars.filter fun c => c.ownerId = userId) ++
    t.calendars.flatMap fun c =>
      (t.calendarShares.filter fun s => s.calendarId = c.id ∧ s.userId = userId).map fun _ => c

end Tables

/-! ## Orders -/

/-- SQLite's order on a nullable text column. -/
def nullFirstLe : Option String → Option String → Prop
  | none, _ => True
  | some _, none => False
  | some a, some b => a ≤ b

instance : DecidableRel nullFirstLe
  | none, _ => isTrue trivial
  | some _, none => isFalse id
  | some a, some b => inferInstanceAs (Decidable (a ≤ b))

/-- `ORDER BY dtstart`. -/
def orderByDtstart (os : List CalendarObject) : List CalendarObject :=
  os.insertionSort fun a b => nullFirstLe a.dtstart b.dtstart

/-- `ORDER BY name` over a query whose remaining columns break ties, `id` first. -/
def orderByName (cs : List Calendar) : List Calendar :=
  cs.insertionSort fun a b => a.name < b.name ∨ a.name = b.name ∧ a.id ≤ b.id

/-! ## Statements -/

/-- The statements of `src/db/`. -/
inductive Sql where
  -- users.rs
  | insertUser (u : User)
  | selectUserByUsername (username : String)
  | selectUserById (id : String)
  | selectUserByEmail (email : String)
  | updatePassword (hash username : String)
  -- calendars.rs
  | insertCalendar (c : Calendar)
  | selectCalendarById (id : String)
  | selectCalendarsOfOwner (ownerId : String)
  | selectCalendarsOfUser (userId : String)
  | updateCalendar (name description color timezone id : String)
  | deleteCalendar (id : String)
  | updateCtag (ctag syncToken id : String)
  -- events.rs
  | insertObject (o : CalendarObject)
  | updateObject (etag icalData : String) (fields : ObjectFields) (calendarId uid : String)
  | selectObjectByUid (calendarId uid : String)
  | selectObjects (calendarId : String)
  | selectObjectsInRange (calendarId stop start : String)
  | selectObjectsByUids (calendarId : String) (uids : List String)
  | deleteObject (calendarId uid : String)
  | insertChange (calendarId objectUid : String) (changeType : ChangeType) (syncToken : String)
  | selectAnchor (calendarId syncToken : String)
  | selectChangesAfter (calendarId : String) (id : Nat)
  | selectChanges (calendarId : String)
  -- shares.rs
  | upsertShare (s : CalendarShare)
  | selectShare (calendarId userId : String)
  | deleteShare (calendarId userId : String)
  | selectSharesOfCalendar (calendarId : String)
  | selectSharesOfUser (userId : String)
  | selectOwned (id ownerId : String)
  | selectPermission (calendarId userId : String)
  deriving DecidableEq, Repr

/-- What a statement returns: rows, or the number of rows it changed. -/
@[reducible] def Sql.Rows : Sql → Type
  | insertUser _ | updatePassword _ _ => Nat
  | selectUserByUsername _ | selectUserById _ | selectUserByEmail _ => Option User
  | insertCalendar _ | updateCalendar .. | deleteCalendar _ | updateCtag .. => Nat
  | selectCalendarById _ => Option Calendar
  | selectCalendarsOfOwner _ | selectCalendarsOfUser _ => List Calendar
  | insertObject _ | updateObject .. | deleteObject _ _ | insertChange .. => Nat
  | selectObjectByUid _ _ => Option CalendarObject
  | selectObjects _ | selectObjectsInRange .. | selectObjectsByUids _ _ => List CalendarObject
  | selectAnchor _ _ => Option Nat
  | selectChangesAfter _ _ | selectChanges _ => List SyncChange
  | upsertShare _ | deleteShare _ _ => Nat
  | selectShare _ _ => Option CalendarShare
  | selectSharesOfCalendar _ | selectSharesOfUser _ => List CalendarShare
  | selectOwned _ _ => Option String
  | selectPermission _ _ => Option Permission

namespace Tables

/-! ## What a statement does -/

variable (t : Tables)

/-- The row of `updateObject` after the update. -/
def setObject (etag icalData : String) (fields : ObjectFields) (o : CalendarObject) :
    CalendarObject :=
  { o with etag := etag, icalData := icalData, toObjectFields := fields }

/-- A statement's rows and the tables after it, or the constraint it violates. -/
def exec : (s : Sql) → Except DbError (s.Rows × Tables)
  | .insertUser u =>
    if t.users.any (·.id = u.id) then .error (.primaryKey "users.id")
    else if t.users.any (·.username = u.username) then .error (.unique "users.username")
    else .ok (1, { t with users := t.users ++ [u] })
  | .selectUserByUsername username => .ok (t.userByUsername username, t)
  | .selectUserById id => .ok (t.userById id, t)
  | .selectUserByEmail email => .ok (t.userByEmail email, t)
  | .updatePassword hash username =>
    .ok ((t.users.filter (·.username = username)).length,
      { t with users := t.users.map fun u =>
          if u.username = username then { u with passwordHash := hash } else u })
  | .insertCalendar c =>
    if t.calendars.any (·.id = c.id) then .error (.primaryKey "calendars.id")
    else if t.users.any (·.id = c.ownerId) then
      .ok (1, { t with calendars := t.calendars ++ [c] })
    else .error .foreignKey
  | .selectCalendarById id => .ok (t.calendarById id, t)
  | .selectCalendarsOfOwner ownerId =>
    .ok ((t.calendars.filter (·.ownerId = ownerId)).insertionSort (fun a b => a.name ≤ b.name), t)
  | .selectCalendarsOfUser userId =>
    .ok (orderByName (t.calendarsOwnedOrShared userId).dedup, t)
  | .updateCalendar name description color timezone id =>
    .ok ((t.calendars.filter (·.id = id)).length,
      { t with calendars := t.calendars.map fun c =>
          if c.id = id then
            { c with name := name, description := description, color := color,
                     timezone := timezone }
          else c })
  | .deleteCalendar id =>
    .ok ((t.calendars.filter (·.id = id)).length,
      { t with
        calendars := t.calendars.filter (·.id ≠ id)
        -- ON DELETE CASCADE of the three tables that reference `calendars(id)`
        calendarObjects := t.calendarObjects.filter (·.calendarId ≠ id)
        calendarShares := t.calendarShares.filter (·.calendarId ≠ id)
        syncChanges := t.syncChanges.filter (·.calendarId ≠ id) })
  | .updateCtag ctag syncToken id =>
    .ok ((t.calendars.filter (·.id = id)).length,
      { t with calendars := t.calendars.map fun c =>
          if c.id = id then { c with ctag := ctag, syncToken := syncToken } else c })
  | .insertObject o =>
    if t.calendarObjects.any (·.id = o.id) then .error (.primaryKey "calendar_objects.id")
    else if (t.objectByUid o.calendarId o.uid).isSome then
      .error (.unique "calendar_objects.calendar_id, calendar_objects.uid")
    else if t.calendars.any (·.id = o.calendarId) then
      .ok (1, { t with calendarObjects := t.calendarObjects ++ [o] })
    else .error .foreignKey
  | .updateObject etag icalData fields calendarId uid =>
    .ok ((t.calendarObjects.filter fun o => o.calendarId = calendarId ∧ o.uid = uid).length,
      { t with calendarObjects := t.calendarObjects.map fun o =>
          if o.calendarId = calendarId ∧ o.uid = uid then setObject etag icalData fields o else o })
  | .selectObjectByUid calendarId uid => .ok (t.objectByUid calendarId uid, t)
  | .selectObjects calendarId => .ok (orderByDtstart (t.objectsOf calendarId), t)
  | .selectObjectsInRange calendarId stop start =>
    .ok (orderByDtstart ((t.objectsOf calendarId).filter fun o =>
      -- a comparison with NULL is not true, so both columns have to be present
      o.dtstart.any (· < stop) && o.dtend.any (· > start)), t)
  | .selectObjectsByUids calendarId uids =>
    .ok (orderByDtstart ((t.objectsOf calendarId).filter fun o => o.uid ∈ uids), t)
  | .deleteObject calendarId uid =>
    .ok ((t.calendarObjects.filter fun o => o.calendarId = calendarId ∧ o.uid = uid).length,
      { t with calendarObjects :=
          t.calendarObjects.filter fun o => ¬ (o.calendarId = calendarId ∧ o.uid = uid) })
  | .insertChange calendarId objectUid changeType syncToken =>
    if t.calendars.any (·.id = calendarId) then
      .ok (1, { t with
        syncChanges := t.syncChanges ++
          [⟨t.changeSeq + 1, calendarId, objectUid, changeType, syncToken⟩]
        changeSeq := t.changeSeq + 1 })
    else .error .foreignKey
  | .selectAnchor calendarId syncToken =>
    .ok (((t.changesOf calendarId).find? (·.syncToken = syncToken)).map (·.id), t)
  | .selectChangesAfter calendarId id => .ok ((t.changesOf calendarId).filter (·.id > id), t)
  | .selectChanges calendarId => .ok (t.changesOf calendarId, t)
  | .upsertShare s =>
    if (t.shareOf s.calendarId s.userId).isSome then
      -- ON CONFLICT(calendar_id, user_id) DO UPDATE SET permission = excluded.permission
      .ok (1, { t with calendarShares := t.calendarShares.map fun s' =>
          if s'.calendarId = s.calendarId ∧ s'.userId = s.userId then
            { s' with permission := s.permission }
          else s' })
    else if t.calendarShares.any (·.id = s.id) then .error (.primaryKey "calendar_shares.id")
    else if t.calendars.any (·.id = s.calendarId) ∧ t.users.any (·.id = s.userId) then
      .ok (1, { t with calendarShares := t.calendarShares ++ [s] })
    else .error .foreignKey
  | .selectShare calendarId userId => .ok (t.shareOf calendarId userId, t)
  | .deleteShare calendarId userId =>
    .ok ((t.calendarShares.filter fun s => s.calendarId = calendarId ∧ s.userId = userId).length,
      { t with calendarShares :=
          t.calendarShares.filter fun s => ¬ (s.calendarId = calendarId ∧ s.userId = userId) })
  | .selectSharesOfCalendar calendarId => .ok (t.sharesOfCalendar calendarId, t)
  | .selectSharesOfUser userId => .ok (t.sharesOfUser userId, t)
  | .selectOwned id ownerId =>
    .ok ((t.calendars.find? fun c => c.id = id ∧ c.ownerId = ownerId).map (·.id), t)
  | .selectPermission calendarId userId =>
    .ok ((t.shareOf calendarId userId).map (·.permission), t)

end Tables

/-! ## Constraints -/

/-- The constraints of the schema. -/
structure Tables.Ok (t : Tables) : Prop where
  userId : (t.users.map (·.id)).Nodup
  username : (t.users.map (·.username)).Nodup
  calendarId : (t.calendars.map (·.id)).Nodup
  owner : ∀ c ∈ t.calendars, c.ownerId ∈ t.users.map (·.id)
  objectId : (t.calendarObjects.map (·.id)).Nodup
  objectUid : (t.calendarObjects.map fun o => (o.calendarId, o.uid)).Nodup
  objectCalendar : ∀ o ∈ t.calendarObjects, o.calendarId ∈ t.calendars.map (·.id)
  shareId : (t.calendarShares.map (·.id)).Nodup
  shareUser : (t.calendarShares.map fun s => (s.calendarId, s.userId)).Nodup
  shareCalendar : ∀ s ∈ t.calendarShares, s.calendarId ∈ t.calendars.map (·.id)
  shareGrantee : ∀ s ∈ t.calendarShares, s.userId ∈ t.users.map (·.id)
  changeOrder : t.syncChanges.Pairwise fun a b => a.id < b.id
  changeSeq : ∀ c ∈ t.syncChanges, c.id ≤ t.changeSeq
  changeCalendar : ∀ c ∈ t.syncChanges, c.calendarId ∈ t.calendars.map (·.id)

section Rows

variable {α κ : Type}

theorem nodup_map_snoc {l : List α} {key : α → κ} {x : α} (h : (l.map key).Nodup)
    (hx : key x ∉ l.map key) : ((l ++ [x]).map key).Nodup := by
  rw [List.map_append, List.nodup_append']
  refine ⟨h, by simp, ?_⟩
  simpa [List.disjoint_singleton] using hx

theorem nodup_map_filter {l : List α} {key : α → κ} (p : α → Bool) (h : (l.map key).Nodup) :
    ((l.filter p).map key).Nodup :=
  (List.filter_sublist.map key).nodup h

theorem any_eq_iff [DecidableEq κ] {l : List α} {key : α → κ} {x : κ} :
    (l.any fun a => key a = x) = true ↔ x ∈ l.map key := by
  simp [List.any_eq_true, List.mem_map]

end Rows

namespace Tables.Ok

variable {t : Tables}

theorem addUser (h : t.Ok) {u : User} (h1 : u.id ∉ t.users.map (·.id))
    (h2 : u.username ∉ t.users.map (·.username)) : Ok { t with users := t.users ++ [u] } :=
  { h with
    userId := nodup_map_snoc h.userId h1
    username := nodup_map_snoc h.username h2
    owner := fun c hc => by
      rw [List.map_append]; exact List.mem_append_left _ (h.owner c hc)
    shareGrantee := fun s hs => by
      rw [List.map_append]; exact List.mem_append_left _ (h.shareGrantee s hs) }

/-- An update of user rows that keeps their ids and usernames. -/
theorem updateUsers (h : t.Ok) {f : User → User} (h1 : ∀ u, (f u).id = u.id)
    (h2 : ∀ u, (f u).username = u.username) : Ok { t with users := t.users.map f } := by
  have e1 : (t.users.map f).map (·.id) = t.users.map (·.id) := by simp [h1]
  have e2 : (t.users.map f).map (·.username) = t.users.map (·.username) := by simp [h2]
  exact { h with
    userId := by rw [e1]; exact h.userId
    username := by rw [e2]; exact h.username
    owner := fun c hc => by rw [e1]; exact h.owner c hc
    shareGrantee := fun s hs => by rw [e1]; exact h.shareGrantee s hs }

theorem addCalendar (h : t.Ok) {c : Calendar} (h1 : c.id ∉ t.calendars.map (·.id))
    (h2 : c.ownerId ∈ t.users.map (·.id)) : Ok { t with calendars := t.calendars ++ [c] } := by
  have mono : ∀ x ∈ t.calendars.map (·.id), x ∈ (t.calendars ++ [c]).map (·.id) := by
    intro x hx
    rw [List.map_append]
    exact List.mem_append_left _ hx
  exact { h with
    calendarId := nodup_map_snoc h.calendarId h1
    owner := fun c' hc' => by
      rcases List.mem_append.mp hc' with hc' | hc'
      · exact h.owner c' hc'
      · rw [List.mem_singleton.mp hc']; exact h2
    objectCalendar := fun o ho => mono _ (h.objectCalendar o ho)
    shareCalendar := fun s hs => mono _ (h.shareCalendar s hs)
    changeCalendar := fun c hc => mono _ (h.changeCalendar c hc) }

/-- An update of calendar rows that keeps their ids and owners. -/
theorem updateCalendars (h : t.Ok) {f : Calendar → Calendar} (h1 : ∀ c, (f c).id = c.id)
    (h2 : ∀ c, (f c).ownerId = c.ownerId) : Ok { t with calendars := t.calendars.map f } := by
  have e1 : (t.calendars.map f).map (·.id) = t.calendars.map (·.id) := by simp [h1]
  exact { h with
    calendarId := by rw [e1]; exact h.calendarId
    owner := fun c hc => by
      obtain ⟨c', hc', rfl⟩ := List.mem_map.mp hc
      rw [h2]; exact h.owner c' hc'
    objectCalendar := fun o ho => by rw [e1]; exact h.objectCalendar o ho
    shareCalendar := fun s hs => by rw [e1]; exact h.shareCalendar s hs
    changeCalendar := fun c hc => by rw [e1]; exact h.changeCalendar c hc }

/-- Deleting a calendar with its cascade leaves no dangling reference. -/
theorem dropCalendar (h : t.Ok) (id : String) :
    Ok { t with
      calendars := t.calendars.filter (·.id ≠ id)
      calendarObjects := t.calendarObjects.filter (·.calendarId ≠ id)
      calendarShares := t.calendarShares.filter (·.calendarId ≠ id)
      syncChanges := t.syncChanges.filter (·.calendarId ≠ id) } := by
  have keep : ∀ x ∈ t.calendars.map (·.id), x ≠ id →
      x ∈ (t.calendars.filter (·.id ≠ id)).map (·.id) := by
    intro x hx hne
    obtain ⟨c, hc, rfl⟩ := List.mem_map.mp hx
    exact List.mem_map.mpr ⟨c, List.mem_filter.mpr ⟨hc, by simpa using hne⟩, rfl⟩
  exact { h with
    calendarId := nodup_map_filter _ h.calendarId
    owner := fun c hc => h.owner c (List.mem_filter.mp hc).1
    objectId := nodup_map_filter _ h.objectId
    objectUid := nodup_map_filter _ h.objectUid
    objectCalendar := fun o ho => by
      obtain ⟨ho, hne⟩ := List.mem_filter.mp ho
      exact keep _ (h.objectCalendar o ho) (by simpa using hne)
    shareId := nodup_map_filter _ h.shareId
    shareUser := nodup_map_filter _ h.shareUser
    shareCalendar := fun s hs => by
      obtain ⟨hs, hne⟩ := List.mem_filter.mp hs
      exact keep _ (h.shareCalendar s hs) (by simpa using hne)
    shareGrantee := fun s hs => h.shareGrantee s (List.mem_filter.mp hs).1
    changeOrder := h.changeOrder.filter _
    changeSeq := fun c hc => h.changeSeq c (List.mem_filter.mp hc).1
    changeCalendar := fun c hc => by
      obtain ⟨hc, hne⟩ := List.mem_filter.mp hc
      exact keep _ (h.changeCalendar c hc) (by simpa using hne) }

theorem addObject (h : t.Ok) {o : CalendarObject} (h1 : o.id ∉ t.calendarObjects.map (·.id))
    (h2 : (o.calendarId, o.uid) ∉ t.calendarObjects.map fun o => (o.calendarId, o.uid))
    (h3 : o.calendarId ∈ t.calendars.map (·.id)) :
    Ok { t with calendarObjects := t.calendarObjects ++ [o] } :=
  { h with
    objectId := nodup_map_snoc h.objectId h1
    objectUid := nodup_map_snoc h.objectUid h2
    objectCalendar := fun o' ho' => by
      rcases List.mem_append.mp ho' with ho' | ho'
      · exact h.objectCalendar o' ho'
      · rw [List.mem_singleton.mp ho']; exact h3 }

/-- An update of object rows that keeps their ids and keys. -/
theorem updateObjects (h : t.Ok) {f : CalendarObject → CalendarObject} (h1 : ∀ o, (f o).id = o.id)
    (h2 : ∀ o, (f o).calendarId = o.calendarId) (h3 : ∀ o, (f o).uid = o.uid) :
    Ok { t with calendarObjects := t.calendarObjects.map f } :=
  { h with
    objectId := by
      have e : (t.calendarObjects.map f).map (·.id) = t.calendarObjects.map (·.id) := by simp [h1]
      rw [e]; exact h.objectId
    objectUid := by
      have e : (t.calendarObjects.map f).map (fun o => (o.calendarId, o.uid)) =
          t.calendarObjects.map fun o => (o.calendarId, o.uid) := by simp [h2, h3]
      rw [e]; exact h.objectUid
    objectCalendar := fun o ho => by
      obtain ⟨o', ho', rfl⟩ := List.mem_map.mp ho
      rw [h2]; exact h.objectCalendar o' ho' }

theorem dropObjects (h : t.Ok) (p : CalendarObject → Bool) :
    Ok { t with calendarObjects := t.calendarObjects.filter p } :=
  { h with
    objectId := nodup_map_filter _ h.objectId
    objectUid := nodup_map_filter _ h.objectUid
    objectCalendar := fun o ho => h.objectCalendar o (List.mem_filter.mp ho).1 }

theorem addChange (h : t.Ok) {calendarId objectUid syncToken : String} {changeType : ChangeType}
    (hc : calendarId ∈ t.calendars.map (·.id)) :
    Ok { t with
      syncChanges := t.syncChanges ++
        [⟨t.changeSeq + 1, calendarId, objectUid, changeType, syncToken⟩]
      changeSeq := t.changeSeq + 1 } :=
  { h with
    changeOrder := by
      refine List.pairwise_append.mpr ⟨h.changeOrder, List.pairwise_singleton _ _, ?_⟩
      intro a ha b hb
      rw [List.mem_singleton.mp hb]
      exact Nat.lt_succ_of_le (h.changeSeq a ha)
    changeSeq := fun c hc' => by
      rcases List.mem_append.mp hc' with hc' | hc'
      · exact Nat.le_succ_of_le (h.changeSeq c hc')
      · rw [List.mem_singleton.mp hc']
    changeCalendar := fun c hc' => by
      rcases List.mem_append.mp hc' with hc' | hc'
      · exact h.changeCalendar c hc'
      · rw [List.mem_singleton.mp hc']; exact hc }

theorem addShare (h : t.Ok) {s : CalendarShare} (h1 : s.id ∉ t.calendarShares.map (·.id))
    (h2 : (s.calendarId, s.userId) ∉ t.calendarShares.map fun s => (s.calendarId, s.userId))
    (h3 : s.calendarId ∈ t.calendars.map (·.id)) (h4 : s.userId ∈ t.users.map (·.id)) :
    Ok { t with calendarShares := t.calendarShares ++ [s] } :=
  { h with
    shareId := nodup_map_snoc h.shareId h1
    shareUser := nodup_map_snoc h.shareUser h2
    shareCalendar := fun s' hs' => by
      rcases List.mem_append.mp hs' with hs' | hs'
      · exact h.shareCalendar s' hs'
      · rw [List.mem_singleton.mp hs']; exact h3
    shareGrantee := fun s' hs' => by
      rcases List.mem_append.mp hs' with hs' | hs'
      · exact h.shareGrantee s' hs'
      · rw [List.mem_singleton.mp hs']; exact h4 }

/-- An update of share rows that keeps their ids and keys. -/
theorem updateShares (h : t.Ok) {f : CalendarShare → CalendarShare} (h1 : ∀ s, (f s).id = s.id)
    (h2 : ∀ s, (f s).calendarId = s.calendarId) (h3 : ∀ s, (f s).userId = s.userId) :
    Ok { t with calendarShares := t.calendarShares.map f } :=
  { h with
    shareId := by
      have e : (t.calendarShares.map f).map (·.id) = t.calendarShares.map (·.id) := by simp [h1]
      rw [e]; exact h.shareId
    shareUser := by
      have e : (t.calendarShares.map f).map (fun s => (s.calendarId, s.userId)) =
          t.calendarShares.map fun s => (s.calendarId, s.userId) := by simp [h2, h3]
      rw [e]; exact h.shareUser
    shareCalendar := fun s hs => by
      obtain ⟨s', hs', rfl⟩ := List.mem_map.mp hs
      rw [h2]; exact h.shareCalendar s' hs'
    shareGrantee := fun s hs => by
      obtain ⟨s', hs', rfl⟩ := List.mem_map.mp hs
      rw [h3]; exact h.shareGrantee s' hs' }

theorem dropShares (h : t.Ok) (p : CalendarShare → Bool) :
    Ok { t with calendarShares := t.calendarShares.filter p } :=
  { h with
    shareId := nodup_map_filter _ h.shareId
    shareUser := nodup_map_filter _ h.shareUser
    shareCalendar := fun s hs => h.shareCalendar s (List.mem_filter.mp hs).1
    shareGrantee := fun s hs => h.shareGrantee s (List.mem_filter.mp hs).1 }

end Tables.Ok

end CaldavMcp
