/-
  Owned and shared calendars.

  `Partitioned` puts three queries side by side: what `list_calendars_for_user` answers is what
  `list_calendars_for_owner` and `list_shared_calendars` answer together, no calendar twice.
  `share_calendar` does not ask who owns the calendar, so a user may hold a share of a calendar
  of their own; `list_shared_calendars` then lists it, with a level that `get_user_permission`,
  which asks for the owner first, does not report.

  `Ungranted` excludes such shares. A calendar is new when it is created and its shares go with
  it, so only `share_calendar` can break it (`Ungranted.call`).
-/
import CaldavMcp.Db.Grants

namespace CaldavMcp

open Program

/-! ## What `list_shared_calendars` answers -/

namespace Tables

variable {t : Tables} {userId : String}

/-- The calendars of some shares, each with its level. -/
def calendarsOfShares (t : Tables) (shares : List CalendarShare) : List (Calendar × Permission) :=
  shares.filterMap fun s => (t.calendarById s.calendarId).map fun cal => (cal, s.permission)

/-- The rows `list_shared_calendars` answers. -/
def sharedWith (t : Tables) (userId : String) : List (Calendar × Permission) :=
  (t.calendarsOfShares (t.sharesOfUser userId)).insertionSort fun a b => a.1.name ≤ b.1.name

theorem sharedWith_perm (t : Tables) (userId : String) :
    (t.sharedWith userId).Perm (t.calendarsOfShares (t.sharesOfUser userId)) :=
  List.perm_insertionSort _ _

/-- A share is the one its key finds. -/
theorem Ok.shareOf_of_mem (h : t.Ok) {s : CalendarShare} (hs : s ∈ t.calendarShares) :
    t.shareOf s.calendarId s.userId = some s := by
  have hsome : (t.shareOf s.calendarId s.userId).isSome := by
    rw [shareOf_isSome, List.mem_map]
    exact ⟨s, hs, rfl⟩
  obtain ⟨s', hs'⟩ := Option.isSome_iff_exists.mp hsome
  have hkey := shareOf_key hs'
  have heq : s' = s := List.inj_on_of_nodup_map h.shareUser (List.mem_of_find?_eq_some hs') hs
    (Prod.ext hkey.1 hkey.2)
  rw [hs', heq]

theorem Ok.mem_sharedWith (h : t.Ok) {cal : Calendar} {permission : Permission} :
    (cal, permission) ∈ t.sharedWith userId ↔
      cal ∈ t.calendars ∧ (t.shareOf cal.id userId).map (·.permission) = some permission := by
  rw [(t.sharedWith_perm userId).mem_iff]
  unfold calendarsOfShares sharesOfUser
  rw [List.mem_filterMap]
  constructor
  · intro hs
    obtain ⟨s, hs, hcal⟩ := hs
    obtain ⟨hmem, huser⟩ := List.mem_filter.mp hs
    obtain ⟨r, hr, hpair⟩ := Option.map_eq_some_iff.mp hcal
    obtain ⟨rfl, rfl⟩ := Prod.mk.inj hpair
    obtain rfl := of_decide_eq_true huser
    refine ⟨List.mem_of_find?_eq_some hr, ?_⟩
    rw [calendarById_id hr, h.shareOf_of_mem hmem]
    rfl
  · intro hs
    obtain ⟨hcal, hmap⟩ := hs
    obtain ⟨s, hshare, rfl⟩ := Option.map_eq_some_iff.mp hmap
    obtain ⟨hid, huser⟩ := shareOf_key hshare
    have hmem := List.mem_of_find?_eq_some hshare
    refine ⟨s, List.mem_filter.mpr ⟨hmem, decide_eq_true huser⟩, ?_⟩
    rw [hid, h.calendarById_of_mem hcal]
    rfl

/-- No calendar twice: a user has one share of a calendar. -/
theorem Ok.sharedWith_ids_nodup (h : t.Ok) (userId : String) :
    ((t.sharedWith userId).map fun s => s.1.id).Nodup := by
  have hkeys : ((t.sharesOfUser userId).map (·.calendarId)).Nodup := by
    have hpairs : ((t.sharesOfUser userId).map fun s => (s.calendarId, s.userId)).Nodup :=
      nodup_map_filter _ h.shareUser
    have hmap : (t.sharesOfUser userId).map (fun s => (s.calendarId, s.userId)) =
        ((t.sharesOfUser userId).map (·.calendarId)).map fun id => (id, userId) := by
      rw [List.map_map]
      apply List.map_congr_left
      intro s hs
      exact Prod.ext rfl (of_decide_eq_true (List.mem_filter.mp hs).2)
    rw [hmap] at hpairs
    exact hpairs.of_map _
  have hids : (t.calendarsOfShares (t.sharesOfUser userId)).map (fun s => s.1.id) =
      (t.sharesOfUser userId).map (·.calendarId) := by
    unfold calendarsOfShares
    rw [List.map_filterMap, ← List.filterMap_eq_map]
    apply List.filterMap_congr
    intro s hs
    have hc : s.calendarId ∈ t.calendarIds := h.shareCalendar s (List.mem_filter.mp hs).1
    obtain ⟨r, hr⟩ := Option.isSome_iff_exists.mp (mem_calendarIds.mp hc)
    rw [hr]
    exact congrArg some (calendarById_id hr)
  have hperm := (t.sharedWith_perm userId).map fun s => s.1.id
  rw [hperm.nodup_iff, hids]
  exact hkeys

/-- The rows `list_calendars_for_owner` answers. -/
def ownedBy (t : Tables) (userId : String) : List Calendar :=
  (t.calendars.filter (·.ownerId = userId)).insertionSort fun a b => a.name ≤ b.name

theorem mem_ownedBy {r : Calendar} :
    r ∈ t.ownedBy userId ↔ r ∈ t.calendars ∧ r.ownerId = userId := by
  unfold ownedBy
  rw [(List.perm_insertionSort _ _).mem_iff, List.mem_filter, decide_eq_true_eq]

theorem Ok.ownedBy_nodup (h : t.Ok) (userId : String) : (t.ownedBy userId).Nodup := by
  unfold ownedBy
  rw [(List.perm_insertionSort _ _).nodup_iff]
  exact (h.calendarId.of_map _).filter _

end Tables

section

variable {env : Env} {w : World} {userId : String}

theorem sharedCalendars_exec (env : Env) (w : World) (shares : List CalendarShare) :
    (sharedCalendars shares).exec env w = (.ok (w.db.calendarsOfShares shares), w) := by
  induction shares with
  | nil => rfl
  | cons share shares ih =>
    unfold Call.exec at ih ⊢
    unfold sharedCalendars getCalendarById
    rw [run_sql_bind, run_call, exec_sql, show w.answer (.selectCalendarById share.calendarId) =
      .ok (w.db.calendarById share.calendarId) from rfl]
    unfold Tables.calendarsOfShares at ih ⊢
    rw [List.filterMap_cons]
    dsimp only
    cases w.db.calendarById share.calendarId with
    | none => exact ih
    | some cal =>
      dsimp only [Option.map_some]
      exact run_except_bind_ok ih

theorem listSharedCalendars_exec (env : Env) (w : World) (userId : String) :
    (listSharedCalendars userId).exec env w = (.ok (w.db.sharedWith userId), w) := by
  unfold Call.exec listSharedCalendars
  rw [run_sql_bind, run_call, exec_sql, show w.answer (.selectSharesOfUser userId) =
    .ok (w.db.sharesOfUser userId) from rfl]
  exact run_except_bind_ok (sharedCalendars_exec env w (w.db.sharesOfUser userId))

theorem listCalendarsForOwner_exec (env : Env) (w : World) (userId : String) :
    (listCalendarsForOwner userId).exec env w = (.ok (w.db.ownedBy userId), w) := rfl

end

/-! ## The partition -/

/-- What the three lists of a user's calendars have to do with each other. -/
structure Partition (env : Env) (w : World) (userId : String) (all owned : List Calendar)
    (shared : List (Calendar × Permission)) : Prop where
  /-- `owned` is what the user owns. -/
  owns : ∀ r, r ∈ owned ↔ r ∈ w.db.calendars ∧ r.ownerId = userId
  union : all.Perm (owned ++ shared.map (·.1))
  disjoint : (owned ++ shared.map (·.1)).Nodup
  /-- A calendar shared with the user is listed once. -/
  once : ∀ calendarId, (w.db.shareOf calendarId userId).isSome →
    (shared.map fun s => s.1.id).count calendarId = 1
  permission : ∀ s ∈ shared,
    ((getUserPermission s.1.id userId).exec env w).1 = .ok (some s.2)
  notOwned : ∀ s ∈ shared, s.1.ownerId ≠ userId

/-- Owned and shared calendars partition the accessible ones. -/
def Partitioned (env : Env) (w : World) (userId : String) : Prop :=
  ∃ all owned shared, ((listCalendarsForUser userId).exec env w).1 = .ok all ∧
    ((listCalendarsForOwner userId).exec env w).1 = .ok owned ∧
    ((listSharedCalendars userId).exec env w).1 = .ok shared ∧
    Partition env w userId all owned shared

/-- The user holds no share of a calendar of their own. -/
def Tables.Ungranted (t : Tables) (userId : String) : Prop :=
  ∀ calendarId, t.Owns userId calendarId → t.shareOf calendarId userId = none

section

variable {env : Env} {w : World} {userId : String}

theorem Tables.Ungranted.not_owned {t : Tables} (h : t.Ungranted userId) (hok : t.Ok)
    {s : Calendar × Permission} (hs : s ∈ t.sharedWith userId) : ¬ t.Owns userId s.1.id := by
  intro ho
  have hshare := (hok.mem_sharedWith.mp hs).2
  rw [h s.1.id ho] at hshare
  cases hshare

theorem Partition.of_ungranted (env : Env) (h : w.db.Ungranted userId) :
    Partition env w userId (w.db.calendarsFor userId) (w.db.ownedBy userId)
      (w.db.sharedWith userId) := by
  have hok := w.db.ok
  have hids := hok.sharedWith_ids_nodup userId
  have hshared : ((w.db.sharedWith userId).map (·.1)).Nodup := by
    apply List.Nodup.of_map (·.id)
    rw [List.map_map]
    exact hids
  have hnot : ∀ s ∈ w.db.sharedWith userId, s.1.ownerId ≠ userId := by
    intro s hs ho
    have hcal := (hok.mem_sharedWith.mp hs).1
    exact h.not_owned hok hs ⟨s.1, hok.calendarById_of_mem hcal, ho⟩
  have hdisjoint : (w.db.ownedBy userId ++ (w.db.sharedWith userId).map (·.1)).Nodup := by
    rw [List.nodup_append']
    refine ⟨hok.ownedBy_nodup userId, hshared, ?_⟩
    intro r hr hr'
    obtain ⟨s, hs, rfl⟩ := List.mem_map.mp hr'
    exact hnot s hs (Tables.mem_ownedBy.mp hr).2
  refine ⟨fun r => Tables.mem_ownedBy, ?_, hdisjoint, ?_, ?_, hnot⟩
  · -- neither side repeats a row, so it is enough that they have the same ones
    rw [List.perm_ext_iff_of_nodup (w.db.calendarsFor_nodup userId) hdisjoint]
    intro r
    rw [hok.mem_calendarsFor, List.mem_append, Tables.mem_ownedBy, Tables.permissionOf_isSome,
      List.mem_map]
    constructor
    · intro hr
      obtain ⟨hr, ho | hs⟩ := hr
      · obtain ⟨r', hr', ho⟩ := ho
        rw [hok.calendarById_of_mem hr] at hr'
        obtain rfl := Option.some.inj hr'
        exact Or.inl ⟨hr, ho⟩
      · obtain ⟨s, hs⟩ := Option.isSome_iff_exists.mp hs
        refine Or.inr ⟨(r, s.permission), hok.mem_sharedWith.mpr ⟨hr, ?_⟩, rfl⟩
        rw [hs]
        rfl
    · intro hr
      obtain hr | hr := hr
      · exact ⟨hr.1, Or.inl ⟨r, hok.calendarById_of_mem hr.1, hr.2⟩⟩
      · obtain ⟨s, hs, rfl⟩ := hr
        obtain ⟨hcal, hshare⟩ := hok.mem_sharedWith.mp hs
        obtain ⟨share, hshare, -⟩ := Option.map_eq_some_iff.mp hshare
        refine ⟨hcal, Or.inr ?_⟩
        rw [hshare]
        rfl
  · intro calendarId hs
    apply List.count_eq_one_of_mem hids
    obtain ⟨s, hs⟩ := Option.isSome_iff_exists.mp hs
    obtain ⟨r, hr⟩ := Option.isSome_iff_exists.mp
      (Tables.mem_calendarIds.mp (hok.calendar_of_share hs))
    obtain rfl := Tables.calendarById_id hr
    refine List.mem_map.mpr ⟨(r, s.permission), hok.mem_sharedWith.mpr ?_, rfl⟩
    refine ⟨List.mem_of_find?_eq_some hr, ?_⟩
    rw [hs]
    rfl
  · intro s hs
    rw [getUserPermission_exec, Tables.permissionOf_of_not_owns (h.not_owned hok hs)]
    exact congrArg Except.ok (hok.mem_sharedWith.mp hs).2

/-- In any state, the partition is right for a user who holds no share of their own. -/
theorem partitioned_iff_ungranted (env : Env) (w : World) (userId : String) :
    Partitioned env w userId ↔ w.db.Ungranted userId := by
  constructor
  · intro h calendarId ho
    obtain ⟨all, owned, shared, -, -, hshared, hp⟩ := h
    rw [listSharedCalendars_exec] at hshared
    obtain rfl := Except.ok.inj hshared
    obtain ⟨r, hr, hr'⟩ := ho
    by_contra hs
    obtain ⟨s, hs⟩ := Option.ne_none_iff_exists'.mp hs
    have hmem : (r, s.permission) ∈ w.db.sharedWith userId := by
      apply w.db.ok.mem_sharedWith.mpr
      rw [Tables.calendarById_id hr, hs]
      exact ⟨List.mem_of_find?_eq_some hr, rfl⟩
    exact hp.notOwned (r, s.permission) hmem hr'
  · intro h
    exact ⟨_, _, _, congrArg Prod.fst (listCalendarsForUser_exec env w userId),
      congrArg Prod.fst (listCalendarsForOwner_exec env w userId),
      congrArg Prod.fst (listSharedCalendars_exec env w userId), Partition.of_ungranted env h⟩

end

/-! ## Only a share breaks it -/

/-- An operation that grants no share. -/
def Op.GrantsNothing : Op → Prop
  | .sql (.upsertShare _) => False
  | _ => True

namespace Tables

variable {t t' : Tables} {userId : String}

/-- Owners are owners from before, and their shares are not new. -/
theorem Ungranted.frame (h : t.Ungranted userId)
    (howns : ∀ calendarId, t'.Owns userId calendarId → t.Owns userId calendarId)
    (hshare : ∀ calendarId, t'.Owns userId calendarId →
      t.shareOf calendarId userId = none → t'.shareOf calendarId userId = none) :
    t'.Ungranted userId :=
  fun calendarId ho => hshare calendarId ho (h calendarId (howns calendarId ho))

/-- An update of calendar rows that keeps their ids and owners. -/
theorem Ungranted.updateCalendars (h : t.Ungranted userId) {f : Calendar → Calendar}
    (hid : ∀ c, (f c).id = c.id) (howner : ∀ c, (f c).ownerId = c.ownerId) :
    Ungranted { t with calendars := t.calendars.map f } userId := by
  apply h.frame
  · intro calendarId ho
    obtain ⟨r, hr, ho⟩ := ho
    rw [calendarById_map t hid] at hr
    obtain ⟨r', hr', rfl⟩ := Option.map_eq_some_iff.mp hr
    exact ⟨r', hr', (howner r').symm.trans ho⟩
  · exact fun _ _ hs => hs

/-- A calendar goes with its shares. -/
theorem Ungranted.deleteCalendar (h : t.Ungranted userId) (id : String) :
    (t.after (.deleteCalendar id)).Ungranted userId := by
  apply h.frame
  · intro calendarId ho
    obtain ⟨r, hr, ho⟩ := ho
    rw [calendarById_deleteCalendar] at hr
    split at hr
    · cases hr
    · exact ⟨r, hr, ho⟩
  · intro calendarId ho hs
    have hne : calendarId ≠ id := by
      intro hid
      obtain ⟨r, hr, -⟩ := ho
      rw [calendarById_deleteCalendar, if_pos hid] at hr
      cases hr
    rw [shareOf_eq, (t.sameCalendar_deleteCalendar hne).shares, ← shareOf_eq, hs]

/-- A new calendar has no share yet. -/
theorem Ungranted.insertCalendar (h : t.Ungranted userId) (hok : t.Ok) (r : Calendar) :
    (t.after (.insertCalendar r)).Ungranted userId := by
  by_cases hfree : r.id ∈ t.calendarIds
  · have he : t.exec (.insertCalendar r) = .error (.primaryKey "calendars.id") := by
      simp only [exec]
      rw [if_pos (any_eq_iff.mpr hfree)]
    rw [(of_exec_error he).2]
    exact h
  · obtain ht | ht := t.after_insertCalendar r
    · rw [ht]
      exact h
    · rw [ht]
      intro calendarId ho
      by_cases hid : calendarId = r.id
      · rw [hid]
        exact hok.shareOf_none hfree userId
      · obtain ⟨r', hr', ho⟩ := ho
        unfold calendarById at hr'
        rw [List.find?_append] at hr'
        simp only [List.find?_singleton, Ne.symm hid, decide_false, Bool.false_eq_true, if_false,
          Option.or_none] at hr'
        exact h calendarId ⟨r', hr', ho⟩

/-- A share with someone who does not own the calendar. -/
theorem Ungranted.grant (h : t.Ungranted userId) {calendarId granteeId : String}
    {permission : Permission} (hc : t'.calendars = t.calendars)
    (hview : ∀ calendarId' userId', (t'.shareOf calendarId' userId').map (·.permission) =
      if calendarId' = calendarId ∧ userId' = granteeId then some permission
      else (t.shareOf calendarId' userId').map (·.permission))
    (hother : ¬ t.Owns granteeId calendarId) : t'.Ungranted userId := by
  have howns : ∀ c, t'.Owns userId c → t.Owns userId c := by
    intro c ho
    unfold Owns calendarById at ho ⊢
    rwa [hc] at ho
  intro c ho
  have hlevel := hview c userId
  have hne : ¬ (c = calendarId ∧ userId = granteeId) := by
    intro hk
    obtain ⟨rfl, rfl⟩ := hk
    exact hother (howns c ho)
  rw [if_neg hne, h c (howns c ho)] at hlevel
  exact Option.map_eq_none_iff.mp hlevel

theorem Ungranted.after (h : t.Ungranted userId) (hok : t.Ok) {s : Sql}
    (hs : (Op.sql s).GrantsNothing) : (t.after s).Ungranted userId := by
  cases s with
  | insertUser | insertObject | insertChange =>
    unfold Tables.after
    simp only [exec]
    split_ifs <;> exact h
  | insertCalendar r => exact h.insertCalendar hok r
  | updateCalendar name description color timezone id =>
    exact h.updateCalendars (fun c => by split <;> rfl) fun c => by split <;> rfl
  | updateCtag ctag syncToken id =>
    exact h.updateCalendars (fun c => by split <;> rfl) fun c => by split <;> rfl
  | deleteCalendar id => exact h.deleteCalendar id
  | deleteShare calendarId granteeId =>
    apply h.frame
    · exact fun _ ho => ho
    · intro calendarId' _ hs
      rw [shareOf_deleteShare, hs, ite_self]
  | upsertShare => exact hs.elim
  | _ => exact h

end Tables

/-- The states reached when no calendar is shared with its owner: a call grants no share at all,
    or it is a `share_calendar` with someone else. -/
inductive ReachableApart (env : Env) (lib : Lib) : World → Prop
  | init : ReachableApart env lib ⟨Db.init, 0⟩
  | draw {w : World} (n : Nat) (hw : ReachableApart env lib w) : ReachableApart env lib (w.draw n)
  | call {w : World} {α : Type} {c : Call α} (hc : DbCall lib c)
    (hnone : c.run.Only Op.GrantsNothing) (hw : ReachableApart env lib w) :
    ReachableApart env lib (c.exec env w).2
  | share {w : World} {calendarId userId : String} (permission : Permission)
    (hother : ¬ w.db.Owns userId calendarId) (hw : ReachableApart env lib w) :
    ReachableApart env lib ((shareCalendar calendarId userId permission).exec env w).2

section

variable {env : Env} {lib : Lib} {w : World} {userId : String}

theorem exec_ungranted (o : Op) (w : World) (ho : o.GrantsNothing) (h : w.db.Ungranted userId) :
    (exec env o w).2.db.Ungranted userId := by
  cases o with
  | sql s => exact h.after w.db.ok ho
  | newV4 | nowV7 | salt | utcNow => exact h

/-- **One share.** -/
theorem ungranted_share (h : w.db.Ungranted userId) {calendarId granteeId : String}
    (permission : Permission) (hother : ¬ w.db.Owns granteeId calendarId) :
    ((shareCalendar calendarId granteeId permission).exec env w).2.db.Ungranted userId := by
  obtain hrun | hrun := shareCalendar_exec env w calendarId granteeId permission
  · obtain ⟨s, t', -, -, -, ht, hcal, hview⟩ := hrun
    rw [ht]
    exact h.grant hcal hview hother
  · rw [hrun.2]
    exact h

/-- **A whole run.** -/
theorem ReachableApart.ungranted (hw : ReachableApart env lib w) (userId : String) :
    w.db.Ungranted userId := by
  induction hw with
  | init => exact nofun
  | draw n _ ih => exact ih
  | call _ hnone _ ih => exact run_only exec_ungranted hnone ih
  | share permission hother _ ih => exact ungranted_share ih permission hother

end

/-- **Owned and shared calendars.** In every state, the accessible calendars of a user are
    partitioned into the owned and the shared ones exactly when the user holds no share of a
    calendar of their own. In every run in which no calendar is shared with its owner, this is
    so for every user and in every state reached. -/
theorem partitioned_iff (env : Env) (lib : Lib) :
    (∀ w userId, Partitioned env w userId ↔ w.db.Ungranted userId) ∧
      ∀ w, ReachableApart env lib w → ∀ userId, Partitioned env w userId := by
  constructor
  · exact partitioned_iff_ungranted env
  · intro w hw userId
    exact (partitioned_iff_ungranted env w userId).mpr (hw.ungranted userId)

/-! ## A share with bob, and one with alice herself -/

/-- Bob has a share of alice's calendar `work`. -/
def lentWorld : World :=
  ((shareCalendar "work" (countingEnv.uuid 3) .read).exec countingEnv
    ((createUser sampleLib "bob" none "secret").exec countingEnv foundedWorld).2).2

theorem lentWorld_apart : ReachableApart countingEnv sampleLib lentWorld := by
  have hcreate : ∀ username email, (createUser sampleLib username email "secret").run.Only
      Op.GrantsNothing := fun username email =>
    only_createUser trivial trivial (fun _ => trivial) (fun _ => trivial) username email "secret"
  have hwork : (createCalendarWithId "work" (countingEnv.uuid 0) "Work" "" "#0E61B9"
      "UTC").run.Only Op.GrantsNothing :=
    only_createCalendarWithId trivial (fun _ => trivial) (fun _ => trivial) ..
  have hfounded : ReachableApart countingEnv sampleLib foundedWorld :=
    .call (.createCalendarWithId ..) hwork (.call (.createUser ..) (hcreate _ _) .init)
  exact .share .read (by decide) (.call (.createUser ..) (hcreate _ _) hfounded)

theorem partitioned_iff_lent : Partitioned countingEnv lentWorld (countingEnv.uuid 3) :=
  (partitioned_iff countingEnv sampleLib).2 lentWorld lentWorld_apart (countingEnv.uuid 3)

/-- Alice shares `work` with herself. -/
def selfWorld : World :=
  ((shareCalendar "work" (countingEnv.uuid 0) .read).exec countingEnv foundedWorld).2

/-- It is then listed as shared with her, to be read only, and she owns it. -/
theorem owner_listed_as_guest : ¬ ∀ (env : Env) (lib : Lib) (w : World), Reachable env lib w →
    ∀ userId, Partitioned env w userId := by
  intro h
  have hw : Reachable countingEnv sampleLib selfWorld :=
    .call (.shareCalendar ..) foundedWorld_reachable
  have hp := h countingEnv sampleLib selfWorld hw (countingEnv.uuid 0)
  rw [partitioned_iff_ungranted] at hp
  exact absurd (hp "work" (by decide)) (by decide)

end CaldavMcp
