/-
  Two databases that look the same to one user.

  `Tables.Agree` compares two states as far as a user may look: at the users, at the shares the
  user holds, and at every calendar the user owns or has a share of. Two states agree on a
  calendar (`AgreeOn`) if they have the same row, the same objects and the same log of it, but
  for the numbers in the log: AUTOINCREMENT draws them from one counter for all calendars.

  Each statement on a calendar of the user leaves such states so. For the statements that edit
  one calendar that follows from what they do to it, since they spare the others
  (`Agree.edit`); a deleted calendar is out of sight in both (`Agree.deleteCalendar`).

  `Alike` is the same of two servers, which will draw the same Uuids. An upsert and a deletion
  answer alike in two such servers, and leave them alike.
-/
import CaldavMcp.Db.Runs
import CaldavMcp.Db.Access
import CaldavMcp.Program.Relational

namespace CaldavMcp

open Program

/-- An entry of the log without its number. -/
def SyncChange.unnumbered (e : SyncChange) : String × ChangeType × String :=
  (e.objectUid, e.changeType, e.syncToken)

/-- A statement that edits this calendar, its objects or its log. -/
def Sql.Edits (calendarId : String) : Sql → Prop
  | .insertObject o => o.calendarId = calendarId
  | .updateObject _ _ _ calendarId' _ | .deleteObject calendarId' _
  | .insertChange calendarId' _ _ _ => calendarId' = calendarId
  | .updateCalendar _ _ _ _ id | .updateCtag _ _ id => id = calendarId
  | _ => False

theorem Sql.Edits.on {calendarId : String} {s : Sql} (h : s.Edits calendarId) :
    s.On calendarId := by
  cases s <;> first | exact h | exact h.elim

namespace Tables

/-- Two states agree on a calendar. -/
structure AgreeOn (calendarId : String) (t t' : Tables) : Prop where
  row : t.calendarById calendarId = t'.calendarById calendarId
  objects : t.objectsOf calendarId = t'.objectsOf calendarId
  log : (t.changesOf calendarId).map (·.unnumbered) = (t'.changesOf calendarId).map (·.unnumbered)

/-- Two states agree as far as the user may look. -/
structure Agree (userId : String) (t t' : Tables) : Prop where
  users : t.users = t'.users
  shares : t.sharesOfUser userId = t'.sharesOfUser userId
  calendars : ∀ calendarId, (t.permissionOf calendarId userId).isSome ∨
    (t'.permissionOf calendarId userId).isSome → AgreeOn calendarId t t'

variable {t t' : Tables} {calendarId userId : String}

/-! ## What is read -/

theorem objectByUid_eq_find (t : Tables) (calendarId uid : String) :
    t.objectByUid calendarId uid = (t.objectsOf calendarId).find? fun o => o.uid = uid := by
  unfold Tables.objectByUid objectsOf
  rw [List.find?_filter]
  congr 1
  funext o
  simp

theorem AgreeOn.objectByUid (h : AgreeOn calendarId t t') (uid : String) :
    t.objectByUid calendarId uid = t'.objectByUid calendarId uid := by
  rw [objectByUid_eq_find, objectByUid_eq_find, h.objects]

theorem AgreeOn.mem_calendarIds (h : AgreeOn calendarId t t') :
    calendarId ∈ t.calendarIds ↔ calendarId ∈ t'.calendarIds := by
  rw [Tables.mem_calendarIds, Tables.mem_calendarIds, h.row]

theorem shareOf_eq_find (t : Tables) (calendarId userId : String) :
    t.shareOf calendarId userId =
      (t.sharesOfUser userId).find? fun s => s.calendarId = calendarId := by
  unfold shareOf sharesOfUser
  rw [List.find?_filter]
  congr 1
  funext s
  simp [and_comm]

theorem Agree.permissionOf (h : Agree userId t t') (calendarId : String) :
    t.permissionOf calendarId userId = t'.permissionOf calendarId userId := by
  have howns : t.Owns userId calendarId ↔ t'.Owns userId calendarId := by
    constructor
    · intro ho
      have hrow := (h.calendars calendarId (Or.inl (permissionOf_isSome.mpr (Or.inl ho)))).row
      obtain ⟨r, hr, howner⟩ := ho
      exact ⟨r, hrow ▸ hr, howner⟩
    · intro ho
      have hrow := (h.calendars calendarId (Or.inr (permissionOf_isSome.mpr (Or.inl ho)))).row
      obtain ⟨r, hr, howner⟩ := ho
      exact ⟨r, hrow ▸ hr, howner⟩
  unfold Tables.permissionOf
  refine if_congr howns rfl ?_
  rw [shareOf_eq_find, shareOf_eq_find, h.shares]

theorem Agree.symm (h : Agree userId t t') : Agree userId t' t :=
  ⟨h.users.symm, h.shares.symm, fun calendarId hp => by
    have hc := h.calendars calendarId hp.symm
    exact ⟨hc.row.symm, hc.objects.symm, hc.log.symm⟩⟩

/-- The two states agree on each calendar the user may use. -/
theorem Agree.on (h : Agree userId t t') (hp : (t.permissionOf calendarId userId).isSome) :
    AgreeOn calendarId t t' :=
  h.calendars calendarId (Or.inl hp)

/-- `ORDER BY name` sorts, with ties broken by the id. -/
theorem pairwise_orderByName (cs : List Calendar) :
    (orderByName cs).Pairwise fun a b => a.name < b.name ∨ a.name = b.name ∧ a.id ≤ b.id := by
  have : Std.Total fun a b : Calendar => a.name < b.name ∨ a.name = b.name ∧ a.id ≤ b.id :=
    ⟨fun a b => by
      obtain h | h | h := lt_trichotomy a.name b.name
      · exact Or.inl (Or.inl h)
      · exact (le_total a.id b.id).imp (fun hid => Or.inr ⟨h, hid⟩) fun hid => Or.inr ⟨h.symm, hid⟩
      · exact Or.inr (Or.inl h)⟩
  have : IsTrans Calendar fun a b => a.name < b.name ∨ a.name = b.name ∧ a.id ≤ b.id :=
    ⟨fun a b c hab hbc => by
      obtain hab | ⟨hab, hid⟩ := hab
      · obtain hbc | ⟨hbc, -⟩ := hbc
        · exact Or.inl (lt_trans hab hbc)
        · exact Or.inl (hbc ▸ hab)
      · obtain hbc | ⟨hbc, hid'⟩ := hbc
        · exact Or.inl (hab ▸ hbc)
        · exact Or.inr ⟨hab.trans hbc, le_trans hid hid'⟩⟩
  exact List.pairwise_insertionSort _ _

/-- The list of the user's calendars is sorted by name and id, so it does not depend on the
    order of the rows. -/
theorem Agree.calendarsFor (h : Agree userId t t') (hok : t.Ok) (hok' : t'.Ok) :
    t.calendarsFor userId = t'.calendarsFor userId := by
  have hsub : ∀ {t t' : Tables}, t.Ok → t'.Ok → Agree userId t t' →
      ∀ r ∈ t.calendarsFor userId, r ∈ t'.calendarsFor userId := by
    intro t t' hok hok' h r hr
    obtain ⟨hmem, hp⟩ := hok.mem_calendarsFor.mp hr
    have hrow := hok.calendarById_of_mem hmem
    rw [(h.on hp).row] at hrow
    exact hok'.mem_calendarsFor.mpr
      ⟨List.mem_of_find?_eq_some hrow, h.permissionOf r.id ▸ hp⟩
  have hperm : (t.calendarsFor userId).Perm (t'.calendarsFor userId) :=
    (List.perm_ext_iff_of_nodup (t.calendarsFor_nodup userId) (t'.calendarsFor_nodup userId)).mpr
      fun r => ⟨hsub hok hok' h r, hsub hok' hok h.symm r⟩
  refine hperm.eq_of_pairwise (fun a b ha hb hab hba => ?_) (pairwise_orderByName _)
    (pairwise_orderByName _)
  -- rows that stand in both orders have one id, and so are one row
  have hid : a.id = b.id := by
    obtain hlt | ⟨hname, hle⟩ := hab
    · obtain hlt' | ⟨hname', -⟩ := hba
      · exact absurd hlt' (lt_asymm hlt)
      · exact absurd hname'.symm hlt.ne
    · obtain hlt' | ⟨-, hle'⟩ := hba
      · exact absurd hname.symm hlt'.ne
      · exact le_antisymm hle hle'
  have hb' := hsub hok' hok h.symm b hb
  exact List.inj_on_of_nodup_map hok.calendarId (hok.mem_calendarsFor.mp ha).1
    (hok.mem_calendarsFor.mp hb').1 hid

/-! ## What is written -/

/-- An UPDATE of calendar rows. -/
theorem AgreeOn.updateRows (h : AgreeOn calendarId t t') {f : Calendar → Calendar}
    (hf : ∀ c, (f c).id = c.id) :
    AgreeOn calendarId { t with calendars := t.calendars.map f }
      { t' with calendars := t'.calendars.map f } :=
  ⟨by rw [calendarById_map t hf, calendarById_map t' hf, h.row], h.objects, h.log⟩

theorem AgreeOn.updateCalendar (h : AgreeOn calendarId t t')
    (name description color timezone id : String) :
    AgreeOn calendarId (t.after (.updateCalendar name description color timezone id))
      (t'.after (.updateCalendar name description color timezone id)) :=
  h.updateRows fun c => by split <;> rfl

theorem AgreeOn.updateCtag (h : AgreeOn calendarId t t') (ctag syncToken id : String) :
    AgreeOn calendarId (t.after (.updateCtag ctag syncToken id))
      (t'.after (.updateCtag ctag syncToken id)) :=
  h.updateRows fun c => by split <;> rfl

theorem AgreeOn.insertObject (h : AgreeOn calendarId t t') {o : CalendarObject}
    (ha : t.Accepts o) (ha' : t'.Accepts o) :
    AgreeOn calendarId (t.after (.insertObject o)) (t'.after (.insertObject o)) := by
  rw [after_insertObject_accepted ha, after_insertObject_accepted ha']
  refine ⟨h.row, ?_, h.log⟩
  unfold objectsOf
  rw [List.filter_append, List.filter_append]
  exact congrArg (· ++ _) h.objects

/-- An UPDATE of objects, on the objects of one calendar. -/
theorem objectsOf_map (t : Tables) {f : CalendarObject → CalendarObject}
    (hf : ∀ o, (f o).calendarId = o.calendarId) (calendarId : String) :
    objectsOf { t with calendarObjects := t.calendarObjects.map f } calendarId =
      (t.objectsOf calendarId).map f := by
  unfold objectsOf
  rw [List.filter_map]
  have same : ((fun o : CalendarObject => decide (o.calendarId = calendarId)) ∘ f) =
      fun o => decide (o.calendarId = calendarId) := by
    funext o
    rw [Function.comp_apply, hf]
  rw [same]

theorem AgreeOn.updateObject (h : AgreeOn calendarId t t') (etag icalData : String)
    (fields : ObjectFields) (calendarId' uid : String) :
    AgreeOn calendarId (t.after (.updateObject etag icalData fields calendarId' uid))
      (t'.after (.updateObject etag icalData fields calendarId' uid)) := by
  refine ⟨h.row, ?_, h.log⟩
  have hobjects : ∀ t : Tables, objectsOf (t.after (.updateObject etag icalData fields calendarId'
      uid)) calendarId = (t.objectsOf calendarId).map fun o =>
        if o.calendarId = calendarId' ∧ o.uid = uid then setObject etag icalData fields o else o :=
    fun t => objectsOf_map t (fun o => by split <;> rfl) calendarId
  rw [hobjects, hobjects, h.objects]

theorem AgreeOn.deleteObject (h : AgreeOn calendarId t t') (calendarId' uid : String) :
    AgreeOn calendarId (t.after (.deleteObject calendarId' uid))
      (t'.after (.deleteObject calendarId' uid)) := by
  refine ⟨h.row, ?_, h.log⟩
  have hobjects : ∀ t : Tables, objectsOf (t.after (.deleteObject calendarId' uid)) calendarId =
      (t.objectsOf calendarId).filter fun o => ¬ (o.calendarId = calendarId' ∧ o.uid = uid) :=
    fun t => List.filter_comm ..
  rw [hobjects, hobjects, h.objects]

theorem AgreeOn.insertChange (h : AgreeOn calendarId t t') (hc : calendarId ∈ t.calendarIds)
    (uid : String) (type : ChangeType) (token : String) :
    AgreeOn calendarId (t.after (.insertChange calendarId uid type token))
      (t'.after (.insertChange calendarId uid type token)) := by
  -- the numbers of the two new entries may differ
  have hlog : ∀ t : Tables, calendarId ∈ t.calendarIds →
      ((t.after (.insertChange calendarId uid type token)).changesOf calendarId).map
        (·.unnumbered) = (t.changesOf calendarId).map (·.unnumbered) ++ [(uid, type, token)] := by
    intro t hc
    have hsnoc : (t.after (.insertChange calendarId uid type token)).syncChanges =
        t.syncChanges ++ [⟨t.changeSeq + 1, calendarId, uid, type, token⟩] := by
      rw [after_insertChange hc]
    rw [changesOf_snoc hsnoc, if_pos rfl, List.map_append]
    rfl
  have hc' := h.mem_calendarIds.mp hc
  refine ⟨?_, ?_, by rw [hlog t hc, hlog t' hc', h.log]⟩
  · rw [after_insertChange hc, after_insertChange hc']
    exact h.row
  · rw [after_insertChange hc, after_insertChange hc']
    exact h.objects

theorem SameCalendar.agreeOn {t₁ t₁' : Tables} (hs : SameCalendar calendarId t t₁)
    (hs' : SameCalendar calendarId t' t₁') (h : AgreeOn calendarId t t') :
    AgreeOn calendarId t₁ t₁' :=
  ⟨hs.row.trans (h.row.trans hs'.row.symm), hs.objects.trans (h.objects.trans hs'.objects.symm), by
    rw [hs.changes, hs'.changes, h.log]⟩

theorem SameCalendar.permissionOf {t₁ : Tables} (hs : SameCalendar calendarId t t₁)
    (userId : String) : t₁.permissionOf calendarId userId = t.permissionOf calendarId userId := by
  have hfind : ∀ t : Tables, t.shareOf calendarId userId =
      (t.sharesOfCalendar calendarId).find? fun s => s.userId = userId := by
    intro t
    unfold shareOf sharesOfCalendar
    rw [List.find?_filter]
    congr 1
    funext s
    simp
  have howns : t₁.Owns userId calendarId ↔ t.Owns userId calendarId := by
    unfold Owns
    rw [hs.row]
  unfold Tables.permissionOf
  refine if_congr howns rfl ?_
  rw [hfind, hfind, hs.shares]

/-- An edit leaves the users, the shares and the owners. -/
theorem sameOwners_edit {s : Sql} (hs : s.Edits calendarId) (t : Tables) :
    SameOwners t (t.after s) := by
  cases s with
  | insertObject o =>
    by_cases ha : t.Accepts o
    · rw [after_insertObject_accepted ha]
      exact ⟨rfl, rfl, fun _ => rfl⟩
    · rw [after_insertObject_refused ha]
      exact ⟨rfl, rfl, fun _ => rfl⟩
  | insertChange calendarId uid type token =>
    by_cases hc : calendarId ∈ t.calendarIds
    · rw [after_insertChange hc]
      exact ⟨rfl, rfl, fun _ => rfl⟩
    · rw [after_insertChange_missing hc]
      exact ⟨rfl, rfl, fun _ => rfl⟩
  | updateCalendar | updateCtag =>
    refine ⟨rfl, rfl, fun id => ?_⟩
    refine (congrArg _ (calendarById_map t (fun c => by split <;> rfl) id)).trans ?_
    rw [Option.map_map]
    refine congrArg (fun f => Option.map f _) (funext fun c => ?_)
    rw [Function.comp_apply]
    split <;> rfl
  | updateObject | deleteObject => exact ⟨rfl, rfl, fun _ => rfl⟩
  | _ => exact hs.elim

/-- **An edit leaves the states alike.** It spares every other calendar, so what it does to its own is
    all there is to see. -/
theorem Agree.edit {s : Sql} (h : Agree userId t t') (hs : s.Edits calendarId)
    (hc : AgreeOn calendarId (t.after s) (t'.after s)) :
    Agree userId (t.after s) (t'.after s) := by
  have howners := sameOwners_edit hs t
  have howners' := sameOwners_edit hs t'
  refine ⟨howners.users.trans (h.users.trans howners'.users.symm), ?_, fun id hp => ?_⟩
  · unfold sharesOfUser
    rw [howners.shares, howners'.shares]
    exact h.shares
  · rw [howners.permissionOf, howners'.permissionOf] at hp
    by_cases hid : id = calendarId
    · exact hid ▸ hc
    · exact (sameCalendar_after t hs.on hid).agreeOn (sameCalendar_after t' hs.on hid)
        (h.calendars id hp)

theorem permissionOf_deleteCalendar (t : Tables) (calendarId userId : String) :
    (t.after (.deleteCalendar calendarId)).permissionOf calendarId userId = none := by
  have hrow : (t.after (.deleteCalendar calendarId)).calendarById calendarId = none := by
    rw [calendarById_deleteCalendar, if_pos rfl]
  have hshare : (t.after (.deleteCalendar calendarId)).shareOf calendarId userId = none := by
    refine List.find?_eq_none.mpr fun s hs => ?_
    have hne : s.calendarId ≠ calendarId := of_decide_eq_true (List.mem_filter.mp hs).2
    simp [hne]
  rw [permissionOf_of_not_owns, hshare]
  · rfl
  · rintro ⟨r, hr, -⟩
    rw [hrow] at hr
    cases hr

/-- A deleted calendar is out of sight in both states. -/
theorem Agree.deleteCalendar (h : Agree userId t t') (calendarId : String) :
    Agree userId (t.after (.deleteCalendar calendarId)) (t'.after (.deleteCalendar calendarId)) := by
  refine ⟨h.users, ?_, fun id hp => ?_⟩
  · have hshares : ∀ t : Tables, sharesOfUser (t.after (.deleteCalendar calendarId)) userId =
        (t.sharesOfUser userId).filter (·.calendarId ≠ calendarId) := fun t => List.filter_comm ..
    rw [hshares, hshares, h.shares]
  · by_cases hid : id = calendarId
    · rw [hid, permissionOf_deleteCalendar, permissionOf_deleteCalendar] at hp
      exact absurd hp (by decide)
    · have hsame := sameCalendar_deleteCalendar t hid
      have hsame' := sameCalendar_deleteCalendar t' hid
      rw [hsame.permissionOf, hsame'.permissionOf] at hp
      exact hsame.agreeOn hsame' (h.calendars id hp)

theorem Ok.objectsOf_missing (h : t.Ok) (hc : calendarId ∉ t.calendarIds) :
    t.objectsOf calendarId = [] := by
  refine List.filter_eq_nil_iff.mpr fun o ho hid => hc ?_
  rw [← of_decide_eq_true hid]
  exact h.objectCalendar o ho

theorem Ok.changesOf_missing (h : t.Ok) (hc : calendarId ∉ t.calendarIds) :
    t.changesOf calendarId = [] := by
  refine List.filter_eq_nil_iff.mpr fun e he hid => hc ?_
  rw [← of_decide_eq_true hid]
  exact h.changeCalendar e he

/-- A calendar with an id that is new to both states: made in both, or in neither. -/
theorem Agree.insertCalendar (h : Agree userId t t') (hok : t.Ok) (hok' : t'.Ok) {r : Calendar}
    (hfree : r.id ∉ t.calendarIds) (hfree' : r.id ∉ t'.calendarIds) :
    t.answer (.insertCalendar r) = t'.answer (.insertCalendar r) ∧
      Agree userId (t.after (.insertCalendar r)) (t'.after (.insertCalendar r)) := by
  have hnew : ∀ {t : Tables}, r.id ∉ t.calendarIds → ¬ (t.calendars.any (·.id = r.id)) = true :=
    fun hfree => by rwa [any_eq_iff]
  by_cases howner : (t.users.any (·.id = r.ownerId)) = true
  · have hexec : ∀ {t : Tables}, r.id ∉ t.calendarIds →
        (t.users.any (·.id = r.ownerId)) = true →
        t.exec (.insertCalendar r) = .ok (1, { t with calendars := t.calendars ++ [r] }) :=
      fun hfree howner => (if_neg (hnew hfree)).trans (if_pos howner)
    obtain ⟨ha, ht⟩ := of_exec_ok (hexec hfree howner)
    obtain ⟨ha', ht'⟩ := of_exec_ok (hexec hfree' (h.users ▸ howner))
    refine ⟨ha.trans ha'.symm, ?_, ?_, fun id hp => ?_⟩
    · rw [ht, ht']
      exact h.users
    · rw [ht, ht']
      exact h.shares
    · by_cases hid : id = r.id
      · subst hid
        have hrow : ∀ {t : Tables}, t.Ok →
            t.after (.insertCalendar r) = { t with calendars := t.calendars ++ [r] } →
            (t.after (.insertCalendar r)).calendarById r.id = some r := by
          intro t hok ht
          refine (after_ok hok _).calendarById_of_mem ?_
          rw [ht]
          exact List.mem_append_right _ List.mem_cons_self
        refine ⟨(hrow hok ht).trans (hrow hok' ht').symm, ?_, ?_⟩
        · rw [ht, ht']
          exact (hok.objectsOf_missing hfree).trans (hok'.objectsOf_missing hfree').symm
        · rw [ht, ht']
          show (t.changesOf r.id).map _ = (t'.changesOf r.id).map _
          rw [hok.changesOf_missing hfree, hok'.changesOf_missing hfree']
      · have hsame := sameCalendar_after t (show (Sql.insertCalendar r).On r.id from rfl) hid
        have hsame' := sameCalendar_after t' (show (Sql.insertCalendar r).On r.id from rfl) hid
        rw [hsame.permissionOf, hsame'.permissionOf] at hp
        exact hsame.agreeOn hsame' (h.calendars id hp)
  · have hexec : ∀ {t : Tables}, r.id ∉ t.calendarIds →
        ¬ (t.users.any (·.id = r.ownerId)) = true → t.exec (.insertCalendar r) = .error .foreignKey :=
      fun hfree howner => (if_neg (hnew hfree)).trans (if_neg howner)
    obtain ⟨ha, ht⟩ := of_exec_error (hexec hfree howner)
    obtain ⟨ha', ht'⟩ := of_exec_error (hexec hfree' (h.users ▸ howner))
    refine ⟨ha.trans ha'.symm, ?_⟩
    rw [ht, ht']
    exact h

end Tables

/-! ## Two servers -/

/-- No object has an id that is still to be drawn. -/
def World.Fresh (env : Env) (w : World) : Prop :=
  ∀ o ∈ w.db.calendarObjects, ∀ n, o.id ≠ env.uuid (w.drawn + n)

theorem Reachable.fresh {env : Env} {lib : Lib} {w : World} (hinj : Function.Injective env.uuid)
    (hw : Reachable env lib w) : w.Fresh env := by
  intro o ho n heq
  obtain ⟨m, hm, hid⟩ := (hw.synced hinj).objectId o ho
  have := hinj (hid.symm.trans heq)
  omega

/-- Two servers that look the same to the user, and will draw the same Uuids. -/
structure Alike (env env' : Env) (userId : String) (w w' : World) : Prop where
  agree : w.db.Agree userId w'.db.toTables
  draws : ∀ n, env.uuid (w.drawn + n) = env'.uuid (w'.drawn + n)
  fresh : w.Fresh env
  fresh' : w'.Fresh env'

section

variable {env env' : Env} {userId calendarId : String} {w w' : World}

theorem World.Fresh.draw (h : w.Fresh env) (n : Nat) : (w.draw n).Fresh env := by
  intro o ho m
  rw [World.draw_drawn, Nat.add_assoc]
  exact h o ho (n + m)

theorem World.Fresh.after (h : w.Fresh env) {s : Sql} (hs : ∀ o, s ≠ .insertObject o) :
    (w.after s).Fresh env := by
  intro o ho n
  have ho : o ∈ (exec env (.sql s) w).2.db.calendarObjects := ho
  obtain ho | heq | ⟨etag, icalData, fields, o', ho', -, rfl⟩ := mem_objects_exec ho
  · exact h o ho n
  · exact absurd (Op.sql.inj heq) (hs o)
  · exact h o' ho' n

theorem Alike.draw (h : Alike env env' userId w w') (n : Nat) :
    Alike env env' userId (w.draw n) (w'.draw n) := by
  refine ⟨h.agree, fun m => ?_, h.fresh.draw n, h.fresh'.draw n⟩
  rw [World.draw_drawn, World.draw_drawn, Nat.add_assoc, Nat.add_assoc]
  exact h.draws (n + m)

theorem Alike.edit (h : Alike env env' userId w w') (s : Sql) (hs : s.Edits calendarId)
    (hnew : ∀ o, s ≠ .insertObject o)
    (hc : Tables.AgreeOn calendarId (w.after s).db.toTables (w'.after s).db.toTables) :
    Alike env env' userId (w.after s) (w'.after s) :=
  ⟨h.agree.edit hs hc, h.draws, h.fresh.after hnew, h.fresh'.after hnew⟩

end

/-- In two servers that look the same to the user, the program answers the same, and leaves them
    looking the same. -/
abbrev AlikeRuns (env env' : Env) (userId : String) {α : Type} (p : Action α) (w w' : World) :
    Prop :=
  p.RunsAlike (exec env) (exec env') (Alike env env' userId) w w'

/-- A program that only reads runs the same in every process. -/
theorem reads_env {α : Type} {p : Action α} (hp : p.Only Op.Reads) (env env' : Env) (w : World) :
    p.run (exec env) w = p.run (exec env') w := by
  induction p generalizing w with
  | ret a => rfl
  | call o k ih =>
    cases o with
    | sql s => exact ih _ (hp.2 _) _
    | _ => exact hp.1.elim

section

variable {env env' : Env} {userId calendarId uid : String} {w w' : World} {α : Type}

/-- A program that only reads, and reads the same. -/
theorem alikeRuns_reads {p : Action α} (h : Alike env env' userId w w') (hp : p.Only Op.Reads)
    (heq : (p.run (exec env) w).1 = (p.run (exec env) w').1) :
    AlikeRuns env env' userId p w w' := by
  refine ⟨heq.trans (congrArg Prod.fst (reads_env hp env env' w')), ?_⟩
  rw [run_reads hp, run_reads hp]
  exact h

/-! ## The writes of the database layer -/

/-- An edit takes no permission away. -/
theorem permitted_after (s : Sql) (hs : s.Edits calendarId)
    (hp : (w.db.permissionOf calendarId userId).isSome) :
    ((w.after s).db.permissionOf calendarId userId).isSome := by
  rw [World.after_tables, (Tables.sameOwners_edit hs w.db.toTables).permissionOf]
  exact hp

theorem Alike.logged (h : Alike env env' userId w w')
    (hp : (w.db.permissionOf calendarId userId).isSome) (uid : String) (type : ChangeType)
    (token : String) :
    Alike env env' userId (w.logged env calendarId uid type token)
      (w'.logged env' calendarId uid type token) := by
  have hc := w.db.ok.calendar_of_permission hp
  have hlog := h.edit (.insertChange calendarId uid type token) rfl nofun
    ((h.agree.on hp).insertChange hc uid type token)
  have hp' := permitted_after (.insertChange calendarId uid type token) rfl hp
  have hdraw : env.uuid w.drawn = env'.uuid w'.drawn := h.draws 0
  unfold World.logged
  rw [← hdraw]
  exact (hlog.draw 1).edit (.updateCtag _ _ calendarId) rfl nofun
    ((hlog.agree.on hp').updateCtag _ _ calendarId)

theorem World.Fresh.insert (hinj : Function.Injective env.uuid) (h : w.Fresh env)
    {row : CalendarObject} (ha : w.db.Accepts row) {m n : Nat}
    (hid : row.id = env.uuid (w.drawn + m)) (hmn : m < n) :
    ((w.draw n).after (.insertObject row)).Fresh env := by
  intro o ho k
  have hobjects : ((w.draw n).after (.insertObject row)).db.calendarObjects =
      w.db.calendarObjects ++ [row] := by
    rw [World.after_tables, World.draw_db, Tables.after_insertObject_accepted ha]
  rw [World.after_drawn, World.draw_drawn, Nat.add_assoc]
  rw [hobjects] at ho
  obtain ho | ho := List.mem_append.mp ho
  · exact h o ho (n + k)
  · obtain rfl := List.mem_singleton.mp ho
    intro heq
    have := hinj (hid.symm.trans heq)
    omega

/-- **An upsert** in a calendar of the user. -/
theorem alike_upsertObject (hinj : Function.Injective env.uuid)
    (hinj' : Function.Injective env'.uuid) (h : Alike env env' userId w w')
    (hp : (w.db.permissionOf calendarId userId).isSome) (uid icalData : String)
    (fields : ObjectFields) :
    AlikeRuns env env' userId (upsertObject calendarId uid icalData fields).run w w' := by
  have hon := h.agree.on hp
  have hc := w.db.ok.calendar_of_permission hp
  have hetag : etagOf (env.uuid w.drawn) = etagOf (env'.uuid w'.drawn) := congrArg etagOf (h.draws 0)
  have htoken : syncTokenOf (env.uuid (w.drawn + 1)) = syncTokenOf (env'.uuid (w'.drawn + 1)) :=
    congrArg syncTokenOf (h.draws 1)
  cases ho : w.db.objectByUid calendarId uid with
  | none =>
    have ho' := (hon.objectByUid uid).symm.trans ho
    have hrow : ObjectWrite.newRow env w calendarId uid icalData fields =
        ObjectWrite.newRow env' w' calendarId uid icalData fields := by
      unfold ObjectWrite.newRow
      rw [hetag, h.draws 2]
    have hfree : ∀ {env : Env} {w : World}, w.Fresh env →
        (ObjectWrite.newRow env w calendarId uid icalData fields).id ∉
          w.db.calendarObjects.map (·.id) := by
      intro env w hfresh hmem
      obtain ⟨o, ho, hid⟩ := List.mem_map.mp hmem
      exact hfresh o ho 2 hid
    have ha : w.db.Accepts (ObjectWrite.newRow env w calendarId uid icalData fields) :=
      ⟨hfree h.fresh, ho, hc⟩
    have ha' : w'.db.Accepts (ObjectWrite.newRow env' w' calendarId uid icalData fields) :=
      ⟨hfree h.fresh', ho', hon.mem_calendarIds.mp hc⟩
    have hinserted : Alike env env' userId
        ((w.draw 3).after (.insertObject (ObjectWrite.newRow env w calendarId uid icalData fields)))
        ((w'.draw 3).after
          (.insertObject (ObjectWrite.newRow env' w' calendarId uid icalData fields))) := by
      refine ⟨?_, (h.draw 3).draws, h.fresh.insert hinj ha rfl (by omega),
        h.fresh'.insert hinj' ha' rfl (by omega)⟩
      rw [← hrow] at ha' ⊢
      exact h.agree.edit (s := .insertObject _) rfl (hon.insertObject ha ha')
    have hp' := permitted_after (w := w.draw 3)
      (.insertObject (ObjectWrite.newRow env w calendarId uid icalData fields)) rfl hp
    constructor
    · rw [upsert_exec_accepted ha, upsert_exec_accepted ha', hrow]
    · rw [upsert_exec_accepted ha, upsert_exec_accepted ha', ← htoken]
      exact hinserted.logged hp' ..
  | some o =>
    have ho' := (hon.objectByUid uid).symm.trans ho
    have hupdated := (h.draw 2).edit
      (.updateObject (etagOf (env.uuid w.drawn)) icalData fields calendarId uid) rfl nofun
      (hon.updateObject _ icalData fields calendarId uid)
    have hp' := permitted_after (w := w.draw 2)
      (.updateObject (etagOf (env.uuid w.drawn)) icalData fields calendarId uid) rfl hp
    constructor
    · rw [upsert_exec_old ho, upsert_exec_old ho', hetag]
    · rw [upsert_exec_old ho, upsert_exec_old ho', ← htoken, ← hetag]
      exact hupdated.logged hp' ..

/-- **A deletion** in a calendar of the user. -/
theorem alike_deleteObject (h : Alike env env' userId w w')
    (hp : (w.db.permissionOf calendarId userId).isSome) (uid : String) :
    AlikeRuns env env' userId (deleteObject calendarId uid).run w w' := by
  have hon := h.agree.on hp
  have hdeleted := h.edit (.deleteObject calendarId uid) rfl nofun (hon.deleteObject calendarId uid)
  have hp' := permitted_after (.deleteObject calendarId uid) rfl hp
  have hdraw : env.uuid w.drawn = env'.uuid w'.drawn := h.draws 0
  cases ho : w.db.objectByUid calendarId uid with
  | none =>
    have ho' := (hon.objectByUid uid).symm.trans ho
    constructor
    · rw [delete_exec_missing ho, delete_exec_missing ho']
    · rw [delete_exec_missing ho, delete_exec_missing ho']
      exact hdeleted
  | some o =>
    have ho' := (hon.objectByUid uid).symm.trans ho
    constructor
    · rw [delete_exec_found ho, delete_exec_found ho']
    · rw [delete_exec_found ho, delete_exec_found ho', ← hdraw]
      exact (hdeleted.draw 1).logged hp' ..

end

end CaldavMcp
