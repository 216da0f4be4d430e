/-
  The change log under concurrency.

  A pool runs any number of `upsert_object` and `delete_object` calls, statement by statement.
  The row change and the log insert of a call are two statements, so another call can get in
  between, and the log can then end with an entry that is not true of the store.

  `NoOvertaking` is the condition on a step that rules this out: no row is inserted or removed
  while another call on the same object has found or changed its row and has not logged yet.
  `LogInv` is what every such step keeps: while a change is not logged, the row is as the
  change left it; otherwise the log agrees with the store.
-/
import CaldavMcp.Db.Phases

namespace CaldavMcp

open Program

/-- The pool of some object writes, none of them started. -/
def writePool (w : World) (xs : List ObjectWrite) :
    Pool World Op Op.Resp (Except AppError Unit) :=
  Pool.start w (xs.map fun x => x.call.run)

/-- How far each call of a pool has come. -/
def callPhases {α : Type} (phs₀ : List Phase) (p : Pool World Op Op.Resp α) : List Phase :=
  List.zipWith (fun ph t => t.hist.foldr (fun e ph => ph.next e.1 e.2) ph) phs₀ p.threads

/-- The operation inserts or removes the row of an object. -/
def ChangesRow (w : World) (calendarId uid : String) : Op → Prop
  | .sql (.insertObject o) => o.calendarId = calendarId ∧ o.uid = uid ∧ w.db.Accepts o
  | .sql (.deleteObject calendarId' uid') =>
    calendarId' = calendarId ∧ uid' = uid ∧ (w.db.objectByUid calendarId uid).isSome
  | _ => False

namespace Phase

/-- The call is about this object. -/
def On (ph : Phase) (calendarId uid : String) : Prop :=
  ph.write.calendarId = calendarId ∧ ph.write.uid = uid

/-- The call has found or changed the row of its object and has not logged a change. -/
def Unlogged (ph : Phase) : Prop := ph.stage = .found ∨ ph.stage = .wrote

/-- The call is a delete. -/
def IsDelete (ph : Phase) : Prop := ph.write = .delete ph.write.calendarId ph.write.uid

end Phase

/-- The step of call `i` does not insert or remove a row which another call has found or
    changed and not logged. -/
def NoOvertaking (xs : List ObjectWrite) (p : Pool World Op Op.Resp (Except AppError Unit))
    (i : Nat) : Prop :=
  ∀ t o calendarId uid, p.threads[i]? = some t → t.next? = some o →
    ChangesRow p.state calendarId uid o →
    ∀ j ph, j ≠ i → (callPhases (xs.map Phase.start) p)[j]? = some ph →
      ph.On calendarId uid → ¬ ph.Unlogged

/-! ## The invariant -/

/-- For one object: what its unlogged calls have left behind, and that the log agrees with
    the store once every change is logged. -/
structure LogInv (calendarId uid : String) (w : World) (phs : List Phase) : Prop where
  present : ∀ (i : Nat) ph, phs[i]? = some ph → ph.On calendarId uid → ph.Unlogged →
    ¬ ph.IsDelete → (w.db.objectByUid calendarId uid).isSome
  removed : ∀ (i : Nat) ph, phs[i]? = some ph → ph.On calendarId uid → ph.stage = .wrote →
    ph.IsDelete → w.db.objectByUid calendarId uid = none ∧ calendarId ∈ w.db.calendarIds
  agrees : (∀ (i : Nat) ph, phs[i]? = some ph → ph.On calendarId uid → ph.stage ≠ .wrote) →
    w.db.AgreesAt calendarId uid

section

variable {calendarId uid : String} {w w' : World} {phs : List Phase} {i : Nat} {ph ph' : Phase}

/-- A step that leaves the row and the log of the object as they are keeps the invariant, if
    the call that takes it does not become unlogged, or only by finding the row, and does not
    leave a change unlogged behind. -/
theorem LogInv.frame (hI : LogInv calendarId uid w phs) (hph : phs[i]? = some ph)
    (hrow : (w'.db.objectByUid calendarId uid).isSome = (w.db.objectByUid calendarId uid).isSome)
    (hlog : w'.db.lastChange calendarId uid = w.db.lastChange calendarId uid)
    (hids : w'.db.calendarIds = w.db.calendarIds) (hwrite : ph'.write = ph.write)
    (hstage : ph'.On calendarId uid → ph'.stage = ph.stage ∨ ¬ ph'.Unlogged ∨
      ph'.stage = .found ∧ (w.db.objectByUid calendarId uid).isSome)
    (hold : ph.On calendarId uid → ph.stage = .wrote → ph'.stage = .wrote) :
    LogInv calendarId uid w' (phs.set i ph') := by
  have hon : ph'.On calendarId uid ↔ ph.On calendarId uid := by unfold Phase.On; rw [hwrite]
  have hdel : ph'.IsDelete ↔ ph.IsDelete := by unfold Phase.IsDelete; rw [hwrite]
  refine ⟨?_, ?_, ?_⟩
  · intro j ph₁ hj h1 h2 h3
    rw [hrow]
    rcases getElem?_set_cases hj with ⟨rfl, rfl⟩ | ⟨-, hj⟩
    · rcases hstage h1 with h | h | h
      · refine hI.present j ph hph (hon.mp h1) ?_ fun h => h3 (hdel.mpr h)
        unfold Phase.Unlogged at h2 ⊢
        rwa [h] at h2
      · exact absurd h2 h
      · exact h.2
    · exact hI.present j ph₁ hj h1 h2 h3
  · intro j ph₁ hj h1 h2 h3
    have hnone : ∀ o : Option CalendarObject, o = none ↔ o.isSome = false := by
      intro o; cases o <;> simp
    rw [hids, hnone, hrow, ← hnone]
    rcases getElem?_set_cases hj with ⟨rfl, rfl⟩ | ⟨-, hj⟩
    · rcases hstage h1 with h | h | h
      · exact hI.removed j ph hph (hon.mp h1) (h.symm.trans h2) (hdel.mp h3)
      · exact absurd (Or.inr h2) h
      · rw [h.1] at h2; cases h2
    · exact hI.removed j ph₁ hj h1 h2 h3
  · intro hall
    rw [Tables.agreesAt_congr hlog hrow]
    refine hI.agrees fun j ph₁ hj h1 h2 => ?_
    by_cases hij : j = i
    · subst hij
      obtain rfl := Option.some.inj (hph.symm.trans hj)
      have hlt : j < phs.length := (List.getElem?_eq_some_iff.mp hph).1
      exact hall j ph' (List.getElem?_set_self hlt) (hon.mpr h1) (hold h1 h2)
    · exact hall j ph₁ (by rw [List.getElem?_set_ne (Ne.symm hij), hj]) h1 h2

/-- A call that changes the row of the object, with no other call unlogged on it. -/
theorem LogInv.change (hph : phs[i]? = some ph) (hwrite : ph'.write = ph.write)
    (hwrote : ph'.stage = .wrote) (hon : ph.On calendarId uid)
    (halone : ∀ j ph₁, j ≠ i → phs[j]? = some ph₁ → ph₁.On calendarId uid → ¬ ph₁.Unlogged)
    (hpresent : ¬ ph.IsDelete → (w'.db.objectByUid calendarId uid).isSome)
    (hremoved : ph.IsDelete →
      w'.db.objectByUid calendarId uid = none ∧ calendarId ∈ w'.db.calendarIds) :
    LogInv calendarId uid w' (phs.set i ph') := by
  have hon' : ph'.On calendarId uid := by unfold Phase.On; rwa [hwrite]
  have hdel : ph'.IsDelete ↔ ph.IsDelete := by unfold Phase.IsDelete; rw [hwrite]
  refine ⟨?_, ?_, ?_⟩
  · intro j ph₁ hj h1 h2 h3
    rcases getElem?_set_cases hj with ⟨rfl, rfl⟩ | ⟨hij, hj⟩
    · exact hpresent fun h => h3 (hdel.mpr h)
    · exact absurd h2 (halone j ph₁ hij hj h1)
  · intro j ph₁ hj h1 h2 h3
    rcases getElem?_set_cases hj with ⟨rfl, rfl⟩ | ⟨hij, hj⟩
    · exact hremoved (hdel.mp h3)
    · exact absurd (Or.inr h2) (halone j ph₁ hij hj h1)
  · intro hall
    have hlt : i < phs.length := (List.getElem?_eq_some_iff.mp hph).1
    exact absurd hwrote (hall i ph' (List.getElem?_set_self hlt) hon')

end

section

variable {env : Env} {calendarId uid : String} {w : World} {phs : List Phase} {i : Nat}
  {ph : Phase}

/-- An UPDATE keeps the rows that exist. -/
theorem isSome_updateObject (etag icalData : String) (fields : ObjectFields)
    (calendarId' uid' : String) :
    ((w.after (.updateObject etag icalData fields calendarId' uid')).db.objectByUid
      calendarId uid).isSome = (w.db.objectByUid calendarId uid).isSome := by
  rw [World.after_tables, Tables.objectByUid_updateObject]
  split
  · rename_i h; rw [h.1, h.2, Option.isSome_map]
  · rfl

theorem LogInv.log (hI : LogInv calendarId uid w phs) (hph : phs[i]? = some ph)
    (hs : ph.stage = .wrote) {type : ChangeType} {token : String}
    (ht : type = .deleted ↔ ph.IsDelete) :
    LogInv calendarId uid
      (w.after (.insertChange ph.write.calendarId ph.write.uid type token))
      (phs.set i (ph.next (.sql (.insertChange ph.write.calendarId ph.write.uid type token))
        (w.answer (.insertChange ph.write.calendarId ph.write.uid type token)))) := by
  by_cases hon : ph.On calendarId uid
  · -- the object's own log entry: it is now the last one, and it is true
    obtain ⟨hc, hu⟩ := hon
    rw [hc, hu]
    have hcal : calendarId ∈ w.db.calendarIds ∧
        (type ≠ .deleted ↔ (w.db.objectByUid calendarId uid).isSome) := by
      by_cases hd : ph.IsDelete
      · obtain ⟨h1, h2⟩ := hI.removed i ph hph ⟨hc, hu⟩ hs hd
        exact ⟨h2, by simp [h1, ht.mpr hd]⟩
      · have h1 := hI.present i ph hph ⟨hc, hu⟩ (Or.inr hs) hd
        obtain ⟨o, ho⟩ := Option.isSome_iff_exists.mp h1
        exact ⟨w.db.ok.calendar_of_object ho, by simp [ho, ht, hd]⟩
    have ha : w.answer (.insertChange calendarId uid type token) = .ok 1 :=
      Tables.answer_insertChange hcal.1
    have hafter : (w.after (.insertChange calendarId uid type token)).db.toTables = _ :=
      Tables.after_insertChange hcal.1
    have hrow : (w.after (.insertChange calendarId uid type token)).db.objectByUid calendarId uid =
        w.db.objectByUid calendarId uid := by rw [hafter]; rfl
    rw [ha]
    refine ⟨?_, ?_, fun _ => ?_⟩
    · intro j ph₁ hj h1 h2 h3
      rw [hrow]
      rcases getElem?_set_cases hj with ⟨rfl, rfl⟩ | ⟨-, hj⟩
      · rcases h2 with h | h <;> cases h
      · exact hI.present j ph₁ hj h1 h2 h3
    · intro j ph₁ hj h1 h2 h3
      rcases getElem?_set_cases hj with ⟨rfl, rfl⟩ | ⟨-, hj⟩
      · cases h2
      · rw [hrow]
        refine ⟨(hI.removed j ph₁ hj h1 h2 h3).1, ?_⟩
        rw [hafter]
        exact hcal.1
    · rw [Tables.agreesAt_iff, hrow, World.after_tables, Tables.lastChange_insertChange hcal.1,
        if_pos ⟨rfl, rfl⟩]
      rintro e he
      obtain rfl := Option.some.inj he
      exact hcal.2
  · have hframe : (w.after (.insertChange ph.write.calendarId ph.write.uid type token)).db.objectByUid
          calendarId uid = w.db.objectByUid calendarId uid ∧
        (w.after (.insertChange ph.write.calendarId ph.write.uid type token)).db.lastChange
          calendarId uid = w.db.lastChange calendarId uid ∧
        (w.after (.insertChange ph.write.calendarId ph.write.uid type token)).db.calendarIds =
          w.db.calendarIds := by
      by_cases hc : ph.write.calendarId ∈ w.db.calendarIds
      · refine ⟨?_, ?_, ?_⟩
        · rw [World.after_tables, Tables.after_insertChange hc]; rfl
        · rw [World.after_tables, Tables.lastChange_insertChange hc]
          exact if_neg hon
        · rw [World.after_tables, Tables.after_insertChange hc]; rfl
      · rw [World.after_tables, Tables.after_insertChange_missing hc]
        exact ⟨rfl, rfl, rfl⟩
    refine hI.frame hph (congrArg _ hframe.1) hframe.2.1 hframe.2.2 (Phase.next_write ..)
      (fun h => ?_) fun h => absurd h hon
    exact absurd (by unfold Phase.On at h; rwa [Phase.next_write] at h) hon

theorem LogInv.insert (hI : LogInv calendarId uid w phs) (hph : phs[i]? = some ph)
    (hs : ph.stage = .absent) {icalData : String} {fields : ObjectFields}
    (hw : ph.write = .upsert ph.write.calendarId ph.write.uid icalData fields)
    {o : CalendarObject} (hc : o.calendarId = ph.write.calendarId) (hu : o.uid = ph.write.uid)
    (halone : ChangesRow w calendarId uid (.sql (.insertObject o)) → ∀ j ph₁, j ≠ i →
      phs[j]? = some ph₁ → ph₁.On calendarId uid → ¬ ph₁.Unlogged) :
    LogInv calendarId uid (w.after (.insertObject o))
      (phs.set i (ph.next (.sql (.insertObject o)) (w.answer (.insertObject o)))) := by
  have hwrote : ¬ ph.stage = .wrote := by rw [hs]; simp
  by_cases ha : w.db.Accepts o
  · have hans : w.answer (.insertObject o) = .ok 1 := Tables.answer_insertObject_accepted ha
    have hrow := Tables.objectByUid_insertObject ha calendarId uid
    rw [hans]
    by_cases hon : ph.On calendarId uid
    · have hkey : calendarId = o.calendarId ∧ uid = o.uid :=
        ⟨hon.1.symm.trans hc.symm, hon.2.symm.trans hu.symm⟩
      have hdel : ¬ ph.IsDelete := by
        intro h
        unfold Phase.IsDelete at h
        rw [hw] at h
        cases h
      refine LogInv.change hph (Phase.next_write ..) rfl hon
        (halone ⟨hkey.1.symm, hkey.2.symm, ha⟩) (fun _ => ?_) fun h => absurd h hdel
      rw [World.after_tables, hrow, if_pos hkey]
      rfl
    · have hkey : ¬ (calendarId = o.calendarId ∧ uid = o.uid) :=
        fun h => hon ⟨(h.1.trans hc).symm, (h.2.trans hu).symm⟩
      refine hI.frame hph ?_ ?_ ?_ (Phase.next_write ..) (fun h => absurd h hon)
        fun h => absurd h hon
      · rw [World.after_tables, hrow, if_neg hkey]
      · rw [World.after_tables, Tables.after_insertObject_accepted ha]; rfl
      · rw [World.after_tables, Tables.after_insertObject_accepted ha]; rfl
  · obtain ⟨e, he⟩ := Tables.answer_insertObject_refused ha
    have hans : w.answer (.insertObject o) = .error e := he
    have hsame : (w.after (.insertObject o)).db.toTables = w.db.toTables :=
      Tables.after_insertObject_refused ha
    rw [hans]
    refine hI.frame hph (by rw [hsame]) (by rw [hsame]) (by rw [hsame]) (Phase.next_write ..)
      (fun _ => Or.inr (Or.inl ?_)) fun _ h => absurd h hwrote
    rintro (h | h) <;> cases h

theorem LogInv.remove (hI : LogInv calendarId uid w phs) (hph : phs[i]? = some ph)
    (hs : ph.stage = .ready) (hw : ph.IsDelete)
    (halone : ChangesRow w calendarId uid
      (.sql (.deleteObject ph.write.calendarId ph.write.uid)) → ∀ j ph₁, j ≠ i →
      phs[j]? = some ph₁ → ph₁.On calendarId uid → ¬ ph₁.Unlogged) :
    LogInv calendarId uid (w.after (.deleteObject ph.write.calendarId ph.write.uid))
      (phs.set i (ph.next (.sql (.deleteObject ph.write.calendarId ph.write.uid))
        (w.answer (.deleteObject ph.write.calendarId ph.write.uid)))) := by
  have hwrote : ¬ ph.stage = .wrote := by rw [hs]; simp
  have hans : w.answer (.deleteObject ph.write.calendarId ph.write.uid) =
    .ok (w.db.rowsOf ph.write.calendarId ph.write.uid) := rfl
  have hrow := Tables.objectByUid_deleteObject (t := w.db.toTables) ph.write.calendarId
    ph.write.uid calendarId uid
  rw [hans]
  cases ho : w.db.objectByUid ph.write.calendarId ph.write.uid with
  | none =>
    rw [Tables.rowsOf_eq_zero.mpr ho]
    refine hI.frame hph ?_ rfl rfl (Phase.next_write ..) (fun _ => Or.inr (Or.inl ?_))
      fun _ h => absurd h hwrote
    · rw [World.after_tables, hrow]
      split
      · rename_i h; rw [h.1, h.2, ho]
      · rfl
    · rintro (h | h) <;> cases h
  | some o =>
    have hrows : w.db.rowsOf ph.write.calendarId ph.write.uid ≠ 0 := by
      rw [Ne, Tables.rowsOf_eq_zero, ho]
      simp
    obtain ⟨n, hn⟩ := Nat.exists_eq_succ_of_ne_zero hrows
    rw [hn]
    by_cases hon : ph.On calendarId uid
    · obtain ⟨h1, h2⟩ := hon
      rw [h1, h2] at ho hrow halone ⊢
      refine LogInv.change hph (Phase.next_write ..) rfl ⟨h1, h2⟩
        (halone ⟨rfl, rfl, by rw [ho]; rfl⟩) (fun h => absurd hw h) fun _ => ⟨?_, ?_⟩
      · rw [World.after_tables, hrow, if_pos ⟨rfl, rfl⟩]
      · exact w.db.ok.calendar_of_object ho
    · refine hI.frame hph ?_ rfl rfl (Phase.next_write ..) (fun h => absurd h hon)
        fun h => absurd h hon
      rw [World.after_tables, hrow, if_neg fun h => hon ⟨h.1.symm, h.2.symm⟩]

/-- Every operation of a call keeps the invariant, if it does not overtake another call. -/
theorem LogInv.step (hI : LogInv calendarId uid w phs) (hph : phs[i]? = some ph) {o : Op}
    (hsend : ph.Sends o)
    (halone : ChangesRow w calendarId uid o → ∀ j ph₁, j ≠ i → phs[j]? = some ph₁ →
      ph₁.On calendarId uid → ¬ ph₁.Unlogged) :
    LogInv calendarId uid (exec env o w).2 (phs.set i (ph.next o (exec env o w).1)) := by
  cases hsend with
  | check etag hs =>
    refine hI.frame hph rfl rfl rfl rfl (fun _ => Or.inr (Or.inl ?_)) fun _ h => ?_
    · unfold Phase.Unlogged
      rw [Phase.next_select, hs]
      cases w.db.objectByUid ph.write.calendarId ph.write.uid with
      | none => simp [Stage.afterSelect]
      | some o => by_cases he : o.etag = etag <;> simp [Stage.afterSelect, he]
    · rw [hs] at h; cases h
  | look hs =>
    refine hI.frame hph rfl rfl rfl rfl (fun hon => ?_) fun _ h => ?_
    · obtain ⟨h1, h2⟩ : ph.On calendarId uid := hon
      unfold Phase.Unlogged
      rw [Phase.next_select, hs, h1, h2]
      cases w.db.objectByUid calendarId uid <;> simp [Stage.afterSelect]
    · rw [hs] at h; cases h
  | etag hs hv => exact hI.frame hph rfl rfl rfl rfl (fun _ => Or.inl rfl) fun _ h => h
  | uuid hs => exact hI.frame hph rfl rfl rfl rfl (fun _ => Or.inl rfl) fun _ h => h
  | update v icalData fields hs hw hv =>
    by_cases hon : ph.On calendarId uid
    · have hdel : ¬ ph.IsDelete := by
        intro h
        unfold Phase.IsDelete at h
        rw [hw] at h
        cases h
      have hrow := hI.present i ph hph hon (Or.inl hs) hdel
      have hrow' : ((w.after (.updateObject (etagOf v) icalData fields ph.write.calendarId
          ph.write.uid)).db.objectByUid calendarId uid).isSome = true :=
        (isSome_updateObject ..).trans hrow
      refine ⟨fun j ph₁ hj h1 h2 h3 => hrow', fun j ph₁ hj h1 h2 h3 => ?_, fun hall => ?_⟩
      · rcases getElem?_set_cases hj with ⟨rfl, rfl⟩ | ⟨-, hj⟩
        · exact absurd h3 (by unfold Phase.IsDelete; rw [Phase.next_write]; exact hdel)
        · have := (hI.removed j ph₁ hj h1 h2 h3).1
          rw [this] at hrow
          cases hrow
      · have hlt : i < phs.length := (List.getElem?_eq_some_iff.mp hph).1
        exact absurd rfl (hall i _ (List.getElem?_set_self hlt) hon)
    · exact hI.frame hph (isSome_updateObject ..) rfl rfl rfl (fun h => absurd h hon)
        fun h => absurd h hon
  | insert v icalData fields row hs hw hv hc hu he hd => exact hI.insert hph hs hw hc hu halone
  | remove hs hw => exact hI.remove hph hs hw halone
  | log type token hs ht => exact hI.log hph hs ht
  | bump b hs hv => 
    refine hI.frame hph rfl rfl (Tables.calendarIds_updateCtag ..) rfl
      (fun _ => Or.inr (Or.inl ?_)) fun _ h => ?_
    · rintro (h | h) <;> cases h
    · rw [hs] at h; cases h
  | reread hs =>
    refine hI.frame hph rfl rfl rfl rfl (fun _ => Or.inr (Or.inl ?_)) fun _ h => ?_
    · unfold Phase.Unlogged
      rw [Phase.next_select, hs]
      cases w.db.objectByUid ph.write.calendarId ph.write.uid <;> simp [Stage.afterSelect]
    · rw [hs] at h; cases h

end

/-! ## Whole runs -/

section

variable (env : Env)

/-- The outline of the calls of a pool. -/
abbrev callOutline : Outline (exec env) (Except AppError Unit) :=
  writeOutline env (Except AppError Unit) (fun _ _ => True) fun ph _ => ph.stage.Over

theorem callOutline_covers (w : World) (xs : List ObjectWrite) :
    (callOutline env).Covers (xs.map Phase.start) (writePool w xs) := by
  refine Outline.covers_start _ (by simp) fun i ph q hph hq => ?_
  rw [List.getElem?_map, Option.map_eq_some_iff] at hph hq
  obtain ⟨x, hx, rfl⟩ := hph
  obtain ⟨x', hx', rfl⟩ := hq
  obtain rfl := Option.some.inj (hx.symm.trans hx')
  exact objectWrite_follows x

theorem callOutline_start (w : World) (xs : List ObjectWrite) :
    (callOutline env).phases (xs.map Phase.start) (writePool w xs) = xs.map Phase.start :=
  (callOutline env).phases_start (by simp)

/-- In a quiet state no call is in the middle of its work. -/
theorem quiet_stage {p : Pool World Op Op.Resp (Except AppError Unit)} {xs : List ObjectWrite}
    (hc : (callOutline env).Covers (xs.map Phase.start) p) (hq : p.Quiet) {i : Nat} {ph : Phase}
    (hph : (callPhases (xs.map Phase.start) p)[i]? = some ph) :
    ph.stage = .ready ∨ ph.stage.Over := by
  obtain ⟨ph₀, t, h0, ht, hpt⟩ := Outline.Covers.thread (O := callOutline env) hph
  by_cases hh : t.hist = []
  · rw [List.getElem?_map, Option.map_eq_some_iff] at h0
    obtain ⟨x, -, rfl⟩ := h0
    refine Or.inl ?_
    rw [hpt, hh]
    rfl
  · obtain ⟨a, ha⟩ := Option.isSome_iff_exists.mp (hq t (List.mem_of_getElem? ht) hh)
    exact Or.inr (hc.ends hph ht ha)

end

/-- An empty log agrees with every store. -/
theorem aliceWorld_logAgrees (calendarId : String) : aliceWorld.db.LogAgrees calendarId := by
  intro uid
  rw [Tables.agreesAt_iff]
  intro e he
  have := ChangeLog.mem_of_lastOf he
  exact absurd this.1 (by simp [Tables.changesOf, aliceWorld, aliceTables])

/-- A call alone overtakes nothing. -/
theorem noOvertaking_alone (x : ObjectWrite) (p : Pool World Op Op.Resp (Except AppError Unit)) :
    NoOvertaking [x] p 0 := by
  intro t o calendarId uid _ _ _ j ph hj hph
  have hlt : j < 1 := by
    have := (List.getElem?_eq_some_iff.mp hph).1
    unfold callPhases at this
    rw [List.length_zipWith] at this
    exact lt_of_lt_of_le this (min_le_left _ _)
  omega

def meeting : ObjectWrite :=
  .upsert "work" "meeting" "BEGIN:VCALENDAR" ⟨"VEVENT", none, none, none⟩

/-- A meeting is created; its deletion removes the row, a second creation runs to its end,
    and only then is the deletion logged. -/
def latelyLogged : Pool World Op Op.Resp (Except AppError Unit) :=
  (writePool aliceWorld [meeting, .delete "work" "meeting", meeting]).exec (exec countingEnv)
    (List.replicate 9 0 ++ [1] ++ List.replicate 9 2 ++ List.replicate 4 1)

end CaldavMcp
