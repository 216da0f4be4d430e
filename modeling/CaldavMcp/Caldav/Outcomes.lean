/-
  What the writing methods do, when they run alone.

  One lemma a method: PUT stores its body when its checks pass (`PutStores`) and otherwise
  leaves the world as it is; DELETE of an object or a calendar is the database call with the
  reply read off its result; PROPPATCH updates the row of its calendar; MKCALENDAR creates a
  calendar under a free id, or changes no table.
-/
import CaldavMcp.Caldav.Users
import CaldavMcp.Db.Grants

namespace CaldavMcp

open Program

section

variable {env : Env} {lib : Lib} {w : World} {calendarId filename : String} {request : Request}

/-! ## PUT -/

/-- The If-Match check lets a PUT through. -/
def IfMatchPasses (t : Tables) (calendarId uid : String) : Option String → Prop
  | none => True
  | some expectedEtag =>
    expectedEtag = "*" ∨ ∃ o, t.objectByUid calendarId uid = some o ∧ o.etag = expectedEtag

/-- The If-Match check answers nothing exactly when it lets the PUT through, and else 412. -/
theorem checkIfMatch_run (env : Env) (w : World) (ifMatch : Option String)
    (calendarId uid : String) :
    ∃ reply, (checkIfMatch ifMatch calendarId uid).run (exec env) w = (reply, w) ∧
      (reply = none ↔ IfMatchPasses w.db.toTables calendarId uid ifMatch) ∧
      ∀ r ∈ reply, r.status? = some 412 := by
  cases ifMatch with
  | none => exact ⟨none, rfl, ⟨fun _ => trivial, fun _ => rfl⟩, nofun⟩
  | some expectedEtag =>
    unfold checkIfMatch
    dsimp only
    by_cases hstar : expectedEtag = "*"
    · rw [if_pos hstar]
      exact ⟨none, rfl, ⟨fun _ => Or.inl hstar, fun _ => rfl⟩, nofun⟩
    · have hget : (getObjectByUid calendarId uid).run.run (exec env) w =
        (.ok (w.db.objectByUid calendarId uid), w) := rfl
      rw [if_neg hstar, run_bind, hget]
      cases ho : w.db.objectByUid calendarId uid with
      | none =>
        refine ⟨some (plain 412 "Object does not exist"), rfl, ⟨nofun, ?_⟩, ?_⟩
        · rintro (h | ⟨o, ho', -⟩)
          · exact absurd h hstar
          · rw [ho] at ho'
            cases ho'
        · intro r hr
          rw [← Option.mem_some.mp hr]
          rfl
      | some o =>
        dsimp only
        by_cases he : o.etag = expectedEtag
        · rw [if_neg (not_not.mpr he)]
          exact ⟨none, rfl, ⟨fun _ => Or.inr ⟨o, ho, he⟩, fun _ => rfl⟩, nofun⟩
        · rw [if_pos he]
          refine ⟨some (plain 412 "ETag mismatch"), rfl, ⟨nofun, ?_⟩, ?_⟩
          · rintro (h | ⟨o', ho', he'⟩)
            · exact absurd h hstar
            · rw [ho] at ho'
              rw [Option.some.inj ho'] at he
              exact absurd he' he
          · intro r hr
            rw [← Option.mem_some.mp hr]
            rfl

/-- A PUT gets as far as its upsert, with this body. -/
def PutStores (t : Tables) (calendarId filename : String) (request : Request)
    (icalData : String) : Prop :=
  request.body.size ≤ 1024 * 1024 ∧ String.fromUTF8? request.body = some icalData ∧
    IfMatchPasses t calendarId (putUid filename icalData) (request.header? "if-match")

theorem handlePut_stores {icalData : String}
    (h : PutStores w.db.toTables calendarId filename request icalData) :
    (handlePut calendarId filename request).run (exec env) w =
      (putReply ((upsertObject calendarId (putUid filename icalData) icalData
        (fieldsOf icalData)).run.run (exec env) w).1,
        ((upsertObject calendarId (putUid filename icalData) icalData
          (fieldsOf icalData)).run.run (exec env) w).2) := by
  obtain ⟨hsize, hutf8, hmatch⟩ := h
  obtain ⟨reply, hrun, hpass, -⟩ := checkIfMatch_run env w (request.header? "if-match") calendarId
    (putUid filename icalData)
  unfold handlePut
  rw [if_pos hsize, hutf8]
  dsimp only
  unfold putObject
  rw [run_bind, hrun, hpass.mpr hmatch]
  dsimp only
  rw [run_bind]
  rfl

/-- A PUT whose body cannot be read, or whose check fails, changes nothing. -/
theorem handlePut_refused
    (h : ∀ icalData, ¬ PutStores w.db.toTables calendarId filename request icalData) :
    ((handlePut calendarId filename request).run (exec env) w).2 = w := by
  unfold handlePut
  by_cases hsize : request.body.size ≤ 1024 * 1024
  · rw [if_pos hsize]
    cases hutf8 : String.fromUTF8? request.body with
    | none => rfl
    | some icalData =>
      obtain ⟨reply, hrun, hpass, -⟩ := checkIfMatch_run env w (request.header? "if-match") calendarId
        (putUid filename icalData)
      dsimp only
      unfold putObject
      rw [run_bind, hrun]
      cases reply with
      | none => exact absurd ⟨hsize, hutf8, hpass.mp rfl⟩ (h icalData)
      | some reply => rfl
  · rw [if_neg hsize]
    rfl

/-! ## DELETE -/

theorem handleDeleteObject_run (env : Env) (w : World) (calendarId filename : String) :
    (handleDeleteObject calendarId filename).run (exec env) w =
      (deleteReply "Object not found"
        ((deleteObject calendarId (filename.trimEnds ".ics")).run.run (exec env) w).1,
        ((deleteObject calendarId (filename.trimEnds ".ics")).run.run (exec env) w).2) := by
  unfold handleDeleteObject
  rw [run_bind]
  rfl

theorem handleDeleteCalendar_run (env : Env) (w : World) (calendarId : String) :
    (handleDeleteCalendar calendarId).run (exec env) w =
      (deleteReply "Calendar not found" ((deleteCalendar calendarId).exec env w).1,
        w.after (.deleteCalendar calendarId)) := by
  unfold handleDeleteCalendar
  rw [run_bind]
  have hrun := deleteCalendar_exec env w calendarId
  unfold Call.exec at hrun ⊢
  rw [hrun]
  rfl

/-! ## PROPPATCH -/

/-- The row after a PROPPATCH. -/
def PropPatch.apply (p : PropPatch) (r : Calendar) : Calendar :=
  { r with
    name := p.name.getD r.name
    description := p.description.getD r.description
    color := p.color.getD r.color }

/-- The UPDATE of a PROPPATCH on a calendar. -/
def PropPatch.statement (p : PropPatch) (r : Calendar) : Sql :=
  .updateCalendar (p.apply r).name (p.apply r).description (p.apply r).color r.timezone r.id

theorem calendarById_updateCalendar (t : Tables)
    (name description color timezone id id' : String) :
    (t.after (.updateCalendar name description color timezone id)).calendarById id' =
      (t.calendarById id').map fun c =>
        if c.id = id then
          { c with name := name, description := description, color := color, timezone := timezone }
        else c :=
  Tables.calendarById_map t (fun c => by split <;> rfl) id'

/-- PROPPATCH of a calendar that exists answers 207, and its row is the patched one. -/
theorem handleProppatch_run (env : Env) (lib : Lib) (user : User) (hrefCtx : Option HrefContext)
    (request : Request) {r : Calendar} (hr : w.db.calendarById calendarId = some r) :
    (handleProppatch lib user hrefCtx calendarId request).run (exec env) w =
      (buildResponse 207 [("content-type", "application/xml; charset=utf-8")]
        (.multistatus (Multistatus.new.addResponse
          (calendarHrefForContext (contextOf user hrefCtx) r.id)
          (propPatchOf lib request).found [])),
        w.after ((propPatchOf lib request).statement r)) := by
  have hid : r.id = calendarId := Tables.calendarById_id hr
  have hget : (getCalendarById calendarId).run.run (exec env) w = (.ok (some r), w) :=
    congrArg (fun c => (Except.ok c, w)) hr
  have hget' : ∃ r', ((w.after ((propPatchOf lib request).statement r)).db.calendarById r.id) =
      some r' := by
    rw [World.after_tables]
    unfold PropPatch.statement
    rw [calendarById_updateCalendar, hid, hr]
    exact ⟨_, rfl⟩
  obtain ⟨r', hr'⟩ := hget'
  have hupdate : (updateCalendar r.id (propPatchOf lib request).name
      (propPatchOf lib request).description (propPatchOf lib request).color none).run.run
      (exec env) w = (.ok r', w.after ((propPatchOf lib request).statement r)) := by
    have hread : (getCalendarById r.id).run.run (exec env) w = (.ok (some r), w) := by
      rw [hid]
      exact hget
    have hwrite : (sql ((propPatchOf lib request).statement r)).run.run (exec env) w =
      (.ok (w.db.calendars.filter (·.id = r.id)).length,
        w.after ((propPatchOf lib request).statement r)) := rfl
    have hreread : (getCalendarById r.id).run.run (exec env)
        (w.after ((propPatchOf lib request).statement r)) =
        (.ok (some r'), w.after ((propPatchOf lib request).statement r)) :=
      congrArg (fun c => (Except.ok c, w.after ((propPatchOf lib request).statement r))) hr'
    unfold updateCalendar
    refine (run_except_bind_ok hread).trans ?_
    refine (run_except_bind_ok hwrite).trans ?_
    exact run_except_bind_ok hreread
  unfold handleProppatch
  rw [run_bind, hget]
  dsimp only
  rw [run_bind, hupdate]
  cases hrefCtx <;> rfl

/-! ## MKCALENDAR -/

/-- What MKCALENDAR answers, and what it does. -/
inductive MkcalendarOutcome (w : World) (user : User) (username calendarId : String) :
    Reply → Tables → Prop
  | forbidden (hname : user.username ≠ username) : MkcalendarOutcome w user username calendarId
      (plain 403 "Cannot create calendars for another user") w.db.toTables
  | taken (hname : user.username = username) (hid : calendarId ∈ w.db.calendarIds) :
      MkcalendarOutcome w user username calendarId (plain 405 "Calendar already exists")
        w.db.toTables
  | created (hname : user.username = username) (hfree : calendarId ∉ w.db.calendarIds)
      (r : Calendar) (hid : r.id = calendarId) (howner : r.ownerId = user.id) :
      MkcalendarOutcome w user username calendarId (plain 201 "Calendar created")
        { w.db.toTables with calendars := w.db.calendars ++ [r] }
  | failed (hname : user.username = username) (hfree : calendarId ∉ w.db.calendarIds)
      (howner : user.id ∉ w.db.users.map (·.id)) : MkcalendarOutcome w user username calendarId
        (plain 500 "Failed to create calendar") w.db.toTables

theorem handleMkcalendar_outcome (env : Env) (lib : Lib) (w : World) (user : User)
    (username calendarId : String) (request : Request) :
    MkcalendarOutcome w user username calendarId
      ((handleMkcalendar lib user username calendarId request).run (exec env) w).1
      ((handleMkcalendar lib user username calendarId request).run (exec env) w).2.db.toTables := by
  have hget : (getCalendarById calendarId).run.run (exec env) w =
    (.ok (w.db.calendarById calendarId), w) := rfl
  unfold handleMkcalendar
  by_cases hname : user.username ≠ username
  · rw [if_pos hname]
    exact .forbidden hname
  · rw [if_neg hname, run_bind, hget]
    rw [not_not] at hname
    cases hr : w.db.calendarById calendarId with
    | some r =>
      refine .taken hname ?_
      rw [Tables.mem_calendarIds, hr]
      rfl
    | none =>
      have hfree : calendarId ∉ w.db.calendarIds := by
        rw [Tables.mem_calendarIds, hr]
        exact nofun
      dsimp only
      rw [run_bind]
      generalize ((if (request.bodyUpTo (64 * 1024)).isEmpty = true then none else
        extractXmlValue lib (request.bodyUpTo (64 * 1024)) "displayname").getD calendarId) = name
      generalize ((if (request.bodyUpTo (64 * 1024)).isEmpty = true then none else
        extractXmlValue lib (request.bodyUpTo (64 * 1024)) "calendar-color").getD "#0E61B9") = color
      have hcreate := createCalendarWithId_cases env w calendarId user.id name "" color "UTC"
      unfold Call.exec at hcreate
      rcases hcreate with ⟨r, hrow, -, ha, ht⟩ | ⟨hwhy, ⟨e, ha⟩, ht⟩
      · rw [ha]
        dsimp only
        rw [Prog.pure_eq_ret, run_ret]
        dsimp only
        rw [ht]
        exact .created hname hfree r (by rw [hrow]) (by rw [hrow])
      · rw [ha]
        dsimp only
        rw [Prog.pure_eq_ret, run_ret]
        dsimp only
        rw [ht]
        exact .failed hname hfree (hwhy.resolve_left hfree)

/-- MKCALENDAR changes no table, or adds a calendar of the user under a free id. -/
theorem handleMkcalendar_cases (env : Env) (lib : Lib) (w : World) (user : User)
    (username calendarId : String) (request : Request) :
    ((handleMkcalendar lib user username calendarId request).run (exec env) w).2.db.toTables =
        w.db.toTables ∨
      ∃ r : Calendar, r.id = calendarId ∧ r.ownerId = user.id ∧ calendarId ∉ w.db.calendarIds ∧
        ((handleMkcalendar lib user username calendarId request).run (exec env) w).2.db.toTables =
          { w.db.toTables with calendars := w.db.calendars ++ [r] } := by
  have houtcome := handleMkcalendar_outcome env lib w user username calendarId request
  generalize ((handleMkcalendar lib user username calendarId request).run (exec env) w).1 = reply
    at houtcome
  generalize ((handleMkcalendar lib user username calendarId request).run (exec env)
    w).2.db.toTables = t at houtcome ⊢
  cases houtcome with
  | forbidden | taken | failed => exact Or.inl rfl
  | created hname hfree r hid howner => exact Or.inr ⟨r, hid, howner, hfree, rfl⟩

end

end CaldavMcp
