/-
  The ctag of a calendar, after every writing operation of both servers.

  An `Operation` is a CalDAV request or a tool call. `Bumped` is what every write but PROPPATCH
  does to the calendar rows: a row is as it was, with the same objects, or it has a token drawn
  since. Tokens are never drawn twice, so such a row's ctag is a new one, not only at the next
  poll: it differs from the ctag of every state before. PROPPATCH writes the row and leaves the
  token; `CtagLaw` fails for it whenever it changes something.
-/
import CaldavMcp.Caldav.Homes
import CaldavMcp.Concurrent.Requests
import CaldavMcp.Concurrent.Proppatch
import CaldavMcp.Mcp.Outcomes
import CaldavMcp.Db.Tokens

namespace CaldavMcp

open Program

/-! ## The ctag is the sync token -/

/-- Every calendar's ctag is its sync token. -/
def OneToken (w : World) : Prop := ∀ r ∈ w.db.calendars, r.ctag = r.syncToken

section

variable {env : Env} {lib : Lib} {w w' : World}

theorem OneToken.of_calendars (h : OneToken w) (hc : w'.db.calendars = w.db.calendars) :
    OneToken w' := by
  unfold OneToken
  rw [hc]
  exact h

/-- A plain operation leaves the tokens alone. -/
theorem OneToken.plain (env : Env) (o : Op) (w : World) (hP : o.Plain) (h : OneToken w) :
    OneToken (CaldavMcp.exec env o w).2 := by
  cases o with
  | sql s =>
    rw [exec_sql]
    cases s with
    | insertUser u =>
      obtain ⟨us, hus⟩ := w.db.toTables.after_insertUser u
      refine OneToken.of_calendars h ?_
      rw [World.after_tables, hus]
    | upsertShare s =>
      obtain ⟨ss, hss, -⟩ := w.db.toTables.after_upsertShare s
      refine OneToken.of_calendars h ?_
      rw [World.after_tables, hss]
    | deleteCalendar id => exact fun r hr => h r (List.mem_of_mem_filter hr)
    | updateCalendar name description color timezone id =>
      intro r hr
      obtain ⟨r', hr', rfl⟩ := List.mem_map.mp hr
      split
      · exact h r' hr'
      · exact h r' hr'
    | insertCalendar | updateCtag | insertObject | updateObject | deleteObject | insertChange =>
      exact absurd hP id
    | _ => exact h
  | newV4 | nowV7 | salt | utcNow => exact h

theorem OneToken.createCalendarWithId (h : OneToken w)
    (id ownerId name description color timezone : String) :
    OneToken ((CaldavMcp.createCalendarWithId id ownerId name description color timezone).exec env
      w).2 := by
  rw [createCalendarWithId_exec]
  rcases w.db.toTables.after_insertCalendar ⟨id, ownerId, name, description, color, timezone,
    syncTokenOf (env.uuid w.drawn), syncTokenOf (env.uuid w.drawn)⟩ with ht | ht
  · exact OneToken.of_calendars h (congrArg Tables.calendars ht)
  · intro r hr
    rw [World.after_tables, World.draw_db, ht] at hr
    rcases List.mem_append.mp hr with hr | hr
    · exact h r hr
    · rw [List.mem_singleton.mp hr]

theorem OneToken.effect (h : OneToken w) {calendarId uid : String} {type : ChangeType} {m n : Nat}
    (he : ObjectWrite.Effect env w w' calendarId uid type m n) : OneToken w' := by
  intro r hr
  rw [he.calendars] at hr
  obtain ⟨r', hr', rfl⟩ := List.mem_map.mp hr
  split
  · rfl
  · exact h r' hr'

/-- **The ctag is the sync token in every reachable state.** -/
theorem Reachable.oneToken (hw : Reachable env lib w) : OneToken w := by
  induction hw with
  | init => exact nofun
  | draw n _ ih => exact ih
  | call hc _ ih =>
    cases hc with
    | createUser username email password =>
      exact run_only (OneToken.plain env) (only_createUser trivial trivial
        (fun _ => trivial) (fun _ => trivial) username email password) ih
    | resetPassword username newPassword =>
      exact run_only (OneToken.plain env) (only_resetPassword trivial (fun _ _ => trivial)
        username newPassword) ih
    | createCalendar ownerId name description color timezone =>
      have hdraw : OneToken (World.draw _ 1) := ih
      exact hdraw.createCalendarWithId _ ownerId name description color timezone
    | createCalendarWithId id ownerId name description color timezone =>
      exact ih.createCalendarWithId id ownerId name description color timezone
    | updateCalendar id name description color timezone =>
      exact run_only (OneToken.plain env) (only_updateCalendar (fun _ => trivial)
        (fun _ _ _ _ _ => trivial) id name description color timezone) ih
    | deleteCalendar id =>
      exact run_only (OneToken.plain env) (only_deleteCalendar (fun _ => trivial) id) ih
    | shareCalendar calendarId userId permission =>
      exact run_only (OneToken.plain env) (only_shareCalendar trivial (fun _ => trivial)
        (fun _ _ => trivial) calendarId userId permission) ih
    | unshareCalendar calendarId userId =>
      exact run_only (OneToken.plain env) (only_unshareCalendar (fun _ _ => trivial) calendarId
        userId) ih
    | write x =>
      rcases x.exec_cases env _ with ⟨-, hs⟩ | ⟨-, ht, -⟩
      · obtain ⟨type, m, n, he⟩ := hs.effect
        exact ih.effect he
      · exact OneToken.of_calendars ih (congrArg Tables.calendars ht)

end

/-! ## Operations -/

/-- A request to the CalDAV server, or a tool call of a user. -/
inductive Operation where
  | caldav (route : Route) (request : Request)
  | tool (userId toolName : String) (arguments : Json) (toolMode : String)

namespace Operation

/-- PUT and DELETE of an object, PROPPATCH of a calendar, and the tools that write events. -/
def Writes : Operation → Prop
  | caldav (.object ..) request | caldav (.emailObject ..) request =>
    request.method = "PUT" ∨ request.method = "DELETE"
  | caldav (.calendarCollection ..) request | caldav (.emailCollection ..) request =>
    request.method = "PROPPATCH"
  | caldav _ _ => False
  | tool _ toolName _ toolMode =>
    if toolMode = "simple" then toolName = "add_event" ∨ toolName = "delete_event"
    else toolName = "create_event" ∨ toolName = "update_event" ∨ toolName = "delete_event"

section

variable (env : Env) (lib : Lib) (w : World)

/-- The operation is answered with success. -/
def Succeeds : Operation → Prop
  | caldav route request => ((handle lib route request).run (exec env) w).1.Success
  | tool userId toolName arguments toolMode =>
    ((dispatch userId toolName arguments toolMode).run.run (exec env) w).1.isOk

/-- The world after the operation. -/
def after : Operation → World
  | caldav route request => ((handle lib route request).run (exec env) w).2
  | tool userId toolName arguments toolMode =>
    ((dispatch userId toolName arguments toolMode).run.run (exec env) w).2

end

end Operation

/-- What PROPFIND reports of a calendar: its name, description, colour and timezone, and the
    etag under each uid. -/
def Tables.report (t : Tables) (calendarId : String) :
    Option (String × String × String × String) × (String → Option String) :=
  ((t.calendarById calendarId).map fun r => (r.name, r.description, r.color, r.timezone),
    fun uid => (t.objectByUid calendarId uid).map (·.etag))

/-- The law of the ctag, for one operation in one state: if it succeeds and changes what is
    reported of a calendar, the calendar's ctag is then none that it had in a state before; if
    it fails, the tokens are as they were; and the ctag is the sync token. -/
structure CtagLaw (env : Env) (lib : Lib) (op : Operation) (w : World) : Prop where
  moves : op.Succeeds env lib w → ∀ calendarId,
    (op.after env lib w).db.report calendarId ≠ w.db.report calendarId →
    ∀ earlier, Reachable env lib earlier → Steps env lib earlier w →
    ∀ r₀ r, earlier.db.calendarById calendarId = some r₀ →
      (op.after env lib w).db.calendarById calendarId = some r → r.ctag ≠ r₀.ctag
  rests : ¬ op.Succeeds env lib w → ∀ calendarId r, w.db.calendarById calendarId = some r →
    ∃ r', (op.after env lib w).db.calendarById calendarId = some r' ∧ r'.ctag = r.ctag ∧
      r'.syncToken = r.syncToken
  oneToken : OneToken (op.after env lib w)

/-! ## What the writes do -/

/-- Every calendar row is as before, with the same objects, or has a token drawn since. -/
structure Bumped (env : Env) (w w' : World) : Prop where
  drawn : w.drawn ≤ w'.drawn
  rows : ∀ calendarId r, w'.db.calendarById calendarId = some r →
    (w.db.calendarById calendarId = some r ∧
      ∀ uid, w'.db.objectByUid calendarId uid = w.db.objectByUid calendarId uid) ∨
    ∃ n, w.drawn ≤ n ∧ r.ctag = syncTokenOf (env.uuid n)

/-- Every calendar row is as before. -/
def RowsKept (w w' : World) : Prop :=
  ∀ calendarId r, w.db.calendarById calendarId = some r → w'.db.calendarById calendarId = some r

/-- An operation that succeeded has bumped what it changed, and one that failed has kept every
    row. -/
structure Settled (env : Env) (w : World) (success : Prop) (w' : World) : Prop where
  bumped : success → Bumped env w w'
  kept : ¬ success → RowsKept w w'
  oneToken : OneToken w → OneToken w'

section

variable {env : Env} {lib : Lib} {w w' w'' : World} {success : Prop}

theorem Bumped.of_tables (ht : w'.db.toTables = w.db.toTables) (hd : w.drawn ≤ w'.drawn) :
    Bumped env w w' := by
  refine ⟨hd, fun calendarId r hr => Or.inl ?_⟩
  rw [ht] at hr ⊢
  exact ⟨hr, fun _ => rfl⟩

theorem Bumped.trans (h : Bumped env w w') (h' : Bumped env w' w'') : Bumped env w w'' := by
  refine ⟨le_trans h.drawn h'.drawn, fun calendarId r hr => ?_⟩
  rcases h'.rows calendarId r hr with ⟨hr', hobjects'⟩ | ⟨n, hn, htoken⟩
  · rcases h.rows calendarId r hr' with ⟨hr'', hobjects⟩ | hfresh
    · exact Or.inl ⟨hr'', fun uid => (hobjects' uid).trans (hobjects uid)⟩
    · exact Or.inr hfresh
  · exact Or.inr ⟨n, le_trans h.drawn hn, htoken⟩

/-- A write gives its calendar a new token. -/
theorem Bumped.effect {calendarId uid : String} {type : ChangeType} {m n : Nat}
    (he : ObjectWrite.Effect env w w' calendarId uid type m n) : Bumped env w w' := by
  have hrows : ∀ id, w'.db.calendarById id = (w.db.calendarById id).map fun r =>
      if r.id = calendarId then r.withToken (syncTokenOf (env.uuid n)) else r := by
    intro id
    have hmap := Tables.calendarById_map w.db.toTables (f := fun r =>
      if r.id = calendarId then r.withToken (syncTokenOf (env.uuid n)) else r)
      (fun r => by split <;> rfl) id
    rw [← hmap]
    unfold Tables.calendarById
    rw [he.calendars]
  refine ⟨le_of_lt (lt_of_le_of_lt he.rowDraw.1 he.rowDraw.2), fun id r hr => ?_⟩
  rw [hrows] at hr
  obtain ⟨r', hr', rfl⟩ := Option.map_eq_some_iff.mp hr
  have hid : r'.id = id := Tables.calendarById_id hr'
  by_cases hk : r'.id = calendarId
  · rw [if_pos hk]
    exact Or.inr ⟨n, he.rowDraw.1, rfl⟩
  · rw [if_neg hk]
    exact Or.inl ⟨hr', fun uid' => he.others id uid' fun h => hk (hid.trans h.1)⟩

/-- A calendar row added. -/
theorem Bumped.added {r : Calendar} {n : Nat} (hn : w.drawn ≤ n)
    (htoken : r.ctag = syncTokenOf (env.uuid n))
    (ht : w'.db.toTables = { w.db.toTables with calendars := w.db.calendars ++ [r] })
    (hd : w.drawn ≤ w'.drawn) : Bumped env w w' := by
  refine ⟨hd, fun id r' hr' => ?_⟩
  rw [ht] at hr'
  unfold Tables.calendarById at hr'
  rw [List.find?_append] at hr'
  rcases Option.or_eq_some_iff.mp hr' with hold | ⟨-, hnew⟩
  · refine Or.inl ⟨hold, fun uid => ?_⟩
    rw [ht]
    rfl
  · obtain rfl := List.mem_singleton.mp (List.mem_of_find?_eq_some hnew)
    exact Or.inr ⟨n, hn, htoken⟩

theorem Settled.of_tables (ht : w'.db.toTables = w.db.toTables) (hd : w.drawn ≤ w'.drawn) :
    Settled env w success w' := by
  refine ⟨fun _ => .of_tables ht hd, fun _ id r hr => ?_, fun h => ?_⟩
  · rw [ht]
    exact hr
  · exact OneToken.of_calendars h (congrArg Tables.calendars ht)

theorem Settled.step (hsuccess : success) {x : ObjectWrite} (h : x.Step env w w') :
    Settled env w success w' := by
  obtain ⟨type, m, n, he⟩ := h.effect
  exact ⟨fun _ => .effect he, fun hno => absurd hsuccess hno, fun h => h.effect he⟩

/-- What an operation does after some draws. -/
theorem Settled.before (ht : w'.db.toTables = w.db.toTables) (hd : w.drawn ≤ w'.drawn)
    (h : Settled env w' success w'') : Settled env w success w'' := by
  refine ⟨fun hs => (Bumped.of_tables ht hd).trans (h.bumped hs), fun hs id r hr => ?_,
    fun hone => h.oneToken (OneToken.of_calendars hone (congrArg Tables.calendars ht))⟩
  refine h.kept hs id r ?_
  rw [ht]
  exact hr

/-- What an operation does after it has made a calendar. -/
theorem Settled.added {r : Calendar} {n : Nat} (hn : w.drawn ≤ n)
    (hctag : r.ctag = syncTokenOf (env.uuid n)) (hsync : r.ctag = r.syncToken)
    (ht : w'.db.toTables = { w.db.toTables with calendars := w.db.calendars ++ [r] })
    (hd : w.drawn ≤ w'.drawn) (h : Settled env w' success w'') : Settled env w success w'' := by
  refine ⟨fun hs => (Bumped.added hn hctag ht hd).trans (h.bumped hs), fun hs id r' hr' => ?_,
    fun hone => h.oneToken ?_⟩
  · refine h.kept hs id r' ?_
    rw [ht]
    unfold Tables.calendarById at hr' ⊢
    rw [List.find?_append, hr']
    rfl
  · intro r' hr'
    rw [ht] at hr'
    rcases List.mem_append.mp hr' with hr' | hr'
    · exact hone r' hr'
    · rw [List.mem_singleton.mp hr']
      exact hsync

/-! ## The requests -/

theorem settled_put (hinj : Function.Injective env.uuid) (hs : Synced env w)
    {calendarId : String} (hc : calendarId ∈ w.db.calendarIds) (filename : String)
    (request : Request) :
    Settled env w ((handlePut calendarId filename request).run (exec env) w).1.Success
      ((handlePut calendarId filename request).run (exec env) w).2 := by
  by_cases hst : ∃ icalData, PutStores w.db.toTables calendarId filename request icalData
  · obtain ⟨icalData, hst⟩ := hst
    obtain ⟨o, w', hrun, hstep, -, hetag, -⟩ :=
      hs.upsert hinj hc (putUid filename icalData) icalData (fieldsOf icalData)
    rw [handlePut_stores hst, hrun]
    refine Settled.step ?_ hstep
    rw [putReply_ok _ hetag (env.uuid_chars _)]
    refine ⟨_, rfl, ?_⟩
    dsimp only
    split <;> decide
  · rw [handlePut_refused (not_exists.mp hst)]
    exact .of_tables rfl (le_refl _)

theorem settled_delete (calendarId filename : String) :
    Settled env w ((handleDeleteObject calendarId filename).run (exec env) w).1.Success
      ((handleDeleteObject calendarId filename).run (exec env) w).2 := by
  rw [handleDeleteObject_run]
  cases ho : w.db.objectByUid calendarId (filename.trimEnds ".ics") with
  | none =>
    rw [delete_exec_missing ho]
    exact .of_tables (Tables.after_deleteObject_none ho) (le_refl _)
  | some o =>
    rw [delete_exec_found ho]
    exact Settled.step ⟨204, rfl, by decide, by decide⟩ (.deleted _ _ o ho)

/-- PUT and DELETE of an object. -/
theorem settled_object (hinj : Function.Injective env.uuid) (hs : Synced env w) {request : Request}
    (hm : request.method = "PUT" ∨ request.method = "DELETE") (user : User)
    (calendarId filename : String) :
    Settled env w ((objectFor user calendarId filename request).run (exec env) w).1.Success
      ((objectFor user calendarId filename request).run (exec env) w).2 := by
  rw [objectFor_run]
  by_cases hp : (w.db.permissionOf calendarId user.id).isSome
  · rw [if_pos hp]
    unfold objectMethods
    rcases hm with hm | hm
    · rw [hm, if_neg (by decide), if_pos rfl]
      exact settled_put hinj hs (w.db.ok.calendar_of_permission hp) filename request
    · rw [hm, if_neg (by decide), if_neg (by decide), if_pos rfl]
      exact settled_delete calendarId filename
  · rw [if_neg hp]
    exact .of_tables rfl (le_refl _)

/-! ## The tools -/

theorem Stored.settled {n : Nat} {calendarId uid icalData : String} {fields : ObjectFields}
    {answer : CalendarObject → Json} {out : Except String Json × World}
    (h : Stored env (w.draw n) calendarId uid icalData fields answer out) :
    Settled env w out.1.isOk out.2 := by
  have hdrawn : Settled env (w.draw n) out.1.isOk out.2 := by
    cases h with
    | unknown e w' hc ht hd => exact .of_tables ht hd
    | stored o w' hc hstep hrow => exact .step rfl hstep
  have htables : (w.draw n).db.toTables = w.db.toTables := rfl
  exact hdrawn.before htables (Nat.le_add_right _ _)

theorem Deleted.settled {calendarId uid : String} {answer : Json}
    {out : Except String Json × World} (h : Deleted env w calendarId uid answer out) :
    Settled env w out.1.isOk out.2 := by
  cases h with
  | missing e w' ho ht hd => exact .of_tables ht hd
  | deleted o w' ho hstep => exact .step rfl hstep

theorem settled_error {out : Except String Json × World} (h : ∃ e, out = (.error e, w)) :
    Settled env w out.1.isOk out.2 := by
  obtain ⟨e, rfl⟩ := h
  exact .of_tables rfl (le_refl _)

variable (userId : String) (args : Json)

theorem settled_createEvent (hinj : Function.Injective env.uuid) (hs : Synced env w) :
    Settled env w ((createEvent userId args).run.run (exec env) w).1.isOk
      ((createEvent userId args).run.run (exec env) w).2 := by
  cases hc : args.str? "calendar_id" with
  | none => exact settled_error (createEvent_missing userId (Or.inl hc))
  | some calendarId =>
    cases ha : eventArgs? args with
    | none => exact settled_error (createEvent_missing userId (Or.inr ha))
    | some a => exact (createEvent_run userId hinj hs hc ha).settled

theorem settled_updateEvent (hinj : Function.Injective env.uuid) (hs : Synced env w) :
    Settled env w ((updateEvent userId args).run.run (exec env) w).1.isOk
      ((updateEvent userId args).run.run (exec env) w).2 := by
  cases hc : args.str? "calendar_id" with
  | none => exact settled_error (updateEvent_missing userId (Or.inl hc))
  | some calendarId =>
    cases hu : args.str? "event_uid" with
    | none => exact settled_error (updateEvent_missing userId (Or.inr (Or.inl hu)))
    | some uid =>
      cases ha : eventArgs? args with
      | none => exact settled_error (updateEvent_missing userId (Or.inr (Or.inr (Or.inl ha))))
      | some a =>
        cases ho : w.db.objectByUid calendarId uid with
        | none => exact settled_error (updateEvent_missing userId
            (Or.inr (Or.inr (Or.inr ⟨calendarId, uid, hc, hu, ho⟩))))
        | some o => exact (updateEvent_run userId hinj hs hc hu ha ho).settled

theorem settled_deleteEvent :
    Settled env w ((deleteEvent userId args).run.run (exec env) w).1.isOk
      ((deleteEvent userId args).run.run (exec env) w).2 := by
  cases hc : args.str? "calendar_id" with
  | none => exact settled_error (deleteEvent_missing userId (Or.inl hc))
  | some calendarId =>
    cases hu : args.str? "event_uid" with
    | none => exact settled_error (deleteEvent_missing userId (Or.inr hu))
    | some uid => exact (deleteEvent_run userId hc hu).settled

/-- What follows once the calendar of a simple tool is found. -/
theorem Resolved.settled {w₁ : World} {r : Except String String}
    (h : Resolved env w userId (r, w₁)) (hafter : Settled env w₁ success w') :
    Settled env w success w' := by
  cases h with
  | found cal rest hcals => exact hafter
  | created row w₁ hcals hrow hfree ht hd =>
    refine Settled.added (n := w.drawn + 1) (Nat.le_succ _) ?_ ?_ ht (by omega) hafter
    · rw [hrow]
    · rw [hrow]
  | failed e w₁ hcals ht hd => exact hafter.before ht (by omega)

theorem settled_handleAdd (hinj : Function.Injective env.uuid) (hw : Reachable env lib w) :
    Settled env w ((Simple.handleAdd userId args).run.run (exec env) w).1.isOk
      ((Simple.handleAdd userId args).run.run (exec env) w).2 := by
  cases ha : eventArgs? args with
  | none => exact settled_error (handleAdd_missing userId ha)
  | some a =>
    have hresolved := resolveCalendar_run env w userId
    have hs := (hw.steps (moves_resolveCalendar userId w)).synced hinj
    cases hr : (Simple.resolveCalendar userId).run.run (exec env) w with
    | mk result w₁ =>
      rw [hr] at hresolved hs
      cases result with
      | ok calendarId => exact hresolved.settled userId (handleAdd_run userId hinj ha hs hr).settled
      | error e =>
        rw [handleAdd_failed userId ha hr]
        exact hresolved.settled userId (.of_tables rfl (le_refl _))

theorem settled_handleDelete :
    Settled env w ((Simple.handleDelete userId args).run.run (exec env) w).1.isOk
      ((Simple.handleDelete userId args).run.run (exec env) w).2 := by
  cases hu : args.str? "event_uid" with
  | none => exact settled_error (handleDelete_missing userId hu)
  | some uid =>
    have hresolved := resolveCalendar_run env w userId
    cases hr : (Simple.resolveCalendar userId).run.run (exec env) w with
    | mk result w₁ =>
      rw [hr] at hresolved
      cases result with
      | ok calendarId => exact hresolved.settled userId (handleDelete_run userId hu hr).settled
      | error e =>
        rw [handleDelete_failed userId hu hr]
        exact hresolved.settled userId (.of_tables rfl (le_refl _))

/-- The tools that write events. -/
theorem settled_tool (hinj : Function.Injective env.uuid) (hw : Reachable env lib w)
    {toolName toolMode : String} (hop : (Operation.tool userId toolName args toolMode).Writes) :
    Settled env w ((dispatch userId toolName args toolMode).run.run (exec env) w).1.isOk
      ((dispatch userId toolName args toolMode).run.run (exec env) w).2 := by
  have hs := hw.synced hinj
  simp only [Operation.Writes] at hop
  unfold dispatch Simple.dispatch
  by_cases hsimple : toolMode = "simple"
  · rw [if_pos hsimple] at hop ⊢
    rcases hop with rfl | rfl
    · rw [if_pos rfl]
      exact settled_handleAdd userId args hinj hw
    · rw [if_neg (by decide), if_pos rfl]
      exact settled_handleDelete userId args
  · rw [if_neg hsimple] at hop ⊢
    rcases hop with rfl | rfl | rfl
    · repeat rw [if_neg (by decide)]
      rw [if_pos rfl]
      exact settled_createEvent userId args hinj hs
    · repeat rw [if_neg (by decide)]
      rw [if_pos rfl]
      exact settled_updateEvent userId args hinj hs
    · repeat rw [if_neg (by decide)]
      rw [if_pos rfl]
      exact settled_deleteEvent userId args

/-! ## The law -/

/-- An operation that has settled keeps the law. -/
theorem ctagLaw_of_settled (hinj : Function.Injective env.uuid) (hw : Reachable env lib w)
    {op : Operation} (h : Settled env w (op.Succeeds env lib w) (op.after env lib w)) :
    CtagLaw env lib op w := by
  refine ⟨fun hs calendarId hne earlier hearlier hsteps r₀ r hr₀ hr heq => ?_,
    fun hs calendarId r hr => ⟨r, h.kept hs calendarId r hr, rfl, rfl⟩, h.oneToken hw.oneToken⟩
  rcases (h.bumped hs).rows calendarId r hr with ⟨hold, hobjects⟩ | ⟨n, hn, htoken⟩
  · refine hne ?_
    unfold Tables.report
    rw [hr, hold]
    simp only [hobjects]
  · -- the new token was drawn after the earlier state
    have hmem := List.mem_of_find?_eq_some hr₀
    obtain ⟨m, hm, htoken₀⟩ := (hearlier.synced hinj).rowToken r₀ hmem
    rw [htoken, hearlier.oneToken r₀ hmem, htoken₀] at heq
    have hmn := hinj (syncTokenOf_inj heq)
    have hdrawn := hsteps.drawn_le
    omega

end

/-- The calendar of a collection's route. -/
def Route.collection? : Route → Option String
  | .calendarCollection _ calendarId | .emailCollection _ calendarId => some calendarId
  | _ => none

/-- A PROPPATCH, by a user with access, that sets a property to another value. -/
def Operation.ChangesProperties (env : Env) (lib : Lib) (w : World) : Operation → Prop
  | .caldav route request => request.method = "PROPPATCH" ∧ ∃ calendarId user r,
      route.collection? = some calendarId ∧ Resolves env lib w route request user ∧
      (w.db.permissionOf calendarId user.id).isSome ∧ w.db.calendarById calendarId = some r ∧
      (propPatchOf lib request).apply r ≠ r
  | .tool .. => False

section

variable {env : Env} {lib : Lib} {w : World} {route : Route} {request : Request}

/-- A PROPPATCH of a collection. -/
theorem proppatch_run (env : Env) (lib : Lib) (w : World) {calendarId : String}
    (hroute : route.collection? = some calendarId) (hm : request.method = "PROPPATCH") :
    ((handle lib route request).run (exec env) w).2 = w ∧
        ¬ (Operation.caldav route request).ChangesProperties env lib w ∨
      ∃ user r, Resolves env lib w route request user ∧
        (w.db.permissionOf calendarId user.id).isSome ∧ w.db.calendarById calendarId = some r ∧
        ((handle lib route request).run (exec env) w).1.Success ∧
        ((handle lib route request).run (exec env) w).2 =
          w.after ((propPatchOf lib request).statement r) := by
  have hneeds : route.NeedsUser := by
    cases route with
    | calendarCollection | emailCollection => trivial
    | _ => cases hroute
  have hoptions : request.method ≠ "OPTIONS" := by
    rw [hm]
    decide
  have hmk : request.method ≠ "MKCALENDAR" := by
    rw [hm]
    decide
  cases hu : ((routeUser lib route request).run (exec env) w).1 with
  | none =>
    refine Or.inl ⟨?_, ?_⟩
    · rw [handle_run hneeds hoptions, hu]
    · rintro ⟨-, calendarId', user, r, -, hres, -⟩
      rw [show ((routeUser lib route request).run (exec env) w).1 = _ from hres] at hu
      cases hu
  | some user =>
    have hserve : ∃ hrefCtx username, (handle lib route request).run (exec env) w =
        (collectionFor lib user hrefCtx username calendarId request).run (exec env) w := by
      rw [handle_resolved hneeds hoptions hu]
      cases route with
      | calendarCollection username id =>
        obtain rfl := Option.some.inj hroute
        exact ⟨_, _, rfl⟩
      | emailCollection email id =>
        obtain rfl := Option.some.inj hroute
        exact ⟨_, _, rfl⟩
      | _ => cases hroute
    obtain ⟨hrefCtx, username, hserve⟩ := hserve
    rw [hserve, collectionFor_run hmk]
    by_cases hp : (w.db.permissionOf calendarId user.id).isSome
    · rw [if_pos hp]
      have hc := w.db.ok.calendar_of_permission hp
      rw [Tables.mem_calendarIds] at hc
      obtain ⟨r, hr⟩ := Option.isSome_iff_exists.mp hc
      have hpatch : collectionMethods lib user hrefCtx username calendarId request =
          handleProppatch lib user hrefCtx calendarId request := by
        unfold collectionMethods
        rw [hm, if_neg (by decide), if_neg (by decide), if_neg (by decide), if_pos rfl]
      rw [hpatch, handleProppatch_run env lib user hrefCtx request hr]
      exact Or.inr ⟨user, r, hu, hp, hr, ⟨207, rfl, by decide, by decide⟩, rfl⟩
    · rw [if_neg hp]
      refine Or.inl ⟨rfl, ?_⟩
      rintro ⟨-, calendarId', user', r, hroute', hres, hp', -⟩
      obtain rfl := Option.some.inj (hroute.symm.trans hroute')
      obtain rfl := Option.some.inj (hu.symm.trans hres)
      exact hp hp'

theorem settled_proppatch_same {r : Calendar} {calendarId : String} {success : Prop}
    (hsuccess : success) (hr : w.db.calendarById calendarId = some r) (p : PropPatch)
    (hsame : p.apply r = r) : Settled env w success (w.after (p.statement r)) := by
  refine ⟨fun _ => ⟨le_refl _, fun id row hrow => Or.inl ⟨?_, fun uid => rfl⟩⟩,
    fun h => absurd hsuccess h, fun h => ?_⟩
  · rw [World.after_tables, p.statement_row hr] at hrow
    split at hrow
    · rename_i hid
      rw [hid, hr, ← hrow, hsame]
    · exact hrow
  · have hplain : (Op.sql (p.statement r)).Plain := trivial
    exact OneToken.plain env _ w hplain h

theorem ctagLaw_proppatch (hinj : Function.Injective env.uuid) (hw : Reachable env lib w)
    {calendarId : String} (hroute : route.collection? = some calendarId)
    (hm : request.method = "PROPPATCH") :
    CtagLaw env lib (.caldav route request) w ↔
      ¬ (Operation.caldav route request).ChangesProperties env lib w := by
  rcases proppatch_run env lib w hroute hm with
    ⟨hsame, hno⟩ | ⟨user, r, hres, hp, hr, hsuccess, hafter⟩
  · refine iff_of_true (ctagLaw_of_settled hinj hw ?_) hno
    show Settled env w _ ((handle lib route request).run (exec env) w).2
    rw [hsame]
    exact .of_tables rfl (le_refl _)
  · by_cases hpatch : (propPatchOf lib request).apply r = r
    · refine iff_of_true (ctagLaw_of_settled hinj hw ?_) ?_
      · show Settled env w _ ((handle lib route request).run (exec env) w).2
        rw [hafter]
        exact settled_proppatch_same hsuccess hr _ hpatch
      · rintro ⟨-, calendarId', user', r', hroute', -, -, hr', hne⟩
        obtain rfl := Option.some.inj (hroute.symm.trans hroute')
        obtain rfl := Option.some.inj (hr.symm.trans hr')
        exact hne hpatch
    · refine iff_of_false (fun hlaw => ?_)
        fun h => h ⟨hm, calendarId, user, r, hroute, hres, hp, hr, hpatch⟩
      -- the row has changed, and has its ctag of before
      have hrow : ((Operation.caldav route request).after env lib w).db.calendarById calendarId =
          some ((propPatchOf lib request).apply r) := by
        show ((handle lib route request).run (exec env) w).2.db.calendarById calendarId = _
        rw [hafter, World.after_tables, PropPatch.statement_row _ hr, if_pos rfl]
      refine hlaw.moves hsuccess calendarId (fun hreport => hpatch ?_) w hw .refl r _ hr hrow rfl
      have hcolumns := congrArg Prod.fst hreport
      unfold Tables.report at hcolumns
      rw [hrow, hr] at hcolumns
      simp only [Option.map_some, Option.some.injEq, Prod.mk.injEq] at hcolumns
      obtain ⟨hname, hdescription, hcolor, -⟩ := hcolumns
      unfold PropPatch.apply at hname hdescription hcolor ⊢
      rw [Calendar.mk.injEq]
      exact ⟨rfl, rfl, hname, hdescription, hcolor, rfl, rfl, rfl⟩

theorem ctagLaw_object (hinj : Function.Injective env.uuid) (hw : Reachable env lib w)
    {calendarId filename : String} (hneeds : route.NeedsUser)
    (hserve : ∀ user, serve lib request user route = objectFor user calendarId filename request)
    (hm : request.method = "PUT" ∨ request.method = "DELETE") :
    CtagLaw env lib (.caldav route request) w := by
  have hoptions : request.method ≠ "OPTIONS" := by
    rcases hm with hm | hm <;> rw [hm] <;> decide
  refine ctagLaw_of_settled hinj hw ?_
  show Settled env w ((handle lib route request).run (exec env) w).1.Success
    ((handle lib route request).run (exec env) w).2
  rw [handle_run hneeds hoptions]
  cases ((routeUser lib route request).run (exec env) w).1 with
  | none => exact .of_tables rfl (le_refl _)
  | some user =>
    dsimp only
    rw [hserve user]
    exact settled_object hinj (hw.synced hinj) hm user calendarId filename

end

/-- **The ctag moves.** In every reachable state, a writing operation keeps the law of the ctag
    exactly when it is not a PROPPATCH that sets a property to another value. -/
theorem ctag_law_iff (env : Env) (hinj : Function.Injective env.uuid) (lib : Lib) (w : World)
    (hw : Reachable env lib w) (op : Operation) (hop : op.Writes) :
    CtagLaw env lib op w ↔ ¬ op.ChangesProperties env lib w := by
  cases op with
  | tool userId toolName arguments toolMode =>
    exact iff_of_true (ctagLaw_of_settled hinj hw (settled_tool userId arguments hinj hw hop)) id
  | caldav route request =>
    have hno : route.collection? = none →
        ¬ (Operation.caldav route request).ChangesProperties env lib w := by
      rintro hnone ⟨-, calendarId, user, r, hroute, -⟩
      rw [hnone] at hroute
      cases hroute
    cases route with
    | calendarCollection | emailCollection => exact ctagLaw_proppatch hinj hw rfl hop
    | object | emailObject =>
      exact iff_of_true (ctagLaw_object hinj hw trivial (fun _ => rfl) hop) (hno rfl)
    | _ => exact hop.elim

/-! ### Alice renames her calendar -/

/-- A reader that reads a new name from every body. -/
def renameLib : Lib := { sampleLib with readXml := fun _ => setEvents "displayname" "Team" }

theorem foundedWorld_renameLib : Reachable countingEnv renameLib foundedWorld :=
  .call (.createCalendarWithId ..)
    (.call (.createUser "alice" (some "alice@example.com") "secret") .init)

/-- Alice's PROPPATCH. -/
def aliceRename : Operation :=
  .caldav (.calendarCollection "alice" "work")
    ⟨"PROPPATCH", [], (setBody "displayname" "Team").toUTF8⟩

/-- Alice's PUT. -/
def aliceLunch : Operation :=
  .caldav (.object "alice" "work" "lunch.ics") ⟨"PUT", [], "BEGIN:VCALENDAR".toUTF8⟩

theorem ctag_law_iff_lunch : aliceLunch.Succeeds countingEnv renameLib foundedWorld ∧
    CtagLaw countingEnv renameLib aliceLunch foundedWorld := by
  refine ⟨⟨201, by decide +kernel, by decide, by decide⟩, ?_⟩
  refine (ctag_law_iff countingEnv countingEnv_uuid_injective renameLib foundedWorld
    foundedWorld_renameLib aliceLunch (Or.inl rfl)).mpr ?_
  rintro ⟨hm, -⟩
  exact absurd hm (by decide)

/-- The calendar has a new name and its old ctag. -/
theorem rename_keeps_ctag : Reachable countingEnv renameLib foundedWorld ∧ aliceRename.Writes ∧
    ¬ CtagLaw countingEnv renameLib aliceRename foundedWorld := by
  refine ⟨foundedWorld_renameLib, rfl, fun hlaw => ?_⟩
  have hbefore : foundedWorld.db.calendarById "work" = some ⟨"work", "", "Work", "", "#0E61B9",
      "UTC", "data:,sync-aa", "data:,sync-aa"⟩ := by
    decide +kernel
  have hafter : (aliceRename.after countingEnv renameLib foundedWorld).db.calendarById "work" =
      some ⟨"work", "", "Team", "", "#0E61B9", "UTC", "data:,sync-aa", "data:,sync-aa"⟩ := by
    decide +kernel
  refine hlaw.moves ⟨207, by decide +kernel, by decide, by decide⟩ "work" (fun hreport => ?_)
    foundedWorld foundedWorld_renameLib .refl _ _ hbefore hafter rfl
  have hname := congrArg Prod.fst hreport
  unfold Tables.report at hname
  rw [hbefore, hafter] at hname
  exact absurd hname (by decide)

end CaldavMcp
