/-
  What a tool call does to the world.

  A tool is a chain of reads of its arguments, reads of the database and at most two calls of
  `src/db/` that write. `Steps` is any number of such calls and of draws; `Moves` says of a
  program that it does nothing else, and `moves_dispatch` says so of every tool. So what holds
  in every reachable state holds after every tool call (`Reachable.dispatch`).
-/
import CaldavMcp.Mcp.Tools
import CaldavMcp.Db.Access

namespace CaldavMcp

open Program

section

variable {env : Env} {lib : Lib} {w w' w'' : World} {α β : Type}

/-! ## Running a tool -/

/-- An argument that has to be there, and what follows. -/
theorem run_required (args : Json) (key : String) (f : String → ToolCall β) :
    (required args key >>= f).run.run (exec env) w =
      match args.str? key with
      | some v => (f v).run.run (exec env) w
      | none => (.error ("Missing " ++ key), w) := by
  unfold required
  cases args.str? key <;> rfl

/-- A call of `src/db/` inside of a tool. -/
theorem run_orFail (message : String) (c : Call α) :
    (orFail message c).run.run (exec env) w =
      (match (c.exec env w).1 with
        | .ok a => .ok a
        | .error e => .error (message ++ ": " ++ e.display), (c.exec env w).2) := by
  unfold orFail Call.exec
  rw [ExceptT.run_mk, run_bind]
  cases (c.run.run (exec env) w).1 <;> rfl

theorem run_orFail_ok {message : String} {c : Call α} {a : α} (h : c.exec env w = (.ok a, w')) :
    (orFail message c).run.run (exec env) w = (.ok a, w') := by
  rw [run_orFail, h]

theorem run_orFail_error {message : String} {c : Call α} {e : AppError}
    (h : c.exec env w = (.error e, w')) :
    (orFail message c).run.run (exec env) w = (.error (message ++ ": " ++ e.display), w') := by
  rw [run_orFail, h]

theorem only_orFail {P : Op → Prop} {α : Type} {c : Call α} (hc : c.run.Only P)
    (message : String) : (orFail message c).run.Only P := by
  refine only_bind hc fun r => ?_
  cases r <;> exact trivial

/-! ## Steps -/

/-- Draws and writing calls, one after the other. -/
inductive Steps (env : Env) (lib : Lib) (w : World) : World → Prop
  | refl : Steps env lib w w
  | draw {w' : World} (n : Nat) (h : Steps env lib w w') : Steps env lib w (w'.draw n)
  | call {w' : World} {α : Type} {c : Call α} (hc : DbCall lib c) (h : Steps env lib w w') :
      Steps env lib w (c.exec env w').2

theorem Steps.trans (h : Steps env lib w w') (h' : Steps env lib w' w'') :
    Steps env lib w w'' := by
  induction h' with
  | refl => exact h
  | draw n _ ih => exact ih.draw n
  | call hc _ ih => exact ih.call hc

theorem Reachable.steps (hw : Reachable env lib w) (h : Steps env lib w w') :
    Reachable env lib w' := by
  induction h with
  | refl => exact hw
  | draw n _ ih => exact ih.draw n
  | call hc _ ih => exact ih.call hc

theorem Steps.drawn_le (h : Steps env lib w w') : w.drawn ≤ w'.drawn := by
  induction h with
  | refl => exact le_refl _
  | draw n _ ih => exact le_trans ih (Nat.le_add_right _ _)
  | call hc _ ih => exact le_trans ih (drawn_le_run env _ _)

/-- The program only makes steps, from any world. -/
def Moves (env : Env) (lib : Lib) (p : ToolCall α) : Prop :=
  ∀ w, Steps env lib w (p.run.run (exec env) w).2

theorem moves_pure (a : α) : Moves env lib (pure a : ToolCall α) := fun _ => .refl

theorem moves_throw (message : String) : Moves env lib (throw message : ToolCall α) :=
  fun _ => .refl

theorem moves_bind {p : ToolCall α} {f : α → ToolCall β} (hp : Moves env lib p)
    (hf : ∀ a, Moves env lib (f a)) : Moves env lib (p >>= f) := by
  intro w
  rw [run_except_bind]
  cases (p.run.run (exec env) w).1 with
  | ok a => exact (hp w).trans (hf a _)
  | error e => exact hp w

theorem moves_ite {P : Prop} [Decidable P] {p q : ToolCall α} (hp : Moves env lib p)
    (hq : Moves env lib q) : Moves env lib (if P then p else q) := by
  split
  · exact hp
  · exact hq

theorem moves_orMissing (message : String) (a : Option α) :
    Moves env lib (orMissing message a) := by
  cases a with
  | none => exact moves_throw message
  | some a => exact moves_pure a

theorem moves_required (args : Json) (key : String) : Moves env lib (required args key) :=
  moves_orMissing _ _

/-- A draw. -/
theorem moves_lift {p : Action α} (hp : ∀ w, ∃ n, (p.run (exec env) w).2 = w.draw n) :
    Moves env lib (ExceptT.lift p : ToolCall α) := by
  intro w
  obtain ⟨n, hn⟩ := hp w
  have hrun : ((ExceptT.lift p : ToolCall α).run.run (exec env) w).2 =
      (p.run (exec env) w).2 := by
    unfold ExceptT.lift
    rw [ExceptT.run_mk, map_eq_pure_bind, run_bind]
    rfl
  rw [hrun, hn]
  exact Steps.refl.draw n

/-- A writing call. -/
theorem moves_write {c : Call α} (message : String) (hc : DbCall lib c) :
    Moves env lib (orFail message c) := by
  intro w
  rw [run_orFail]
  exact Steps.refl.call hc

/-- A reading call. -/
theorem moves_read {c : Call α} (message : String) (hc : ∀ w, (c.exec env w).2 = w) :
    Moves env lib (orFail message c) := by
  intro w
  rw [run_orFail, hc w]
  exact .refl

/-- A write of an object, with its answer. -/
theorem moves_upsert (message calendarId uid icalData : String) (fields : ObjectFields) :
    Moves env lib (orFail message (upsertObject calendarId uid icalData fields)) := by
  intro w
  rw [run_orFail]
  have hsame : ((upsertObject calendarId uid icalData fields).exec env w).2 =
      ((ObjectWrite.upsert calendarId uid icalData fields).call.exec env w).2 := by
    unfold Call.exec
    rw [ObjectWrite.run_upsert, run_bind]
    rfl
  rw [hsame]
  exact Steps.refl.call (.write (.upsert calendarId uid icalData fields))

end

/-! ## The tools -/

section

variable {env : Env} {lib : Lib}

theorem moves_eventsOf (calendarId : String) (args : Json) :
    Moves env lib (eventsOf calendarId args) := by
  unfold eventsOf
  split
  · exact moves_read _ fun _ => rfl
  · exact moves_read _ fun _ => rfl

theorem moves_targetUser (username : String) : Moves env lib (targetUser username) :=
  moves_bind (moves_read _ fun _ => rfl) fun _ => moves_orMissing _ _

theorem moves_generateUid : Moves env lib (ExceptT.lift generateUid : ToolCall String) :=
  moves_lift fun _ => ⟨1, rfl⟩

theorem moves_utcNow : Moves env lib (ExceptT.lift utcNow : ToolCall String) :=
  moves_lift fun _ => ⟨1, rfl⟩

theorem only_sharedCalendars (shares : List CalendarShare) :
    (sharedCalendars shares).run.Only Op.Reads := by
  induction shares with
  | nil => exact trivial
  | cons share shares ih =>
    unfold sharedCalendars
    refine only_except_bind (only_sql trivial) fun cal => ?_
    cases cal with
    | none => exact ih
    | some cal => exact only_except_bind ih fun _ => trivial

theorem only_listSharedCalendars (userId : String) :
    (listSharedCalendars userId).run.Only Op.Reads := by
  unfold listSharedCalendars
  refine only_except_bind (only_sql trivial) fun shares => ?_
  exact only_except_bind (only_sharedCalendars shares) fun _ => trivial

theorem moves_resolveCalendar (userId : String) :
    Moves env lib (Simple.resolveCalendar userId) := by
  refine moves_bind (moves_read _ fun _ => rfl) fun cals => ?_
  cases cals with
  | nil => exact moves_bind (moves_write _ (.createCalendar ..)) fun _ => moves_pure _
  | cons cal cals => exact moves_pure _

theorem moves_simple (userId toolName : String) (args : Json) :
    Moves env lib (Simple.dispatch userId toolName args) := by
  have hadd : Moves env lib (Simple.handleAdd userId args) := by
    refine moves_bind (moves_required _ _) fun title => ?_
    refine moves_bind (moves_required _ _) fun start => ?_
    refine moves_bind (moves_required _ _) fun stop => ?_
    refine moves_bind (moves_resolveCalendar userId) fun calendarId => ?_
    refine moves_bind moves_generateUid fun uid => ?_
    refine moves_bind moves_utcNow fun now => ?_
    exact moves_bind (moves_upsert _ _ _ _ _) fun _ => moves_pure _
  have hdelete : Moves env lib (Simple.handleDelete userId args) := by
    refine moves_bind (moves_required _ _) fun eventUid => ?_
    refine moves_bind (moves_resolveCalendar userId) fun calendarId => ?_
    exact moves_bind (moves_write _ (.write (.delete ..))) fun _ => moves_pure _
  have hlist : Moves env lib (Simple.handleList userId args) := by
    refine moves_bind (moves_resolveCalendar userId) fun calendarId => ?_
    exact moves_bind (moves_eventsOf _ _) fun _ => moves_pure _
  exact moves_ite hadd (moves_ite hdelete (moves_ite hlist (moves_throw _)))

section

variable (userId : String) (args : Json)

theorem moves_calendarTools (env : Env) (lib : Lib) :
    Moves env lib (listCalendarsTool userId args) ∧ Moves env lib (getCalendarTool userId args) ∧
      Moves env lib (createCalendarTool userId args) ∧
      Moves env lib (deleteCalendarTool userId args) := by
  refine ⟨?_, ?_, ?_, ?_⟩
  · exact moves_bind (moves_read _ fun _ => rfl) fun _ => moves_pure _
  · refine moves_bind (moves_required _ _) fun calendarId => ?_
    refine moves_bind (moves_read _ fun _ => rfl) fun cal => ?_
    exact moves_bind (moves_orMissing _ _) fun _ => moves_pure _
  · refine moves_bind (moves_required _ _) fun name => ?_
    exact moves_bind (moves_write _ (.createCalendar ..)) fun _ => moves_pure _
  · refine moves_bind (moves_required _ _) fun calendarId => ?_
    exact moves_bind (moves_write _ (.deleteCalendar _)) fun _ => moves_pure _

theorem moves_createEvent : Moves env lib (createEvent userId args) := by
  refine moves_bind (moves_required _ _) fun calendarId => ?_
  refine moves_bind (moves_required _ _) fun title => ?_
  refine moves_bind (moves_required _ _) fun start => ?_
  refine moves_bind (moves_required _ _) fun stop => ?_
  refine moves_bind moves_generateUid fun uid => ?_
  refine moves_bind moves_utcNow fun now => ?_
  exact moves_bind (moves_upsert _ _ _ _ _) fun _ => moves_pure _

theorem moves_updateEvent : Moves env lib (updateEvent userId args) := by
  refine moves_bind (moves_required _ _) fun calendarId => ?_
  refine moves_bind (moves_required _ _) fun eventUid => ?_
  refine moves_bind (moves_required _ _) fun title => ?_
  refine moves_bind (moves_required _ _) fun start => ?_
  refine moves_bind (moves_required _ _) fun stop => ?_
  refine moves_bind (moves_read _ fun _ => rfl) fun obj => ?_
  refine moves_bind (moves_orMissing _ _) fun _ => ?_
  refine moves_bind moves_utcNow fun now => ?_
  exact moves_bind (moves_upsert _ _ _ _ _) fun _ => moves_pure _

theorem moves_eventTools (env : Env) (lib : Lib) :
    Moves env lib (getEvent userId args) ∧ Moves env lib (deleteEvent userId args) ∧
      Moves env lib (queryEvents userId args) := by
  refine ⟨?_, ?_, ?_⟩
  · refine moves_bind (moves_required _ _) fun calendarId => ?_
    refine moves_bind (moves_required _ _) fun eventUid => ?_
    refine moves_bind (moves_read _ fun _ => rfl) fun obj => ?_
    exact moves_bind (moves_orMissing _ _) fun _ => moves_pure _
  · refine moves_bind (moves_required _ _) fun calendarId => ?_
    refine moves_bind (moves_required _ _) fun eventUid => ?_
    exact moves_bind (moves_write _ (.write (.delete ..))) fun _ => moves_pure _
  · refine moves_bind (moves_required _ _) fun calendarId => ?_
    exact moves_bind (moves_eventsOf _ _) fun _ => moves_pure _

theorem moves_sharingTools (env : Env) (lib : Lib) :
    Moves env lib (shareCalendarTool userId args) ∧
      Moves env lib (unshareCalendarTool userId args) ∧
      Moves env lib (listSharedCalendarsTool userId args) := by
  refine ⟨?_, ?_, ?_⟩
  · refine moves_bind (moves_required _ _) fun calendarId => ?_
    refine moves_bind (moves_required _ _) fun username => ?_
    refine moves_bind (moves_required _ _) fun permissionStr => ?_
    refine moves_bind (moves_orMissing _ _) fun permission => ?_
    refine moves_bind (moves_targetUser username) fun user => ?_
    exact moves_bind (moves_write _ (.shareCalendar ..)) fun _ => moves_pure _
  · refine moves_bind (moves_required _ _) fun calendarId => ?_
    refine moves_bind (moves_required _ _) fun username => ?_
    refine moves_bind (moves_targetUser username) fun user => ?_
    exact moves_bind (moves_write _ (.unshareCalendar ..)) fun _ => moves_pure _
  · exact moves_bind (moves_read _ fun _ => run_reads (only_listSharedCalendars userId) _)
      fun _ => moves_pure _

/-- Every tool only makes steps. -/
theorem moves_dispatch (toolName toolMode : String) :
    Moves env lib (dispatch userId toolName args toolMode) := by
  obtain ⟨hlist, hget, hcreate, hdelete⟩ := moves_calendarTools userId args env lib
  obtain ⟨hgetEvent, hdeleteEvent, hquery⟩ := moves_eventTools userId args env lib
  obtain ⟨hshare, hunshare, hshared⟩ := moves_sharingTools userId args env lib
  exact moves_ite (moves_simple userId toolName args) <| moves_ite hlist <| moves_ite hget <|
    moves_ite hcreate <| moves_ite hdelete <| moves_ite (moves_createEvent userId args) <|
    moves_ite hgetEvent <| moves_ite (moves_updateEvent userId args) <|
    moves_ite hdeleteEvent <| moves_ite hquery <| moves_ite hshare <| moves_ite hunshare <|
    moves_ite hshared (moves_throw _)

end

/-- A tool call leads from a reachable state to a reachable one. -/
theorem Reachable.dispatch {w : World} (hw : Reachable env lib w) (userId toolName : String)
    (arguments : Json) (toolMode : String) :
    Reachable env lib
      ((CaldavMcp.dispatch userId toolName arguments toolMode).run.run (exec env) w).2 :=
  hw.steps (moves_dispatch userId arguments toolName toolMode w)

end

end CaldavMcp
