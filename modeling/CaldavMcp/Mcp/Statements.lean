/-
  The statements of the tools.

  The tools that show something only read (`only_dispatch_reads`), and every tool stores at most
  one object, with an etag of its own (`storesOnce_dispatch`). `list_events` of the simple mode is
  not among those that only read: it may make the default calendar.
-/
import CaldavMcp.Mcp.Runs
import CaldavMcp.Db.Versions

namespace CaldavMcp

open Program

/-- The tools of the full mode that write. -/
def writingTools : List String :=
  ["create_calendar", "delete_calendar", "create_event", "update_event", "delete_event",
    "share_calendar", "unshare_calendar"]

/-- The tools of the simple mode. -/
def simpleTools : List String := ["add_event", "delete_event", "list_events"]

section

variable {P : Op → Prop} {α β : Type} {A : (o : Op) → o.Resp → Prop}
  {hist : List (Event Op Op.Resp)} {args : Json}

theorem only_orMissing (message : String) (a : Option α) : (orMissing message a).run.Only P := by
  cases a <;> exact trivial

theorem only_required (args : Json) (key : String) : (required args key).run.Only P :=
  only_orMissing _ _

theorem only_toolIte {c : Prop} [Decidable c] {p q : ToolCall α} (hp : c → p.run.Only P)
    (hq : ¬ c → q.run.Only P) : (if c then p else q : ToolCall α).run.Only P := by
  split
  · rename_i h
    exact hp h
  · rename_i h
    exact hq h

theorem only_eventsOf {calendarId : String} (hlist : P (.sql (.selectObjects calendarId)))
    (hrange : ∀ start stop, P (.sql (.selectObjectsInRange calendarId stop start))) :
    (eventsOf calendarId args).run.Only P := by
  unfold eventsOf
  split
  · exact only_orFail (only_sql (hrange ..)) _
  · exact only_orFail (only_sql hlist) _

theorem only_targetUser {username : String} (hread : P (.sql (.selectUserByUsername username))) :
    (targetUser username).run.Only P :=
  only_except_bind (only_orFail (only_sql hread) _) fun _ => only_orMissing _ _

theorem only_resolve {userId : String} (hlist : P (.sql (.selectCalendarsOfUser userId)))
    (htoken : P .nowV7) (hinsert : ∀ c, P (.sql (.insertCalendar c)))
    (hread : ∀ id, P (.sql (.selectCalendarById id))) :
    (Simple.resolveCalendar userId).run.Only P := by
  refine only_except_bind (only_orFail (only_sql hlist) _) fun cals => ?_
  cases cals with
  | cons cal cals => exact trivial
  | nil =>
    have hcreate : (createCalendar userId "Calendar" "" "#0E61B9" "UTC").run.Only P :=
      only_except_bind (only_nowV7 htoken) fun id =>
        only_createCalendarWithId htoken hinsert hread ..
    exact only_except_bind (only_orFail hcreate _) fun _ => trivial

/-! ## Tools that only read -/

section

variable (userId : String) (args : Json)

theorem only_listCalendarsTool : (listCalendarsTool userId args).run.Only Op.Reads :=
  only_except_bind (only_orFail (only_sql trivial) _) fun _ => trivial

theorem only_getCalendarTool : (getCalendarTool userId args).run.Only Op.Reads := by
  refine only_except_bind (only_required _ _) fun calendarId => ?_
  refine only_except_bind (only_orFail (only_sql trivial) _) fun cal => ?_
  exact only_except_bind (only_orMissing _ _) fun _ => trivial

theorem only_getEvent : (getEvent userId args).run.Only Op.Reads := by
  refine only_except_bind (only_required _ _) fun calendarId => ?_
  refine only_except_bind (only_required _ _) fun eventUid => ?_
  refine only_except_bind (only_orFail (only_sql trivial) _) fun obj => ?_
  exact only_except_bind (only_orMissing _ _) fun _ => trivial

theorem only_queryEvents : (queryEvents userId args).run.Only Op.Reads := by
  refine only_except_bind (only_required _ _) fun calendarId => ?_
  exact only_except_bind (only_eventsOf trivial fun _ _ => trivial) fun _ => trivial

theorem only_listSharedCalendarsTool : (listSharedCalendarsTool userId args).run.Only Op.Reads :=
  only_except_bind (only_orFail (only_listSharedCalendars userId) _) fun _ => trivial

/-- A tool of the full mode that is none of the writing ones only reads, and so does a tool that
    the simple mode does not know. -/
theorem only_dispatch_reads {toolName toolMode : String}
    (h : toolName ∉ if toolMode = "simple" then simpleTools else writingTools) :
    (dispatch userId toolName args toolMode).run.Only Op.Reads := by
  unfold dispatch
  refine only_toolIte (fun hmode => ?_) fun hmode => ?_
  · rw [if_pos hmode] at h
    have hnot : ∀ name ∈ simpleTools, toolName ≠ name := fun name hname heq => h (heq ▸ hname)
    unfold Simple.dispatch
    refine only_toolIte (fun hn => absurd hn (hnot _ (by decide))) fun _ => ?_
    refine only_toolIte (fun hn => absurd hn (hnot _ (by decide))) fun _ => ?_
    exact only_toolIte (fun hn => absurd hn (hnot _ (by decide))) fun _ => trivial
  · rw [if_neg hmode] at h
    have hnot : ∀ name ∈ writingTools, toolName ≠ name := fun name hname heq => h (heq ▸ hname)
    refine only_toolIte (fun _ => only_listCalendarsTool userId args) fun _ => ?_
    refine only_toolIte (fun _ => only_getCalendarTool userId args) fun _ => ?_
    refine only_toolIte (fun hn => absurd hn (hnot _ (by decide))) fun _ => ?_
    refine only_toolIte (fun hn => absurd hn (hnot _ (by decide))) fun _ => ?_
    refine only_toolIte (fun hn => absurd hn (hnot _ (by decide))) fun _ => ?_
    refine only_toolIte (fun _ => only_getEvent userId args) fun _ => ?_
    refine only_toolIte (fun hn => absurd hn (hnot _ (by decide))) fun _ => ?_
    refine only_toolIte (fun hn => absurd hn (hnot _ (by decide))) fun _ => ?_
    refine only_toolIte (fun _ => only_queryEvents userId args) fun _ => ?_
    refine only_toolIte (fun hn => absurd hn (hnot _ (by decide))) fun _ => ?_
    refine only_toolIte (fun hn => absurd hn (hnot _ (by decide))) fun _ => ?_
    exact only_toolIte (fun _ => only_listSharedCalendarsTool userId args) fun _ => trivial

/-! ## Tools that store nothing -/

theorem plainly_createCalendarTool : (createCalendarTool userId args).run.Only Op.Plainly := by
  refine only_except_bind (only_required _ _) fun name => ?_
  refine only_except_bind (only_orFail ?_ _) fun _ => trivial
  exact only_except_bind (only_nowV7 trivial) fun id =>
    only_createCalendarWithId trivial (fun _ => trivial) (fun _ => trivial) ..

theorem plainly_deleteCalendarTool : (deleteCalendarTool userId args).run.Only Op.Plainly := by
  refine only_except_bind (only_required _ _) fun calendarId => ?_
  exact only_except_bind (only_orFail (only_deleteCalendar (fun _ => trivial) calendarId) _)
    fun _ => trivial

theorem plainly_deleteEvent : (deleteEvent userId args).run.Only Op.Plainly := by
  refine only_except_bind (only_required _ _) fun calendarId => ?_
  refine only_except_bind (only_required _ _) fun eventUid => ?_
  exact only_except_bind (only_orFail (only_deleteObject trivial trivial (fun _ => trivial) fun _ _ => trivial) _)
    fun _ => trivial

theorem plainly_shareCalendarTool : (shareCalendarTool userId args).run.Only Op.Plainly := by
  refine only_except_bind (only_required _ _) fun calendarId => ?_
  refine only_except_bind (only_required _ _) fun username => ?_
  refine only_except_bind (only_required _ _) fun permissionStr => ?_
  refine only_except_bind (only_orMissing _ _) fun permission => ?_
  refine only_except_bind (only_targetUser trivial) fun user => ?_
  exact only_except_bind (only_orFail (only_shareCalendar trivial (fun _ => trivial) (fun _ _ => trivial)
    calendarId user.id permission) _) fun _ => trivial

theorem plainly_unshareCalendarTool : (unshareCalendarTool userId args).run.Only Op.Plainly := by
  refine only_except_bind (only_required _ _) fun calendarId => ?_
  refine only_except_bind (only_required _ _) fun username => ?_
  refine only_except_bind (only_targetUser trivial) fun user => ?_
  exact only_except_bind (only_orFail (only_unshareCalendar (fun _ _ => trivial) calendarId user.id) _)
    fun _ => trivial

theorem plainly_resolveCalendar : (Simple.resolveCalendar userId).run.Only Op.Plainly :=
  only_resolve trivial trivial (fun _ => trivial) fun _ => trivial

theorem plainly_simpleDelete : (Simple.handleDelete userId args).run.Only Op.Plainly := by
  refine only_except_bind (only_required _ _) fun eventUid => ?_
  refine only_except_bind (plainly_resolveCalendar userId) fun calendarId => ?_
  exact only_except_bind (only_orFail (only_deleteObject trivial trivial (fun _ => trivial) fun _ _ => trivial) _)
    fun _ => trivial

theorem plainly_simpleList : (Simple.handleList userId args).run.Only Op.Plainly := by
  refine only_except_bind (plainly_resolveCalendar userId) fun calendarId => ?_
  exact only_except_bind (only_eventsOf trivial fun _ _ => trivial) fun _ => trivial

end

/-! ## Tools that store an event -/

/-- A part of a tool that stores nothing, and what follows. -/
theorem storesOnce_toolBind {x : ToolCall α} {f : α → ToolCall β} (hx : x.run.Only Op.Plainly)
    (h : NoneStored hist)
    (hf : ∀ hist' a, NoneStored hist' →
      (f a).run.Justified A StoresOnce (fun _ _ => True) hist') :
    (x >>= f).run.Justified A StoresOnce (fun _ _ => True) hist := by
  rw [ExceptT.run_bind]
  refine storesOnce_after hx h fun hist' r h' => ?_
  cases r with
  | ok a => exact hf hist' a h'
  | error e => exact trivial

/-- The write of an event, and the answer. -/
theorem storesOnce_store (h : NoneStored hist) (message calendarId uid icalData : String)
    (fields : ObjectFields) (answer : CalendarObject × Bool → Json) :
    (do
      let r ← orFail message (upsertObject calendarId uid icalData fields)
      return answer r : ToolCall Json).run.Justified A StoresOnce (fun _ _ => True) hist := by
  have hcall : (orFail message (upsertObject calendarId uid icalData fields)).run.Justified A
      StoresOnce (fun _ _ => True) hist := by
    refine justified_bind (storesOnce_upsertObject calendarId uid icalData fields h) ?_
    intro hist' r _
    cases r <;> exact trivial
  rw [ExceptT.run_bind]
  refine justified_bind hcall fun hist' r _ => ?_
  cases r <;> exact trivial

section

variable (userId : String) (args : Json)

theorem plainly_generateUid : (ExceptT.lift generateUid : ToolCall String).run.Only Op.Plainly :=
  ⟨trivial, fun _ => trivial⟩

theorem plainly_utcNow : (ExceptT.lift utcNow : ToolCall String).run.Only Op.Plainly :=
  ⟨trivial, fun _ => trivial⟩

theorem storesOnce_createEvent (h : NoneStored hist) :
    (createEvent userId args).run.Justified A StoresOnce (fun _ _ => True) hist := by
  refine storesOnce_toolBind (only_required _ _) h fun _ calendarId h => ?_
  refine storesOnce_toolBind (only_required _ _) h fun _ title h => ?_
  refine storesOnce_toolBind (only_required _ _) h fun _ start h => ?_
  refine storesOnce_toolBind (only_required _ _) h fun _ stop h => ?_
  refine storesOnce_toolBind plainly_generateUid h fun _ uid h => ?_
  refine storesOnce_toolBind plainly_utcNow h fun _ now h => ?_
  exact storesOnce_store h ..

theorem storesOnce_updateEvent (h : NoneStored hist) :
    (updateEvent userId args).run.Justified A StoresOnce (fun _ _ => True) hist := by
  refine storesOnce_toolBind (only_required _ _) h fun _ calendarId h => ?_
  refine storesOnce_toolBind (only_required _ _) h fun _ eventUid h => ?_
  refine storesOnce_toolBind (only_required _ _) h fun _ title h => ?_
  refine storesOnce_toolBind (only_required _ _) h fun _ start h => ?_
  refine storesOnce_toolBind (only_required _ _) h fun _ stop h => ?_
  refine storesOnce_toolBind (only_orFail (only_sql trivial) _) h fun _ obj h => ?_
  refine storesOnce_toolBind (only_orMissing _ _) h fun _ _ h => ?_
  refine storesOnce_toolBind plainly_utcNow h fun _ now h => ?_
  exact storesOnce_store h ..

theorem storesOnce_handleAdd (h : NoneStored hist) :
    (Simple.handleAdd userId args).run.Justified A StoresOnce (fun _ _ => True) hist := by
  refine storesOnce_toolBind (only_required _ _) h fun _ title h => ?_
  refine storesOnce_toolBind (only_required _ _) h fun _ start h => ?_
  refine storesOnce_toolBind (only_required _ _) h fun _ stop h => ?_
  refine storesOnce_toolBind (plainly_resolveCalendar userId) h fun _ calendarId h => ?_
  refine storesOnce_toolBind plainly_generateUid h fun _ uid h => ?_
  refine storesOnce_toolBind plainly_utcNow h fun _ now h => ?_
  exact storesOnce_store h ..

theorem storesOnce_toolIte {c : Prop} [Decidable c] {p q : ToolCall α}
    (hp : p.run.Justified A StoresOnce (fun _ _ => True) hist)
    (hq : q.run.Justified A StoresOnce (fun _ _ => True) hist) :
    (if c then p else q : ToolCall α).run.Justified A StoresOnce (fun _ _ => True) hist := by
  split
  · exact hp
  · exact hq

/-- **Every tool** stores at most one object, with an etag that it has drawn. -/
theorem storesOnce_dispatch (h : NoneStored hist) (toolName toolMode : String) :
    (dispatch userId toolName args toolMode).run.Justified A StoresOnce (fun _ _ => True)
      hist := by
  have hreads : ∀ {p : ToolCall Json}, p.run.Only Op.Reads →
      p.run.Justified A StoresOnce (fun _ _ => True) hist :=
    fun hp => storesOnce_last (hp.mono Op.Reads.plainly)
  have hsimple : (Simple.dispatch userId toolName args).run.Justified A StoresOnce
      (fun _ _ => True) hist :=
    storesOnce_toolIte (storesOnce_handleAdd userId args h) <|
    storesOnce_toolIte (storesOnce_last (plainly_simpleDelete userId args)) <|
    storesOnce_toolIte (storesOnce_last (plainly_simpleList userId args)) trivial
  exact storesOnce_toolIte hsimple <|
    storesOnce_toolIte (hreads (only_listCalendarsTool userId args)) <|
    storesOnce_toolIte (hreads (only_getCalendarTool userId args)) <|
    storesOnce_toolIte (storesOnce_last (plainly_createCalendarTool userId args)) <|
    storesOnce_toolIte (storesOnce_last (plainly_deleteCalendarTool userId args)) <|
    storesOnce_toolIte (storesOnce_createEvent userId args h) <|
    storesOnce_toolIte (hreads (only_getEvent userId args)) <|
    storesOnce_toolIte (storesOnce_updateEvent userId args h) <|
    storesOnce_toolIte (storesOnce_last (plainly_deleteEvent userId args)) <|
    storesOnce_toolIte (hreads (only_queryEvents userId args)) <|
    storesOnce_toolIte (storesOnce_last (plainly_shareCalendarTool userId args)) <|
    storesOnce_toolIte (storesOnce_last (plainly_unshareCalendarTool userId args)) <|
    storesOnce_toolIte (hreads (only_listSharedCalendarsTool userId args)) trivial

end

end

end CaldavMcp
