/-
  What the tools may write.

  The MCP port checks no access. In full mode a tool writes to the calendar that its arguments
  name, whoever calls it. In simple mode no calendar is named: a tool writes to one that it has
  found in the list of the caller's calendars, or has just made for a caller who had none.

  `ToolWrites` says which statements each tool may send, over what there is to rest a write on
  (`Evidence`). It is read twice. `seen` is the evidence in the history of the call, and
  `justified_dispatch` proves the tools against it, whatever they are answered. `earlier` is the
  evidence in the states of a run; `tool_writes_mediated` leads from the one to the other, beside
  any other programs and whichever statements fail.
-/
import CaldavMcp.Server
import CaldavMcp.Store
import CaldavMcp.Mcp.SimpleMode

namespace CaldavMcp

open Program

/-! ## Evidence -/

/-- What a tool may rest a write on: the Uuids it has drawn, the users it knows by name, the
    objects it knows to be there, the calendars the caller may use, and that there are none. -/
structure Evidence where
  drawn : String → Prop
  named : String → User → Prop
  stored : (calendarId uid : String) → Prop
  usable : String → Prop
  homeless : Prop

/-- The evidence is enough for the other. -/
structure Evidence.Gives (E E' : Evidence) : Prop where
  drawn : ∀ {uuid}, E.drawn uuid → E'.drawn uuid
  named : ∀ {username user}, E.named username user → E'.named username user
  stored : ∀ {calendarId uid}, E.stored calendarId uid → E'.stored calendarId uid
  usable : ∀ {calendarId}, E.usable calendarId → E'.usable calendarId
  homeless : E.homeless → E'.homeless

/-- What a tool of the full mode may write. -/
inductive FullWrites (userId : String) (args : Json) (E : Evidence) : String → Sql → Prop
  | createCalendar (cal : Calendar) (hid : E.drawn cal.id) (howner : cal.ownerId = userId) :
      FullWrites userId args E "create_calendar" (.insertCalendar cal)
  | deleteCalendar (calendarId : String) (hcal : args.str? "calendar_id" = some calendarId) :
      FullWrites userId args E "delete_calendar" (.deleteCalendar calendarId)
  | createEvent (calendarId uuid : String) (s : Sql)
      (hcal : args.str? "calendar_id" = some calendarId) (huid : E.drawn uuid)
      (hs : s.UpsertsObject calendarId (uuid ++ "@caldav-server")) :
      FullWrites userId args E "create_event" s
  | updateEvent (calendarId uid : String) (s : Sql)
      (hcal : args.str? "calendar_id" = some calendarId) (huid : args.str? "event_uid" = some uid)
      (hstored : E.stored calendarId uid) (hs : s.UpsertsObject calendarId uid) :
      FullWrites userId args E "update_event" s
  | deleteEvent (calendarId uid : String) (s : Sql)
      (hcal : args.str? "calendar_id" = some calendarId) (huid : args.str? "event_uid" = some uid)
      (hs : s.DeletesObject calendarId uid) : FullWrites userId args E "delete_event" s
  | shareCalendar (username : String) (user : User) (share : CalendarShare)
      (hcal : args.str? "calendar_id" = some share.calendarId)
      (hname : args.str? "username" = some username) (huser : E.named username user)
      (hto : share.userId = user.id)
      (hperm : (args.str? "permission").bind Permission.fromStrValue = some share.permission) :
      FullWrites userId args E "share_calendar" (.upsertShare share)
  | unshareCalendar (calendarId username : String) (user : User)
      (hcal : args.str? "calendar_id" = some calendarId)
      (hname : args.str? "username" = some username) (huser : E.named username user) :
      FullWrites userId args E "unshare_calendar" (.deleteShare calendarId user.id)

/-- What a tool of the simple mode may write. -/
inductive SimpleWrites (userId : String) (args : Json) (E : Evidence) : String → Sql → Prop
  | makeDefault (toolName : String) (cal : Calendar) (hname : toolName ∈ simpleTools)
      (hnone : E.homeless) (hid : E.drawn cal.id) (howner : cal.ownerId = userId) :
      SimpleWrites userId args E toolName (.insertCalendar cal)
  | addEvent (calendarId uuid : String) (s : Sql) (hcal : E.usable calendarId)
      (huid : E.drawn uuid) (hs : s.UpsertsObject calendarId (uuid ++ "@caldav-server")) :
      SimpleWrites userId args E "add_event" s
  | deleteEvent (calendarId uid : String) (s : Sql) (hcal : E.usable calendarId)
      (huid : args.str? "event_uid" = some uid) (hs : s.DeletesObject calendarId uid) :
      SimpleWrites userId args E "delete_event" s

/-- What a tool may write. -/
def ToolWrites (userId toolName : String) (args : Json) (toolMode : String) (E : Evidence)
    (s : Sql) : Prop :=
  if toolMode = "simple" then SimpleWrites userId args E toolName s
  else FullWrites userId args E toolName s

theorem ToolWrites.imp {userId toolName toolMode : String} {args : Json} {E E' : Evidence} {s : Sql}
    (h : ToolWrites userId toolName args toolMode E s) (hE : E.Gives E') :
    ToolWrites userId toolName args toolMode E' s := by
  unfold ToolWrites at h ⊢
  split at h
  · rename_i hmode
    rw [if_pos hmode]
    cases h with
    | makeDefault _ cal hname hnone hid howner =>
      exact .makeDefault _ cal hname (hE.homeless hnone) (hE.drawn hid) howner
    | addEvent calendarId uuid s hcal huid hs =>
      exact .addEvent calendarId uuid s (hE.usable hcal) (hE.drawn huid) hs
    | deleteEvent calendarId uid s hcal huid hs =>
      exact .deleteEvent calendarId uid s (hE.usable hcal) huid hs
  · rename_i hmode
    rw [if_neg hmode]
    cases h with
    | createCalendar cal hid howner => exact .createCalendar cal (hE.drawn hid) howner
    | deleteCalendar calendarId hcal => exact .deleteCalendar calendarId hcal
    | createEvent calendarId uuid s hcal huid hs =>
      exact .createEvent calendarId uuid s hcal (hE.drawn huid) hs
    | updateEvent calendarId uid s hcal huid hstored hs =>
      exact .updateEvent calendarId uid s hcal huid (hE.stored hstored) hs
    | deleteEvent calendarId uid s hcal huid hs => exact .deleteEvent calendarId uid s hcal huid hs
    | shareCalendar username user share hcal hname huser hto hperm =>
      exact .shareCalendar username user share hcal hname (hE.named huser) hto hperm
    | unshareCalendar calendarId username user hcal hname huser =>
      exact .unshareCalendar calendarId username user hcal hname (hE.named huser)

/-- The evidence in a call's history. -/
def seen (userId : String) (hist : List (Event Op Op.Resp)) : Evidence where
  drawn uuid := (⟨.newV4, uuid⟩ : Event Op Op.Resp) ∈ hist ∨
    (⟨.nowV7, uuid⟩ : Event Op Op.Resp) ∈ hist
  named username user :=
    (⟨.sql (.selectUserByUsername username), .ok (some user)⟩ : Event Op Op.Resp) ∈ hist
  stored calendarId uid := ∃ obj,
    (⟨.sql (.selectObjectByUid calendarId uid), .ok (some obj)⟩ : Event Op Op.Resp) ∈ hist
  usable calendarId :=
    (∃ cals, (⟨.sql (.selectCalendarsOfUser userId), .ok cals⟩ : Event Op Op.Resp) ∈ hist ∧
      ∃ cal ∈ cals, cal.id = calendarId) ∨
    ∃ cal rows, (⟨.sql (.insertCalendar cal), .ok rows⟩ : Event Op Op.Resp) ∈ hist ∧
      cal.id = calendarId ∧ cal.ownerId = userId
  homeless := (⟨.sql (.selectCalendarsOfUser userId), .ok []⟩ : Event Op Op.Resp) ∈ hist

theorem seen_gives {userId : String} {hist hist' : List (Event Op Op.Resp)}
    (hsub : hist <:+ hist') : (seen userId hist).Gives (seen userId hist') where
  drawn := Or.imp (hsub.subset ·) (hsub.subset ·)
  named h := hsub.subset h
  stored := fun ⟨obj, h⟩ => ⟨obj, hsub.subset h⟩
  usable := Or.imp (fun ⟨cals, h, hcal⟩ => ⟨cals, hsub.subset h, hcal⟩)
    fun ⟨cal, rows, h, hcal⟩ => ⟨cal, rows, hsub.subset h, hcal⟩
  homeless h := hsub.subset h

/-- The operation changes no table, or is one the tool may send on what it has seen. -/
def ToolJustifies (userId toolName : String) (args : Json) (toolMode : String)
    (hist : List (Event Op Op.Resp)) : Op → Prop :=
  Op.Within (ToolWrites userId toolName args toolMode (seen userId hist))

/-! ## The parts of a tool -/

section

variable {α β : Type} {A : (o : Op) → o.Resp → Prop} {J : List (Event Op Op.Resp) → Op → Prop}
  {Q : List (Event Op Op.Resp) → Except String β → Prop} {hist : List (Event Op Op.Resp)}

theorem justified_toolBind {x : ToolCall α} {f : α → ToolCall β}
    {mid : List (Event Op Op.Resp) → Except String α → Prop} (hx : x.run.Justified A J mid hist)
    (herror : ∀ hist' e, Q hist' (.error e))
    (hf : ∀ hist' a, mid hist' (.ok a) → (f a).run.Justified A J Q hist') :
    (x >>= f).run.Justified A J Q hist := by
  rw [ExceptT.run_bind]
  refine justified_bind hx fun hist' r h => ?_
  cases r with
  | ok a => exact hf hist' a h
  | error e => exact herror hist' e

theorem justified_orMissing {message : String} {a? : Option α} {f : α → ToolCall β}
    (herror : ∀ hist' e, Q hist' (.error e))
    (hf : ∀ a, a? = some a → (f a).run.Justified A J Q hist) :
    (orMissing message a? >>= f).run.Justified A J Q hist := by
  cases a? with
  | some a => exact hf a rfl
  | none => exact herror hist _

theorem justified_toolIte {c : Prop} [Decidable c] {p q : ToolCall β}
    (hp : c → p.run.Justified A J Q hist) (hq : ¬ c → q.run.Justified A J Q hist) :
    (if c then p else q : ToolCall β).run.Justified A J Q hist := by
  split
  · rename_i h
    exact hp h
  · rename_i h
    exact hq h

/-- A call of a tool: what it has brought about, it has when it answers. -/
theorem justified_call {message : String} {c : Call α}
    {mid : List (Event Op Op.Resp) → Except AppError α → Prop} (hc : c.run.Justified A J mid hist) :
    (orFail message c).run.Justified A J (fun hist' r => ∀ a, r = .ok a → mid hist' (.ok a))
      hist := by
  refine justified_bind hc fun hist' r h => ?_
  cases r with
  | ok a =>
    intro a' h'
    obtain rfl := Except.ok.inj h'
    exact h
  | error e => exact nofun

/-- A statement of a tool, and what follows when it is answered. -/
theorem justified_orFail {message : String} {s : Sql} {f : s.Rows → ToolCall β}
    (hs : J hist (.sql s)) (herror : ∀ hist' e, Q hist' (.error e))
    (hf : ∀ rows, A (.sql s) (.ok rows) →
      (f rows).run.Justified A J Q (⟨.sql s, .ok rows⟩ :: hist)) :
    (orFail message (sql s) >>= f).run.Justified A J Q hist := by
  refine ⟨hs, fun r hr => ?_⟩
  cases r with
  | ok rows => exact hf rows hr
  | error e => exact herror _ _

end

section

variable {calendarId uid : String}

theorem within_upsertObject (icalData : String) (fields : ObjectFields) :
    (upsertObject calendarId uid icalData fields).run.Only
      (Op.Within (Sql.UpsertsObject calendarId uid)) :=
  only_upsertObject (Or.inl trivial) trivial trivial (fun _ _ => Or.inr ⟨rfl, rfl⟩)
    (fun _ => Or.inr ⟨rfl, rfl⟩) (fun _ _ => Or.inr ⟨rfl, rfl⟩) fun _ _ => Or.inr rfl

theorem within_deleteObject :
    (deleteObject calendarId uid).run.Only (Op.Within (Sql.DeletesObject calendarId uid)) :=
  only_deleteObject (Or.inr ⟨rfl, rfl⟩) trivial (fun _ => Or.inr ⟨rfl, rfl, rfl⟩)
    fun _ _ => Or.inr rfl

end

/-! ## The tools -/

section

variable {userId toolName toolMode : String} {args : Json} {hist : List (Event Op Op.Resp)}

/-- From here on, only writes that what has been seen so far allows. -/
theorem justified_writes {α : Type} {M : Sql → Prop} {x : ToolCall α}
    (hM : ∀ s, M s → ToolWrites userId toolName args toolMode (seen userId hist) s)
    (hx : x.run.Only (Op.Within M)) :
    x.run.Justified KeyedAnswer (ToolJustifies userId toolName args toolMode) (fun _ _ => True)
      hist := by
  refine (justified_of_only hx fun hist' hext o ho => ?_).mono fun _ _ _ => trivial
  cases o with
  | newV4 | nowV7 | salt | utcNow => exact trivial
  | sql s =>
    obtain hread | hs := ho
    · exact Or.inl hread
    · exact Or.inr ((hM s hs).imp (seen_gives hext.suffix))

/-- A new calendar of the caller's: its id has been drawn, and it can be used. -/
theorem justified_createCalendar (name description color timezone : String)
    (hcreate : ∀ hist' (cal : Calendar), hist <:+ hist' → (seen userId hist').drawn cal.id →
      cal.ownerId = userId →
      ToolWrites userId toolName args toolMode (seen userId hist') (.insertCalendar cal)) :
    (createCalendar userId name description color timezone).run.Justified KeyedAnswer
      (ToolJustifies userId toolName args toolMode)
      (fun hist' r => ∀ cal, r = .ok cal → hist <:+ hist' ∧ (seen userId hist').usable cal.id)
      hist := by
  refine ⟨trivial, fun id _ => ⟨trivial, fun token _ => ?_⟩⟩
  have hsub : hist <:+ (⟨.nowV7, token⟩ : Event Op Op.Resp) :: ⟨.nowV7, id⟩ :: hist :=
    (List.suffix_cons _ _).trans (List.suffix_cons _ _)
  have hdrawn : (seen userId ((⟨.nowV7, token⟩ : Event Op Op.Resp) :: ⟨.nowV7, id⟩ :: hist)).drawn
      id := Or.inr (List.mem_cons_of_mem _ List.mem_cons_self)
  refine ⟨Or.inr (hcreate _ _ hsub hdrawn rfl), fun r _ => ?_⟩
  rcases r with e | rows
  · exact nofun
  · refine ⟨Or.inl trivial, fun r hkey => ?_⟩
    rcases r with e | (_ | cal)
    · exact nofun
    · exact nofun
    · intro cal' h
      obtain rfl := Except.ok.inj h
      refine ⟨hsub.trans ((List.suffix_cons _ _).trans (List.suffix_cons _ _)), Or.inr ?_⟩
      exact ⟨_, rows, List.mem_cons_of_mem _ List.mem_cons_self, (hkey cal rfl).symm, rfl⟩

/-- The default calendar is one that the caller may use. -/
theorem justified_resolveCalendar (hmode : toolMode = "simple") (hname : toolName ∈ simpleTools) :
    (Simple.resolveCalendar userId).run.Justified KeyedAnswer
      (ToolJustifies userId toolName args toolMode)
      (fun hist' r => ∀ id, r = .ok id → hist <:+ hist' ∧ (seen userId hist').usable id) hist := by
  refine justified_orFail (Or.inl trivial) (fun _ _ => nofun) fun cals _ => ?_
  cases cals with
  | cons cal cals =>
    intro id h
    obtain rfl := Except.ok.inj h
    exact ⟨List.suffix_cons _ _, Or.inl ⟨_, List.mem_cons_self, cal, List.mem_cons_self, rfl⟩⟩
  | nil =>
    have hcreate := @justified_createCalendar userId toolName toolMode args
      (⟨.sql (.selectCalendarsOfUser userId), .ok []⟩ :: hist) "Calendar" "" "#0E61B9" "UTC"
      fun hist' cal hsub hid howner => by
        unfold ToolWrites
        rw [if_pos hmode]
        exact .makeDefault _ cal hname (hsub.subset List.mem_cons_self) hid howner
    refine justified_toolBind (justified_call hcreate) (fun _ _ => nofun) fun hist' cal h => ?_
    intro id h'
    obtain rfl := Except.ok.inj h'
    obtain ⟨hsub, husable⟩ := h cal rfl cal rfl
    exact ⟨(List.suffix_cons _ _).trans hsub, husable⟩

/-- The uid of a new event is made of a Uuid that has been drawn. -/
theorem justified_generateUid :
    (ExceptT.lift generateUid : ToolCall String).run.Justified KeyedAnswer
      (ToolJustifies userId toolName args toolMode)
      (fun hist' r => ∀ uid, r = .ok uid → hist <:+ hist' ∧
        ∃ uuid, (seen userId hist').drawn uuid ∧ uid = uuid ++ "@caldav-server") hist :=
  ⟨trivial, fun uuid _ _ h => ⟨List.suffix_cons _ _,
    uuid, Or.inl List.mem_cons_self, (Except.ok.inj h).symm⟩⟩

theorem justified_targetUser (username : String) :
    (targetUser username).run.Justified KeyedAnswer (ToolJustifies userId toolName args toolMode)
      (fun hist' r => ∀ user, r = .ok user → (seen userId hist').named username user) hist := by
  refine ⟨Or.inl trivial, fun r _ => ?_⟩
  rcases r with e | (_ | user)
  · exact nofun
  · exact nofun
  · intro user' h
    obtain rfl := Except.ok.inj h
    exact List.mem_cons_self

theorem justified_toolReads {x : ToolCall Json} (hx : x.run.Only Op.Reads) :
    x.run.Justified KeyedAnswer (ToolJustifies userId toolName args toolMode) (fun _ _ => True)
      hist :=
  justified_writes (M := fun _ => False) (fun _ => False.elim) (hx.mono Op.Reads.within)

/-- The write of an event, and the answer. -/
theorem within_store {calendarId uid icalData message : String} {fields : ObjectFields}
    {answer : CalendarObject × Bool → ToolCall Json} (ha : ∀ r, ∃ a, (answer r).run = .ret a) :
    (orFail message (upsertObject calendarId uid icalData fields) >>= answer).run.Only
      (Op.Within (Sql.UpsertsObject calendarId uid)) := by
  refine only_except_bind (only_orFail (within_upsertObject _ _) _) fun r => ?_
  obtain ⟨a, ha⟩ := ha r
  rw [ha]
  exact trivial

end

section

variable (userId : String) {toolMode : String} (args : Json) (hist : List (Event Op Op.Resp))

theorem justified_createCalendarTool (hmode : toolMode ≠ "simple") :
    (createCalendarTool userId args).run.Justified KeyedAnswer
      (ToolJustifies userId "create_calendar" args toolMode) (fun _ _ => True) hist := by
  refine justified_orMissing (fun _ _ => trivial) fun name _ => ?_
  have hcreate := @justified_createCalendar userId "create_calendar" toolMode args hist name
    ((args.str? "description").getD "") ((args.str? "color").getD "#0E61B9")
    ((args.str? "timezone").getD "UTC") fun hist' cal _ hid howner => by
      unfold ToolWrites
      rw [if_neg hmode]
      exact .createCalendar cal hid howner
  exact justified_toolBind (justified_call hcreate) (fun _ _ => trivial) fun _ _ _ => trivial

theorem justified_deleteCalendarTool (hmode : toolMode ≠ "simple") :
    (deleteCalendarTool userId args).run.Justified KeyedAnswer
      (ToolJustifies userId "delete_calendar" args toolMode) (fun _ _ => True) hist := by
  refine justified_orMissing (fun _ _ => trivial) fun calendarId hcal => ?_
  refine justified_writes (M := fun s => s = .deleteCalendar calendarId) ?_ ?_
  · rintro s rfl
    unfold ToolWrites
    rw [if_neg hmode]
    exact .deleteCalendar calendarId hcal
  · refine only_except_bind (only_orFail ?_ _) fun _ => trivial
    unfold deleteCalendar
    refine only_except_bind (only_sql (Or.inr rfl)) fun rows => ?_
    split <;> exact trivial

theorem justified_createEvent (hmode : toolMode ≠ "simple") :
    (createEvent userId args).run.Justified KeyedAnswer
      (ToolJustifies userId "create_event" args toolMode) (fun _ _ => True) hist := by
  refine justified_orMissing (fun _ _ => trivial) fun calendarId hcal => ?_
  refine justified_orMissing (fun _ _ => trivial) fun title _ => ?_
  refine justified_orMissing (fun _ _ => trivial) fun start _ => ?_
  refine justified_orMissing (fun _ _ => trivial) fun stop _ => ?_
  refine justified_toolBind justified_generateUid (fun _ _ => trivial) fun hist' uid h => ?_
  obtain ⟨-, uuid, hdrawn, rfl⟩ := h uid rfl
  refine justified_writes (M := Sql.UpsertsObject calendarId (uuid ++ "@caldav-server"))
    (fun s hs => ?_) ?_
  · unfold ToolWrites
    rw [if_neg hmode]
    exact .createEvent calendarId uuid s hcal hdrawn hs
  · exact only_except_bind ⟨trivial, fun _ => trivial⟩ fun now => within_store fun r => ⟨_, rfl⟩

theorem justified_updateEvent (hmode : toolMode ≠ "simple") :
    (updateEvent userId args).run.Justified KeyedAnswer
      (ToolJustifies userId "update_event" args toolMode) (fun _ _ => True) hist := by
  refine justified_orMissing (fun _ _ => trivial) fun calendarId hcal => ?_
  refine justified_orMissing (fun _ _ => trivial) fun uid huid => ?_
  refine justified_orMissing (fun _ _ => trivial) fun title _ => ?_
  refine justified_orMissing (fun _ _ => trivial) fun start _ => ?_
  refine justified_orMissing (fun _ _ => trivial) fun stop _ => ?_
  refine justified_orFail (Or.inl trivial) (fun _ _ => trivial) fun found _ => ?_
  refine justified_orMissing (fun _ _ => trivial) fun obj hobj => ?_
  subst hobj
  refine justified_writes (M := Sql.UpsertsObject calendarId uid) (fun s hs => ?_) ?_
  · unfold ToolWrites
    rw [if_neg hmode]
    exact .updateEvent calendarId uid s hcal huid ⟨obj, List.mem_cons_self⟩ hs
  · exact only_except_bind ⟨trivial, fun _ => trivial⟩ fun now => within_store fun r => ⟨_, rfl⟩

theorem justified_deleteEvent (hmode : toolMode ≠ "simple") :
    (deleteEvent userId args).run.Justified KeyedAnswer
      (ToolJustifies userId "delete_event" args toolMode) (fun _ _ => True) hist := by
  refine justified_orMissing (fun _ _ => trivial) fun calendarId hcal => ?_
  refine justified_orMissing (fun _ _ => trivial) fun uid huid => ?_
  refine justified_writes (M := Sql.DeletesObject calendarId uid) (fun s hs => ?_) ?_
  · unfold ToolWrites
    rw [if_neg hmode]
    exact .deleteEvent calendarId uid s hcal huid hs
  · exact only_except_bind (only_orFail within_deleteObject _) fun _ => trivial

theorem justified_shareCalendarTool (hmode : toolMode ≠ "simple") :
    (shareCalendarTool userId args).run.Justified KeyedAnswer
      (ToolJustifies userId "share_calendar" args toolMode) (fun _ _ => True) hist := by
  refine justified_orMissing (fun _ _ => trivial) fun calendarId hcal => ?_
  refine justified_orMissing (fun _ _ => trivial) fun username hname => ?_
  refine justified_orMissing (fun _ _ => trivial) fun permissionStr hstr => ?_
  refine justified_orMissing (fun _ _ => trivial) fun permission hperm => ?_
  refine justified_toolBind (justified_targetUser username) (fun _ _ => trivial) fun hist' user h => ?_
  refine justified_writes (M := fun s => ∃ id, s = .upsertShare ⟨id, calendarId, user.id, permission⟩)
    ?_ ?_
  · rintro s ⟨id, rfl⟩
    unfold ToolWrites
    rw [if_neg hmode]
    refine .shareCalendar username user _ hcal hname (h user rfl) rfl ?_
    rw [hstr]
    exact hperm
  · refine only_except_bind (only_orFail ?_ _) fun _ => trivial
    refine only_except_bind (only_nowV7 trivial) fun id => ?_
    refine only_except_bind (only_sql (Or.inr ⟨id, rfl⟩)) fun _ => ?_
    refine only_except_bind (only_sql (Or.inl trivial)) fun share => ?_
    cases share <;> exact trivial

theorem justified_unshareCalendarTool (hmode : toolMode ≠ "simple") :
    (unshareCalendarTool userId args).run.Justified KeyedAnswer
      (ToolJustifies userId "unshare_calendar" args toolMode) (fun _ _ => True) hist := by
  refine justified_orMissing (fun _ _ => trivial) fun calendarId hcal => ?_
  refine justified_orMissing (fun _ _ => trivial) fun username hname => ?_
  refine justified_toolBind (justified_targetUser username) (fun _ _ => trivial) fun hist' user h => ?_
  refine justified_writes (M := fun s => s = .deleteShare calendarId user.id) ?_ ?_
  · rintro s rfl
    unfold ToolWrites
    rw [if_neg hmode]
    exact .unshareCalendar calendarId username user hcal hname (h user rfl)
  · refine only_except_bind (only_orFail ?_ _) fun _ => trivial
    unfold unshareCalendar
    refine only_except_bind (only_sql (Or.inr rfl)) fun rows => ?_
    split <;> exact trivial

theorem justified_handleAdd (hmode : toolMode = "simple") :
    (Simple.handleAdd userId args).run.Justified KeyedAnswer
      (ToolJustifies userId "add_event" args toolMode) (fun _ _ => True) hist := by
  refine justified_orMissing (fun _ _ => trivial) fun title _ => ?_
  refine justified_orMissing (fun _ _ => trivial) fun start _ => ?_
  refine justified_orMissing (fun _ _ => trivial) fun stop _ => ?_
  refine justified_toolBind (justified_resolveCalendar hmode (by decide)) (fun _ _ => trivial)
    fun hist₁ calendarId h₁ => ?_
  refine justified_toolBind justified_generateUid (fun _ _ => trivial) fun hist₂ uid h₂ => ?_
  obtain ⟨hsub, uuid, hdrawn, rfl⟩ := h₂ uid rfl
  refine justified_writes (M := Sql.UpsertsObject calendarId (uuid ++ "@caldav-server"))
    (fun s hs => ?_) ?_
  · unfold ToolWrites
    rw [if_pos hmode]
    exact .addEvent calendarId uuid s ((seen_gives hsub).usable (h₁ _ rfl).2) hdrawn hs
  · exact only_except_bind ⟨trivial, fun _ => trivial⟩ fun now => within_store fun r => ⟨_, rfl⟩

theorem justified_handleDelete (hmode : toolMode = "simple") :
    (Simple.handleDelete userId args).run.Justified KeyedAnswer
      (ToolJustifies userId "delete_event" args toolMode) (fun _ _ => True) hist := by
  refine justified_orMissing (fun _ _ => trivial) fun uid huid => ?_
  refine justified_toolBind (justified_resolveCalendar hmode (by decide)) (fun _ _ => trivial)
    fun hist₁ calendarId h₁ => ?_
  refine justified_writes (M := Sql.DeletesObject calendarId uid) (fun s hs => ?_) ?_
  · unfold ToolWrites
    rw [if_pos hmode]
    exact .deleteEvent calendarId uid s (h₁ _ rfl).2 huid hs
  · exact only_except_bind (only_orFail within_deleteObject _) fun _ => trivial

theorem justified_handleList (hmode : toolMode = "simple") :
    (Simple.handleList userId args).run.Justified KeyedAnswer
      (ToolJustifies userId "list_events" args toolMode) (fun _ _ => True) hist := by
  refine justified_toolBind (justified_resolveCalendar hmode (by decide)) (fun _ _ => trivial)
    fun hist₁ calendarId _ => ?_
  exact justified_toolReads (only_except_bind (only_eventsOf trivial fun _ _ => trivial)
    fun _ => trivial)

/-- **One tool call**, whatever it is answered. -/
theorem justified_dispatch (toolName toolMode : String) :
    (dispatch userId toolName args toolMode).run.Justified KeyedAnswer
      (ToolJustifies userId toolName args toolMode) (fun _ _ => True) hist := by
  unfold dispatch
  refine justified_toolIte (fun hmode => ?_) fun hmode => ?_
  · unfold Simple.dispatch
    refine justified_toolIte (fun h => h ▸ justified_handleAdd userId args hist hmode) fun _ => ?_
    refine justified_toolIte (fun h => h ▸ justified_handleDelete userId args hist hmode) fun _ => ?_
    exact justified_toolIte (fun h => h ▸ justified_handleList userId args hist hmode) fun _ => trivial
  · refine justified_toolIte (fun _ => justified_toolReads (only_listCalendarsTool userId args))
      fun _ => ?_
    refine justified_toolIte (fun _ => justified_toolReads (only_getCalendarTool userId args))
      fun _ => ?_
    refine justified_toolIte (fun h => h ▸ justified_createCalendarTool userId args hist hmode)
      fun _ => ?_
    refine justified_toolIte (fun h => h ▸ justified_deleteCalendarTool userId args hist hmode)
      fun _ => ?_
    refine justified_toolIte (fun h => h ▸ justified_createEvent userId args hist hmode) fun _ => ?_
    refine justified_toolIte (fun _ => justified_toolReads (only_getEvent userId args)) fun _ => ?_
    refine justified_toolIte (fun h => h ▸ justified_updateEvent userId args hist hmode) fun _ => ?_
    refine justified_toolIte (fun h => h ▸ justified_deleteEvent userId args hist hmode) fun _ => ?_
    refine justified_toolIte (fun _ => justified_toolReads (only_queryEvents userId args))
      fun _ => ?_
    refine justified_toolIte (fun h => h ▸ justified_shareCalendarTool userId args hist hmode)
      fun _ => ?_
    refine justified_toolIte (fun h => h ▸ justified_unshareCalendarTool userId args hist hmode)
      fun _ => ?_
    exact justified_toolIte
      (fun _ => justified_toolReads (only_listSharedCalendarsTool userId args)) fun _ => trivial

end

/-! ## Runs -/

/-- The evidence in the states of a run for the call that is thread `i`. `state` are the states,
    by the steps taken so far. -/
def earlier (env : Env) (state : List Nat → World) (sched : List Nat) (i : Nat)
    (userId : String) : Evidence where
  drawn uuid := ∃ before, before ++ [i] <+: sched ∧ uuid = env.uuid (state before).drawn ∧
    (state (before ++ [i])).drawn = (state before).drawn + 1
  named username user := ∃ before, before <+: sched ∧ user ∈ (state before).db.users ∧
    user.username = username
  stored calendarId uid := ∃ before, before <+: sched ∧
    ((state before).db.objectByUid calendarId uid).isSome
  usable calendarId := ∃ before, before <+: sched ∧
    ((state before).db.permissionOf calendarId userId).isSome
  homeless := ∃ before, before <+: sched ∧
    ∀ calendarId, (state before).db.permissionOf calendarId userId = none

/-- A statement that is answered Ok has been carried out. -/
theorem faultyExec_after {env : Env} {message : String} {fails : Nat → Bool} {s : Sql}
    {state : World × Nat} {rows : s.Rows}
    (h : (faultyExec env message fails (.sql s) state).1 = .ok rows) :
    (faultyExec env message fails (.sql s) state).2.1 = state.1.after s := by
  unfold faultyExec faulty at h ⊢
  dsimp only [sqlFault] at h ⊢
  split at h
  · cases h
  · rename_i hfails
    rw [if_neg hfails, exec_sql]

/-- A calendar that has been inserted is its owner's. -/
theorem permissionOf_insertCalendar {w : World} {cal : Calendar} {rows : Nat}
    (h : w.answer (.insertCalendar cal) = .ok rows) :
    ((w.after (.insertCalendar cal)).db.permissionOf cal.id cal.ownerId).isSome := by
  have hinserted : (w.after (.insertCalendar cal)).db.calendars = w.db.calendars ++ [cal] := by
    obtain ⟨-, -, hafter⟩ | ⟨e, he, -⟩ := w.db.toTables.insertCalendar_cases cal
    · rw [World.after_tables, hafter]
    · rw [World.answer, he] at h
      cases h
  refine Tables.permissionOf_isSome.mpr (Or.inl ?_)
  refine (Db.ok _).owns_iff.mpr ⟨cal, ?_, rfl, rfl⟩
  rw [hinserted]
  exact List.mem_append_right _ List.mem_cons_self

section

variable {env : Env} {message : String} {fails : Nat → Bool} {w : World}
  {ps : List (Action ServerAnswer)} {i : Nat} {t : Thread Op Op.Resp ServerAnswer}

/-- What a call has seen was so earlier in the run. -/
theorem seen_gives_earlier (sched : List Nat) (userId : String)
    (ht : ((Pool.start (w, 0) ps).exec (faultyExec env message fails) sched).threads[i]? =
      some t) :
    (seen userId t.hist).Gives (earlier env
      (fun before => ((Pool.start (w, 0) ps).exec (faultyExec env message fails) before).state.1)
      sched i userId) where
  drawn h := by
    obtain h | h := h
    · obtain ⟨before, hbefore, ha, hstate⟩ := Pool.performed_earlier sched ht h
      exact ⟨before, hbefore, ha, congrArg (fun state => state.1.drawn) hstate⟩
    · obtain ⟨before, hbefore, ha, hstate⟩ := Pool.performed_earlier sched ht h
      exact ⟨before, hbefore, ha, congrArg (fun state => state.1.drawn) hstate⟩
  named {username user} h := by
    obtain ⟨before, hbefore, ha⟩ := Pool.seen_earlier sched ht h
    have hfind := Except.ok.inj (faultyExec_ok ha.symm)
    have hname := List.find?_some hfind
    exact ⟨before, hbefore, List.mem_of_find?_eq_some hfind, of_decide_eq_true hname⟩
  stored h := by
    obtain ⟨obj, h⟩ := h
    obtain ⟨before, hbefore, ha⟩ := Pool.seen_earlier sched ht h
    exact ⟨before, hbefore, Option.isSome_iff_exists.mpr
      ⟨obj, Except.ok.inj (faultyExec_ok ha.symm)⟩⟩
  usable h := by
    obtain ⟨cals, h, cal, hcal, rfl⟩ | ⟨cal, rows, h, rfl, rfl⟩ := h
    · obtain ⟨before, hbefore, ha⟩ := Pool.seen_earlier sched ht h
      refine ⟨before, hbefore, (Db.ok _).mem_calendarsFor_ids.mp (List.mem_map.mpr ⟨cal, ?_, rfl⟩)⟩
      have hcals := Except.ok.inj (faultyExec_ok ha.symm)
      rw [← hcals] at hcal
      exact hcal
    · obtain ⟨before, hbefore, ha, hstate⟩ := Pool.performed_earlier sched ht h
      refine ⟨before ++ [i], hbefore, ?_⟩
      have hafter := (congrArg Prod.fst hstate).trans (faultyExec_after ha.symm)
      dsimp only at hafter ⊢
      rw [hafter]
      exact permissionOf_insertCalendar (faultyExec_ok ha.symm)
  homeless h := by
    obtain ⟨before, hbefore, ha⟩ := Pool.seen_earlier sched ht h
    refine ⟨before, hbefore, fun calendarId => ?_⟩
    have hcals := Except.ok.inj (faultyExec_ok ha.symm)
    rw [← Option.not_isSome_iff_eq_none]
    intro hp
    have hmem := (Db.ok _).mem_calendarsFor_ids.mpr hp
    rw [Tables.calendarsFor, hcals] at hmem
    exact List.not_mem_nil hmem

/-- **A tool writes only what it has reason to.** In any interleaving of any programs, whichever
    statements fail: when a tool call is about to send a statement that writes, the statement is
    one its tool may send, on what was so earlier in the run. In full mode it is on the calendar
    of the arguments, or a new calendar of the caller's. In simple mode it is on a calendar that
    the caller had a permission on, or a new calendar of a caller who had none. -/
theorem tool_writes_mediated (env : Env) (lib : Lib) (message : String) (fails : Nat → Bool)
    (w : World) (ps : List (Action ServerAnswer)) (i : Nat) (userId toolName : String)
    (args : Json) (toolMode : String)
    (hi : ps[i]? = some ((ServerRequest.tool userId toolName args toolMode).program lib))
    (sched : List Nat) (t : ServerThread) (s : Sql)
    (ht : ((Pool.start (w, 0) ps).exec (faultyExec env message fails) sched).threads[i]? = some t)
    (ho : t.next? = some (.sql s)) (hs : ¬ s.Reads) :
    ToolWrites userId toolName args toolMode (earlier env
      (fun before => ((Pool.start (w, 0) ps).exec (faultyExec env message fails) before).state.1)
      sched i userId) s := by
  have hprogram : ((ServerRequest.tool userId toolName args toolMode).program lib).Justified
      KeyedAnswer (ToolJustifies userId toolName args toolMode) (fun _ _ => True) [] :=
    justified_bind (justified_dispatch userId args [] toolName toolMode) fun _ _ _ => trivial
  obtain hread | hwrites := Pool.next_justified keyedAnswer_faultyExec hi hprogram sched ht ho
  · exact absurd hread hs
  · exact hwrites.imp (seen_gives_earlier sched userId ht)

end

/-- Alice adds her first event while bob deletes his archive. -/
def firstEvent : List (Action ServerAnswer) :=
  [(ServerRequest.tool (countingEnv.uuid 0) "add_event" lunchArgs "simple").program sampleLib,
    (ServerRequest.tool (countingEnv.uuid 2) "delete_calendar"
      (.object [("calendar_id", .string "archive")]) "full").program sampleLib]

/-- The calendar that alice's call is about to make. -/
def firstCalendarRow : Calendar :=
  ⟨countingEnv.uuid 5, countingEnv.uuid 0, "Calendar", "", "#0E61B9", "UTC",
    syncTokenOf (countingEnv.uuid 6), syncTokenOf (countingEnv.uuid 6)⟩

theorem tool_writes_mediated_first :
    ToolWrites (countingEnv.uuid 0) "add_event" lunchArgs "simple" (earlier countingEnv
      (fun before => ((Pool.start (archiveWorld, 0) firstEvent).exec
        (faultyExec countingEnv "disk I/O error" (· = 7)) before).state.1) [0, 1, 0, 0] 0
      (countingEnv.uuid 0)) (.insertCalendar firstCalendarRow) :=
  tool_writes_mediated countingEnv sampleLib "disk I/O error" (· = 7) archiveWorld firstEvent 0
    (countingEnv.uuid 0) "add_event" lunchArgs "simple" rfl [0, 1, 0, 0] _
    (.insertCalendar firstCalendarRow) rfl rfl id

end CaldavMcp
