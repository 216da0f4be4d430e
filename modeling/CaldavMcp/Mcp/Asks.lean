/-
  The tools do what they are asked.

  `performs_dispatch` is `performs_handle` for the other port. A tool stops where an argument is
  missing, and then nothing was wanted. In simple mode a user without a calendar gets one first
  (`takes_resolveCalendar`), and keeps it when the rest fails.
-/
import CaldavMcp.Asks

namespace CaldavMcp

open Program

/-- The tool does what is wanted, and answers so. -/
abbrev ServesTool (ask : Ask) (hist : List (Event Op Op.Resp)) (p : ToolCall Json) : Prop :=
  Takes ask.Allows (fun result actions => Performs ask (.tool result) actions) hist p.run

theorem error_not_succeeded (message : String) : ¬ (ServerAnswer.tool (.error message)).Succeeded :=
  nofun

section

variable {ask : Ask} {hist : List (Event Op Op.Resp)} {α : Type} {args : Json}
  {before : List StoreAction} {calendarId uid : String}

/-- A part of a tool that is silent, and what follows. -/
theorem servesTool_bind {x : ToolCall α} {f : α → ToolCall Json} (hx : x.run.Only Op.Silent)
    (hstop : ∀ message, Performs ask (.tool (.error message)) (actionsOf hist))
    (hf : ∀ a hist', actionsOf hist' = actionsOf hist → ServesTool ask hist' (f a)) :
    ServesTool ask hist (x >>= f) := by
  unfold ServesTool
  rw [ExceptT.run_bind]
  refine justified_bind (takes_silent hx) fun hist' r h => ?_
  cases r with
  | ok a => exact hf a hist' h
  | error message =>
    show Performs ask (.tool (.error message)) (actionsOf hist')
    rw [h]
    exact hstop message

/-- A tool that changes nothing, where nothing is wanted. -/
theorem servesTool_nothing {p : ToolCall Json} (hp : p.run.Only Op.Still)
    (hactions : actionsOf hist = []) : ServesTool .nothing hist p := by
  refine (takes_still hp Ask.allows_look).mono fun hist' result h => .of_nothing ?_
  obtain ⟨looks, h, hlooks⟩ := h
  rw [h]
  exact changes_of_append hactions hlooks

/-- A tool that stops where an argument is missing. -/
theorem servesTool_missing (message : String) (hactions : actionsOf hist = []) :
    ServesTool .nothing hist (throw message) := by
  have hstill : (throw message : ToolCall Json).run.Only Op.Still := trivial
  exact servesTool_nothing hstill hactions

/-- A call of `src/db/` at the end of a tool, and the answer. -/
theorem servesTool_last {R : Except AppError α → List StoreAction → Prop} {c : Call α}
    (hc : Takes ask.Allows R hist c.run) (message : String) (answer : α → Json)
    (hok : ∀ a actions, R (.ok a) actions → Performs ask (.tool (.ok (answer a))) actions)
    (herror : ∀ e message' actions, R (.error e) actions →
      Performs ask (.tool (.error message')) actions) :
    ServesTool ask hist (do
      let a ← orFail message c
      return answer a) := by
  have hcall : Takes ask.Allows
      (fun r actions => Performs ask (.tool (Except.map answer r)) actions) hist
      (orFail message c).run := by
    refine justified_bind hc fun hist' result h => ?_
    cases result with
    | ok a => exact hok a _ h
    | error e => exact herror e _ _ h
  unfold ServesTool
  rw [ExceptT.run_bind]
  refine justified_bind hcall fun hist' r h => ?_
  cases r with
  | ok a => exact h
  | error message => exact h

/-- The write of an event, and the answer. -/
theorem servesTool_store {data : String} {fields : ObjectFields} (hactions : actionsOf hist = before)
    (answer : CalendarObject × Bool → Json) (message : String)
    (hdone : ∀ obj isNew old, obj.uid = uid → ask.Done (.tool (.ok (answer (obj, isNew))))
      (before ++ upserted calendarId uid data old (some obj.icalData)))
    (hwhole : ∀ old, ∃ answer', ask.Done answer'
      (before ++ upserted calendarId uid data old (some "")))
    (hne : ∀ calendarId' uid', ask ≠ .get calendarId' uid') :
    ServesTool ask hist (do
      let r ← orFail message (upsertObject calendarId uid data fields)
      return answer r) := by
  have hallows : ∀ old : Option String, ask.Allows
      (if old = none then .create calendarId uid data else .replace calendarId uid data) := by
    intro old
    obtain ⟨answer', h⟩ := hwhole old
    exact h.allows (List.mem_append_right _ (List.mem_cons_of_mem _ List.mem_cons_self))
  refine servesTool_last (takes_upsertObject (fun _ => Ask.allows_look _ _ _) (hallows none)
    (hallows (some "")) fields hactions) message answer ?_ ?_
  · rintro ⟨obj, isNew⟩ actions ⟨huid, old, -, rfl⟩
    exact .of_done (hdone obj isNew old huid) id hne
  · rintro e message' actions ⟨old, seen, part, hpart, rfl⟩
    obtain ⟨answer', h⟩ := hwhole old
    refine .of_broken h ?_ (error_not_succeeded _) id hne
    rw [changes_append, changes_append, List.prefix_append_right_inj, changes_upserted]
    exact changes_upserted calendarId uid data old seen ▸ changes_prefix hpart

/-- The deletion of an event, and the answer. -/
theorem servesTool_remove (hactions : actionsOf hist = before) (answer : Json) (message : String)
    (hdone : ∀ answer', ask.Done answer' (before ++ [.remove calendarId uid]))
    (hne : ∀ calendarId' uid', ask ≠ .get calendarId' uid') :
    ServesTool ask hist (do
      let _ ← orFail message (deleteObject calendarId uid)
      return answer) := by
  have hremove : ask.Allows (.remove calendarId uid) :=
    (hdone (.tool (.error ""))).allows (List.mem_append_right _ List.mem_cons_self)
  have hbroken : ∀ (message' : String) (actions : List StoreAction),
      changes actions <+: changes (before ++ [.remove calendarId uid]) →
      Performs ask (.tool (.error message')) actions := fun message' _ h =>
    .of_broken (hdone (.tool (.error ""))) h (error_not_succeeded message') id hne
  refine servesTool_last (takes_deleteObject (Ask.allows_look _ _ _) hremove hactions) message
    (fun _ => answer) ?_ ?_
  · rintro ⟨⟩ actions rfl
    exact .of_done (hdone _) id hne
  · intro e message' actions houtcome
    have hbefore : changes before <+: changes (before ++ [.remove calendarId uid]) :=
      changes_prefix (List.prefix_append _ _)
    cases e with
    | notFound message'' =>
      obtain rfl : actions = before ++ [_] := houtcome
      refine hbroken message' _ ?_
      rw [changes_append]
      exact (List.append_nil _).symm ▸ hbefore
    | _ =>
      obtain rfl | rfl : actions = before ∨ actions = before ++ [_] := houtcome
      · exact hbroken message' _ hbefore
      · exact hbroken message' _ List.prefix_rfl

/-- Where nothing has changed yet, a tool may stop. -/
theorem stops (hne : ∀ calendarId' uid', ask ≠ .get calendarId' uid')
    (hactions : changes (actionsOf hist) = []) (message : String) :
    Performs ask (.tool (.error message)) (actionsOf hist) :=
  .of_failed (error_not_succeeded message) hactions (Or.inr hne)

/-! ## The full mode -/

theorem servesTool_createEvent (userId : String) (hactions : actionsOf hist = []) :
    ServesTool (createEventAsk args) hist (createEvent userId args) := by
  unfold createEvent required createEventAsk
  cases args.str? "calendar_id" with
  | none => exact servesTool_missing _ hactions
  | some calendarId =>
    cases args.str? "title" with
    | none => exact servesTool_missing _ hactions
    | some title =>
      cases args.str? "start" with
      | none => exact servesTool_missing _ hactions
      | some start =>
        cases args.str? "end" with
        | none => exact servesTool_missing _ hactions
        | some stop =>
          have hne : ∀ calendarId' uid', Ask.add calendarId (eventText args title start stop) ≠
            .get calendarId' uid' := nofun
          show ServesTool _ hist ((ExceptT.lift generateUid : ToolCall String) >>= fun uid => _)
          refine servesTool_bind ⟨trivial, fun _ => trivial⟩ (stops hne (by rw [hactions]; rfl))
            fun uid hist₁ h₁ => ?_
          have h₁ : actionsOf hist₁ = [] := h₁.trans hactions
          refine servesTool_bind ⟨trivial, fun _ => trivial⟩ (stops hne (by rw [h₁]; rfl))
            fun now hist₂ h₂ => ?_
          refine servesTool_store (show actionsOf hist₂ = [] from h₂.trans h₁) _ _ ?_ ?_ hne
          · intro obj isNew old huid
            refine .add _ _ _ now uid ?_ old obj.icalData
            exact congrArg some huid
          · intro old
            exact ⟨.tool (.ok (.object [("uid", .string uid)])), .add _ _ _ now uid rfl old ""⟩

theorem servesTool_updateEvent (userId : String) (hactions : actionsOf hist = []) :
    ServesTool (updateEventAsk args) hist (updateEvent userId args) := by
  unfold updateEvent required updateEventAsk
  cases args.str? "calendar_id" with
  | none => exact servesTool_missing _ hactions
  | some calendarId =>
    cases args.str? "event_uid" with
    | none => exact servesTool_missing _ hactions
    | some eventUid =>
      cases args.str? "title" with
      | none => exact servesTool_missing _ hactions
      | some title =>
        cases args.str? "start" with
        | none => exact servesTool_missing _ hactions
        | some start =>
          cases args.str? "end" with
          | none => exact servesTool_missing _ hactions
          | some stop =>
            have hne : ∀ calendarId' uid',
              Ask.update calendarId eventUid (fun now => eventText args title start stop now eventUid) ≠
              .get calendarId' uid' := nofun
            have hlook : (getObjectByUid calendarId eventUid).run.Only Op.Still := only_sql trivial
            show ServesTool _ hist
              (orFail "Database error" (getObjectByUid calendarId eventUid) >>= fun found => _)
            unfold ServesTool
            rw [ExceptT.run_bind]
            refine justified_bind (takes_still (only_orFail hlook _) Ask.allows_look)
              fun hist₁ r h₁ => ?_
            obtain ⟨looks, h₁, hlooks⟩ := h₁
            rw [hactions, List.nil_append] at h₁
            have hchanges : changes (actionsOf hist₁) = [] := by rw [h₁, hlooks]
            rcases r with message | (_ | obj)
            · exact stops hne hchanges message
            · exact stops hne hchanges _
            · show ServesTool _ hist₁ ((ExceptT.lift utcNow : ToolCall String) >>= fun now => _)
              refine servesTool_bind ⟨trivial, fun _ => trivial⟩ (stops hne hchanges)
                fun now hist₂ h₂ => ?_
              refine servesTool_store (h₂.trans h₁) _ _ ?_ ?_ hne
              · intro obj isNew old _
                exact .update _ _ _ _ looks hlooks now old obj.icalData
              · intro old
                exact ⟨.tool (.error ""), .update _ _ _ _ looks hlooks now old ""⟩

theorem servesTool_deleteEvent (userId : String) (hactions : actionsOf hist = []) :
    ServesTool (deleteEventAsk args) hist (deleteEvent userId args) := by
  unfold deleteEvent required deleteEventAsk
  cases args.str? "calendar_id" with
  | none => exact servesTool_missing _ hactions
  | some calendarId =>
    cases args.str? "event_uid" with
    | none => exact servesTool_missing _ hactions
    | some eventUid =>
      exact servesTool_remove (show actionsOf hist = [] from hactions) _ _ (fun answer' => .remove _ _ answer') nofun

theorem servesTool_getEvent (userId : String) (hactions : actionsOf hist = []) :
    ServesTool (getEventAsk args) hist (getEvent userId args) := by
  unfold getEvent required getEventAsk
  cases args.str? "calendar_id" with
  | none => exact servesTool_missing _ hactions
  | some calendarId =>
    cases args.str? "event_uid" with
    | none => exact servesTool_missing _ hactions
    | some eventUid =>
      refine ⟨marks_look fun _ => Ask.allows_look _ _ _, fun r _ => ?_⟩
      have hget : ∀ (answer : ServerAnswer) (looks : List StoreAction), changes looks = [] →
          (∀ found, answer.found? = some found → looks = [.look calendarId eventUid found]) →
          Performs (.get calendarId eventUid) answer looks := by
        intro answer looks hlooks hfound
        refine ⟨fun _ => .get _ _ _ _ hlooks, ⟨answer, looks, .get _ _ _ looks hlooks,
          List.prefix_rfl⟩, fun _ => hlooks, ?_⟩
        intro found h calendarId' uid' heq
        cases heq
        exact hfound found h
      have hlooked : ∀ found, actionsOf (⟨.sql (.selectObjectByUid calendarId eventUid),
          .ok found⟩ :: hist) = [.look calendarId eventUid (found.map (·.icalData))] := by
        intro found
        rw [actionsOf_cons, hactions]
        rfl
      rcases r with e | (_ | obj)
      · have hfailed : actionsOf (⟨.sql (.selectObjectByUid calendarId eventUid), .error e⟩ ::
            hist) = [] := (List.append_nil _).trans hactions
        have hmessage : ∀ s : String, "Database error" ++ ": " ++ s ≠ "Event not found" := by
          intro s h
          have hhead := congrArg (fun s : String => s.toList.head?) h
          simp at hhead
        have hfound : (ServerAnswer.tool (.error
            ("Database error" ++ ": " ++ (AppError.database e).display))).found? = none := by
          unfold ServerAnswer.found?
          exact if_neg (hmessage _)
        exact .of_failed (error_not_succeeded _) (by rw [hfailed]; rfl) (Or.inl hfound)
      · refine hget _ _ (by rw [hlooked]; rfl) fun found h => ?_
        rw [hlooked]
        cases h
        rfl
      · refine hget _ _ (by rw [hlooked]; rfl) fun found h => ?_
        rw [hlooked]
        cases h
        rfl

theorem servesTool_deleteCalendar (userId : String) (hactions : actionsOf hist = []) :
    ServesTool (deleteCalendarAsk args) hist (deleteCalendarTool userId args) := by
  unfold deleteCalendarTool required deleteCalendarAsk
  cases args.str? "calendar_id" with
  | none => exact servesTool_missing _ hactions
  | some calendarId =>
    have hne : ∀ calendarId' uid', Ask.drop calendarId ≠ .get calendarId' uid' := nofun
    have hdone := Ask.Done.drop calendarId (.tool (.error ""))
    refine servesTool_last (takes_deleteCalendar (hdone.allows List.mem_cons_self) hactions) _
      (fun _ => .object [("deleted", .bool true), ("calendar_id", .string calendarId)]) ?_ ?_
    · rintro ⟨⟩ actions rfl
      exact .of_done (.drop _ _) id hne
    · rintro e message' actions rfl
      exact .of_failed (error_not_succeeded message') rfl (Or.inr hne)

/-- A calendar with a new id. -/
theorem takes_createCalendar {may : StoreAction → Prop} (hmay : ∀ id, may (.makeCalendar id))
    (hactions : actionsOf hist = []) (ownerId name description color timezone : String) :
    Takes may (fun result actions => ∃ id, MayHaveMade id actions ∧
        ∀ cal, result = .ok cal → cal.id = id ∧ actions = [.makeCalendar id]) hist
      (createCalendar ownerId name description color timezone).run := by
  refine takes_call (o := .nowV7) trivial fun id hist₁ h₁ => ?_
  refine (takes_createCalendarWithId (hmay id) (h₁.trans hactions) ..).mono
    fun hist' result houtcome => ⟨id, ?_⟩
  cases result with
  | ok cal =>
    obtain ⟨hid, heq⟩ : cal.id = id ∧ actionsOf hist' = [] ++ [_] := houtcome
    refine ⟨Or.inr heq, fun cal' h => ?_⟩
    obtain rfl := Except.ok.inj h
    exact ⟨hid, heq⟩
  | error e => exact ⟨houtcome, nofun⟩

theorem servesTool_createCalendar (userId : String) (hactions : actionsOf hist = []) :
    ServesTool .makeNew hist (createCalendarTool userId args) := by
  have hne : ∀ calendarId' uid', Ask.makeNew ≠ .get calendarId' uid' := nofun
  have hdone := Ask.Done.makeNew (.tool (.error ""))
  unfold createCalendarTool required
  cases args.str? "name" with
  | none => exact stops hne (by rw [hactions]; rfl) _
  | some name =>
    refine servesTool_last (takes_createCalendar (fun id => (hdone id).allows List.mem_cons_self)
      hactions ..) _ (fun cal => .object
        [("id", .string cal.id), ("name", .string cal.name),
          ("description", .string cal.description), ("color", .string cal.color),
          ("timezone", .string cal.timezone)]) ?_ ?_
    · rintro cal actions ⟨calendarId, -, hmade⟩
      rw [(hmade cal rfl).2]
      exact .of_done (.makeNew _ calendarId) id hne
    · rintro e message' actions ⟨calendarId, hmade, -⟩
      refine .of_broken (hdone calendarId) ?_ (error_not_succeeded message') id hne
      obtain rfl | rfl := hmade
      · exact List.nil_prefix
      · exact List.prefix_rfl

/-! ## The simple mode -/

/-- The calendar of a user in simple mode, and how it has come about. -/
theorem takes_resolveCalendar {may : StoreAction → Prop} (hmay : ∀ id, may (.makeCalendar id))
    (hactions : actionsOf hist = []) (userId : String) :
    Takes may (fun result actions => ∃ id, MayHaveMade id actions ∧
      ∀ calendarId, result = .ok calendarId → calendarId = id) hist
      (Simple.resolveCalendar userId).run := by
  have hlist : (listCalendarsForUser userId).run.Only Op.Silent := only_sql trivial
  unfold Simple.resolveCalendar
  rw [ExceptT.run_bind]
  refine justified_bind (takes_silent (only_orFail hlist _)) fun hist₁ r h₁ => ?_
  have hnone : actionsOf hist₁ = [] := h₁.trans hactions
  rcases r with message | (_ | ⟨cal, cals⟩)
  · exact ⟨"", Or.inl hnone, nofun⟩
  · have hmake : Takes may (fun (r : Except String Calendar) actions => ∃ id,
        MayHaveMade id actions ∧ ∀ cal, r = .ok cal → cal.id = id) hist₁
        (orFail "Failed to create default calendar"
          (createCalendar userId "Calendar" "" "#0E61B9" "UTC")).run := by
      refine justified_bind (takes_createCalendar hmay hnone ..) fun hist₂ result h => ?_
      obtain ⟨id, hmade, hid⟩ := h
      cases result with
      | ok cal => exact ⟨id, hmade, fun cal' h => Except.ok.inj h ▸ (hid cal rfl).1⟩
      | error e => exact ⟨id, hmade, nofun⟩
    refine justified_bind hmake fun hist₂ r h => ?_
    obtain ⟨id, hmade, hid⟩ := h
    cases r with
    | ok cal => exact ⟨id, hmade, fun calendarId h => Except.ok.inj h ▸ hid cal rfl⟩
    | error message => exact ⟨id, hmade, nofun⟩
  · exact ⟨cal.id, Or.inl hnone, fun calendarId h => (Except.ok.inj h).symm⟩

/-- A tool of the simple mode, once its calendar is known. -/
theorem servesTool_resolve (userId : String) {f : String → ToolCall Json}
    (hmay : ∀ id, ask.Allows (.makeCalendar id)) (hactions : actionsOf hist = [])
    (hstop : ∀ message calendarId actions, MayHaveMade calendarId actions →
      Performs ask (.tool (.error message)) actions)
    (hf : ∀ calendarId hist', MayHaveMade calendarId (actionsOf hist') →
      ServesTool ask hist' (f calendarId)) :
    ServesTool ask hist (Simple.resolveCalendar userId >>= f) := by
  unfold ServesTool
  rw [ExceptT.run_bind]
  refine justified_bind (takes_resolveCalendar hmay hactions userId) fun hist₁ r h => ?_
  obtain ⟨id, hmade, hid⟩ := h
  cases r with
  | ok calendarId =>
    obtain rfl := hid calendarId rfl
    exact hf calendarId hist₁ hmade
  | error message => exact hstop message id _ hmade

theorem changes_made {actions : List StoreAction} (hmade : MayHaveMade calendarId actions)
    (rest : List StoreAction) : changes actions <+: changes ([.makeCalendar calendarId] ++ rest) := by
  obtain rfl | rfl := hmade
  · exact List.nil_prefix
  · exact changes_prefix (List.prefix_append _ _)

theorem servesTool_handleAdd (userId : String) (hactions : actionsOf hist = []) :
    ServesTool (handleAddAsk args) hist (Simple.handleAdd userId args) := by
  unfold Simple.handleAdd required handleAddAsk
  cases args.str? "title" with
  | none => exact servesTool_missing _ hactions
  | some title =>
    cases args.str? "start" with
    | none => exact servesTool_missing _ hactions
    | some start =>
      cases args.str? "end" with
      | none => exact servesTool_missing _ hactions
      | some stop =>
        have hne : ∀ calendarId' uid', Ask.addToFirst (eventText args title start stop) ≠
          .get calendarId' uid' := nofun
        have hdone : ∀ (made : List StoreAction) (calendarId uid now : String)
            (old : Option String), MayHaveMade calendarId made →
            Ask.Done (.addToFirst (eventText args title start stop))
              (.tool (.ok (.object [("uid", .string uid)])))
              (made ++ upserted calendarId uid (eventText args title start stop now uid) old
                (some "")) :=
          fun made calendarId uid now old hmade => .addToFirst _ _ made _ hmade now uid rfl old ""
        have hbroken : ∀ message calendarId actions, MayHaveMade calendarId actions →
            Performs (.addToFirst (eventText args title start stop)) (.tool (.error message))
              actions := fun message calendarId actions hmade =>
          .of_broken (hdone _ calendarId "" "" none (Or.inr rfl)) (changes_made hmade _)
            (error_not_succeeded message) id hne
        refine servesTool_resolve userId (fun id => ?_) hactions hbroken
          fun calendarId hist₁ hmade => ?_
        · exact (hdone _ id "" "" none (Or.inr rfl)).allows List.mem_cons_self
        · refine servesTool_bind ⟨trivial, fun _ => trivial⟩
            (fun message => hbroken message calendarId _ hmade) fun uid hist₂ h₂ => ?_
          refine servesTool_bind ⟨trivial, fun _ => trivial⟩
            (fun message => hbroken message calendarId _ (h₂ ▸ hmade)) fun now hist₃ h₃ => ?_
          refine servesTool_store (h₃.trans h₂) _ _ ?_ ?_ hne
          · intro obj isNew old huid
            refine .addToFirst _ _ _ calendarId hmade now uid ?_ old obj.icalData
            exact congrArg some huid
          · intro old
            exact ⟨_, hdone _ calendarId uid now old hmade⟩

theorem servesTool_handleDelete (userId : String) (hactions : actionsOf hist = []) :
    ServesTool (handleDeleteAsk args) hist (Simple.handleDelete userId args) := by
  unfold Simple.handleDelete required handleDeleteAsk
  cases args.str? "event_uid" with
  | none => exact servesTool_missing _ hactions
  | some eventUid =>
    have hne : ∀ calendarId' uid', Ask.removeFromFirst eventUid ≠ .get calendarId' uid' := nofun
    have hdone : ∀ calendarId, Ask.Done (.removeFromFirst eventUid) (.tool (.error ""))
        ([.makeCalendar calendarId] ++ [.remove calendarId eventUid]) :=
      fun calendarId => .removeFromFirst _ _ _ calendarId (Or.inr rfl)
    refine servesTool_resolve userId (fun id => (hdone id).allows List.mem_cons_self) hactions
      (fun message calendarId actions hmade => ?_) fun calendarId hist₁ hmade => ?_
    · exact .of_broken (hdone calendarId) (changes_made hmade _) (error_not_succeeded message) id
        hne
    · exact servesTool_remove rfl _ _
        (fun answer' => .removeFromFirst _ answer' _ calendarId hmade) hne

theorem servesTool_handleList (userId : String) (hactions : actionsOf hist = []) :
    ServesTool .first hist (Simple.handleList userId args) := by
  have hne : ∀ calendarId' uid', Ask.first ≠ .get calendarId' uid' := nofun
  have hperforms : ∀ (result : Except String Json) (calendarId : String)
      (actions : List StoreAction), MayHaveMade calendarId actions →
      Performs .first (.tool result) actions :=
    fun result calendarId actions hmade => .of_done (.first _ _ calendarId hmade) id hne
  refine servesTool_resolve userId (fun id => ?_) hactions
    (fun message calendarId actions hmade => hperforms _ calendarId actions hmade)
    fun calendarId hist₁ hmade => ?_
  · exact (Ask.Done.first (.tool (.error "")) _ id (Or.inr rfl)).allows List.mem_cons_self
  · have hsilent : (eventsOf calendarId args).run.Only Op.Silent :=
      only_eventsOf trivial fun _ _ => trivial
    refine servesTool_bind hsilent (fun message => hperforms _ calendarId _ hmade)
      fun objects hist₂ h₂ => ?_
    refine takes_ret (hperforms _ calendarId _ ?_)
    rw [h₂]
    exact hmade

/-! ## All tools -/

theorem still_shareCalendarTool (userId : String) (args : Json) :
    (shareCalendarTool userId args).run.Only Op.Still := by
  refine only_except_bind (only_required _ _) fun calendarId => ?_
  refine only_except_bind (only_required _ _) fun username => ?_
  refine only_except_bind (only_required _ _) fun permissionStr => ?_
  refine only_except_bind (only_orMissing _ _) fun permission => ?_
  refine only_except_bind (only_targetUser trivial) fun user => ?_
  exact only_except_bind (only_orFail (only_shareCalendar trivial (fun _ => trivial)
    (fun _ _ => trivial) calendarId user.id permission) _) fun _ => trivial

theorem still_unshareCalendarTool (userId : String) (args : Json) :
    (unshareCalendarTool userId args).run.Only Op.Still := by
  refine only_except_bind (only_required _ _) fun calendarId => ?_
  refine only_except_bind (only_required _ _) fun username => ?_
  refine only_except_bind (only_targetUser trivial) fun user => ?_
  exact only_except_bind (only_orFail (only_unshareCalendar (fun _ _ => trivial) calendarId user.id)
    _) fun _ => trivial

theorem servesTool_ite {c : Prop} [Decidable c] {ask' : Ask} {p q : ToolCall Json}
    (hp : ServesTool ask hist p) (hq : ServesTool ask' hist q) :
    ServesTool (if c then ask else ask') hist (if c then p else q) := by
  split
  · exact hp
  · exact hq

/-- **A tool does what it asks for.** -/
theorem performs_dispatch (userId toolName : String) (args : Json) (toolMode : String) :
    ServesTool (if toolMode = "simple" then simpleAsk toolName args else fullAsk toolName args) []
      (dispatch userId toolName args toolMode) := by
  have hreads : ∀ {p : ToolCall Json}, p.run.Only Op.Reads → ServesTool .nothing [] p :=
    fun hp => servesTool_nothing (hp.mono Op.Reads.still) rfl
  refine servesTool_ite ?_ ?_
  · exact servesTool_ite (servesTool_handleAdd userId rfl) <|
      servesTool_ite (servesTool_handleDelete userId rfl) <|
      servesTool_ite (servesTool_handleList userId rfl) (servesTool_missing _ rfl)
  · refine servesTool_ite (hreads (only_listCalendarsTool userId args)) <|
      servesTool_ite (hreads (only_getCalendarTool userId args)) <|
      servesTool_ite (servesTool_createCalendar userId rfl) <|
      servesTool_ite (servesTool_deleteCalendar userId rfl) <|
      servesTool_ite (servesTool_createEvent userId rfl) <|
      servesTool_ite (servesTool_getEvent userId rfl) <|
      servesTool_ite (servesTool_updateEvent userId rfl) <|
      servesTool_ite (servesTool_deleteEvent userId rfl) <|
      servesTool_nothing ?_ rfl
    refine only_toolIte (fun _ => (only_queryEvents userId args).mono Op.Reads.still) fun _ => ?_
    refine only_toolIte (fun _ => still_shareCalendarTool userId args) fun _ => ?_
    refine only_toolIte (fun _ => still_unshareCalendarTool userId args) fun _ => ?_
    exact only_toolIte (fun _ => (only_listSharedCalendarsTool userId args).mono Op.Reads.still)
      fun _ => trivial

end

end CaldavMcp
