/-
  What a user does on both ports stays with the user.

  In simple mode the tools of the MCP port work on the first calendar of the caller's, or make
  one. So a user's tool calls, like the user's CalDAV requests, see and touch nothing that others
  keep. `Caldav.Isolation` compares two servers that look the same to the user (`Alike`); here the
  requests come on both ports, in any order.

  `InStep` is `Alike` and what the tools need beside it. The text of an event holds the time, so
  the two clocks show the same. A default calendar takes a Uuid for its id, so no calendar has an
  id that is still to be drawn (`NewIds`). The clocks stay together because two alike runs have
  drawn the same number of values (`Alike.drawn_match`). `Spared` is carried along: what the first
  server held of others when it started, it still holds.
-/
import CaldavMcp.Caldav.Isolation
import CaldavMcp.Mcp.Mediation
import CaldavMcp.Filters

namespace CaldavMcp

open Program

/-! ## Two servers in step -/

/-- No calendar has an id that is still to be drawn. -/
def World.NewIds (env : Env) (w : World) : Prop :=
  ∀ n, env.uuid (w.drawn + n) ∉ w.db.calendarIds

/-- The accounts, and the calendars the user had no access to, are as they were. -/
structure Spared (userId : String) (w w' : World) : Prop where
  users : w'.db.users = w.db.users
  others : ∀ calendarId ∈ w.db.calendarIds, w.db.permissionOf calendarId userId = none →
    Tables.SameCalendar calendarId w.db.toTables w'.db.toTables

/-- Two servers that look the same to the user, draw the same Uuids and show the same time. The
    first one has started from `w₀`. -/
structure InStep (env env' : Env) (userId : String) (w₀ w w' : World) : Prop where
  alike : Alike env env' userId w w'
  clock : ∀ n, env.now (w.drawn + n) = env'.now (w'.drawn + n)
  new : w.NewIds env
  new' : w'.NewIds env'
  spared : Spared userId w₀ w

section

variable {env env' : Env} {userId calendarId : String} {w₀ w w' w₁ w₁' : World}

theorem Spared.refl (userId : String) (w : World) : Spared userId w w :=
  ⟨rfl, fun calendarId _ _ => .refl _ calendarId⟩

theorem Spared.trans (h : Spared userId w₀ w) (h' : Spared userId w w₁) : Spared userId w₀ w₁ := by
  refine ⟨h'.users.trans h.users, fun calendarId hc hp => ?_⟩
  have hsame := h.others calendarId hc hp
  rw [Tables.mem_calendarIds, ← hsame.row, ← Tables.mem_calendarIds] at hc
  exact hsame.trans (h'.others calendarId hc ((hsame.permissionOf userId).trans hp))

theorem Contained.spared (h : Contained userId w w₁) : Spared userId w w₁ :=
  ⟨h.users, fun calendarId _ hp => h.others calendarId hp⟩

theorem World.NewIds.draw (h : w.NewIds env) (n : Nat) : (w.draw n).NewIds env := by
  intro m
  rw [World.draw_drawn, Nat.add_assoc]
  exact h (n + m)

/-- A calendar that was not there and is none of the user's has not come to be. -/
theorem World.NewIds.contained (h : w.NewIds env) (hc : Contained userId w w₁)
    (hle : w.drawn ≤ w₁.drawn) : w₁.NewIds env := by
  intro n hmem
  obtain ⟨m, hm⟩ := Nat.exists_eq_add_of_le hle
  rw [hm, Nat.add_assoc] at hmem
  have hnew := h (m + n)
  have hnone : w.db.permissionOf (env.uuid (w.drawn + (m + n))) userId = none := by
    rw [← Option.not_isSome_iff_eq_none]
    exact mt w.db.ok.calendar_of_permission hnew
  rw [Tables.mem_calendarIds, (hc.others _ hnone).row, ← Tables.mem_calendarIds] at hmem
  exact hnew hmem

/-- Two alike runs have drawn the same number of values. -/
theorem Alike.drawn_match (hinj' : Function.Injective env'.uuid) (h : Alike env env' userId w w')
    (h₁ : Alike env env' userId w₁ w₁') (hle : w.drawn ≤ w₁.drawn) (hle' : w'.drawn ≤ w₁'.drawn) :
    ∃ n, w₁.drawn = w.drawn + n ∧ w₁'.drawn = w'.drawn + n := by
  obtain ⟨m, hm⟩ := Nat.exists_eq_add_of_le hle
  obtain ⟨m', hm'⟩ := Nat.exists_eq_add_of_le hle'
  have hdraw : env.uuid (w.drawn + m) = env'.uuid (w'.drawn + m') := by
    rw [← hm, ← hm']
    exact h₁.draws 0
  have hsame := hinj' ((h.draws m).symm.trans hdraw)
  refine ⟨m, hm, ?_⟩
  omega

theorem InStep.draw (h : InStep env env' userId w₀ w w') (n : Nat) :
    InStep env env' userId w₀ (w.draw n) (w'.draw n) := by
  refine ⟨h.alike.draw n, fun m => ?_, h.new.draw n, h.new'.draw n, ?_⟩
  · rw [World.draw_drawn, World.draw_drawn, Nat.add_assoc, Nat.add_assoc]
    exact h.clock (n + m)
  · exact ⟨h.spared.users, h.spared.others⟩

/-- An alike run that makes no calendar keeps the servers in step. -/
theorem InStep.runs {α : Type} {p : Action α} (hinj' : Function.Injective env'.uuid)
    (h : InStep env env' userId w₀ w w') (hp : AlikeRuns env env' userId p w w')
    (hc : Contained userId w (p.run (exec env) w).2)
    (hc' : Contained userId w' (p.run (exec env') w').2) :
    p.RunsAlike (exec env) (exec env') (InStep env env' userId w₀) w w' := by
  refine ⟨hp.answer, hp.after, fun n => ?_, h.new.contained hc (drawn_le_run ..),
    h.new'.contained hc' (drawn_le_run ..), h.spared.trans hc.spared⟩
  obtain ⟨m, hm, hm'⟩ := h.alike.drawn_match hinj' hp.after (drawn_le_run ..) (drawn_le_run ..)
  rw [hm, hm', Nat.add_assoc, Nat.add_assoc]
  exact h.clock (m + n)

/-- An alike run on a calendar of the user. -/
theorem InStep.runs_on {α : Type} {p : Action α} (hinj' : Function.Injective env'.uuid)
    (h : InStep env env' userId w₀ w w') (hp : AlikeRuns env env' userId p w w')
    (honly : p.Only (Op.On calendarId)) (hperm : (w.db.permissionOf calendarId userId).isSome) :
    p.RunsAlike (exec env) (exec env') (InStep env env' userId w₀) w w' :=
  h.runs hinj' hp (contained_on honly hperm)
    (contained_on honly (h.alike.agree.permissionOf calendarId ▸ hperm))

end

/-! ## The default calendar -/

section

variable {env env' : Env} {userId : String} {w₀ w w' : World} {r : Calendar}

theorem World.NewIds.insertCalendar (hinj : Function.Injective env.uuid) (h : w.NewIds env)
    (hid : r.id = env.uuid w.drawn) {n : Nat} (hn : 0 < n) :
    ((w.draw n).after (.insertCalendar r)).NewIds env := by
  intro m hmem
  rw [World.after_drawn, World.draw_drawn, Nat.add_assoc, World.after_tables] at hmem
  obtain ht | ht := (w.draw n).db.toTables.after_insertCalendar r
  · rw [ht] at hmem
    exact h (n + m) hmem
  · rw [ht, Tables.calendarIds, List.map_append] at hmem
    obtain hmem | hmem := List.mem_append.mp hmem
    · exact h (n + m) hmem
    · have := hinj ((List.mem_singleton.mp hmem).trans hid)
      omega

theorem spared_insertCalendar (hfree : r.id ∉ w.db.calendarIds) :
    Spared userId w (w.after (.insertCalendar r)) := by
  refine ⟨users_after (show (Sql.insertCalendar r).On r.id from rfl) _, fun calendarId hc _ => ?_⟩
  refine Tables.sameCalendar_after _ (show (Sql.insertCalendar r).On r.id from rfl) ?_
  rintro rfl
  exact hfree hc

theorem sql_after (env : Env) (s : Sql) (w : World) :
    ((sql s).run.run (exec env) w).2 = w.after s :=
  congrArg Prod.snd (Call.exec_sql env s w)

theorem answer_of_sql {s : Sql} {rows : s.Rows}
    (h : ((sql s).run.run (exec env) w).1 = .ok rows) : w.answer s = .ok rows := by
  have hrun : ((sql s).run.run (exec env) w).1 = _ := congrArg Prod.fst (Call.exec_sql env s w)
  rw [hrun] at h
  cases ha : w.answer s with
  | ok rows' =>
    rw [ha] at h
    exact congrArg Except.ok (Except.ok.inj h)
  | error e =>
    rw [ha] at h
    cases h

/-- A statement that is answered alike and keeps the servers in step. -/
theorem inStep_sql {s : Sql} (ha : w.answer s = w'.answer s)
    (hafter : InStep env env' userId w₀ (w.after s) (w'.after s)) :
    (sql s).run.RunsAlike (exec env) (exec env') (InStep env env' userId w₀) w w' := by
  refine .call ha ?_
  cases (exec env (.sql s) w).1 with
  | ok rows => exact .ret hafter _
  | error e => exact .ret hafter _

theorem inStep_nowV7 (h : InStep env env' userId w₀ w w') :
    nowV7.run.RunsAlike (exec env) (exec env') (InStep env env' userId w₀) w w' :=
  .call (h.alike.draws 0) (.ret (h.draw 1) _)

/-- A new calendar with an id that no calendar has. -/
theorem inStep_insertCalendar (hinj : Function.Injective env.uuid)
    (hinj' : Function.Injective env'.uuid) (h : InStep env env' userId w₀ w w')
    (hid : r.id = env.uuid w.drawn) :
    (w.draw 2).answer (.insertCalendar r) = (w'.draw 2).answer (.insertCalendar r) ∧
      InStep env env' userId w₀ ((w.draw 2).after (.insertCalendar r))
        ((w'.draw 2).after (.insertCalendar r)) := by
  have hid' : r.id = env'.uuid w'.drawn := hid.trans (h.alike.draws 0)
  have hfree : r.id ∉ (w.draw 2).db.calendarIds := hid ▸ h.new 0
  have hfree' : r.id ∉ (w'.draw 2).db.calendarIds := hid' ▸ h.new' 0
  have hdrawn := h.draw 2
  obtain ⟨ha, hagree⟩ := hdrawn.alike.agree.insertCalendar (w.draw 2).db.ok (w'.draw 2).db.ok
    hfree hfree'
  exact ⟨ha, ⟨hagree, hdrawn.alike.draws, hdrawn.alike.fresh.after nofun,
    hdrawn.alike.fresh'.after nofun⟩, hdrawn.clock, h.new.insertCalendar hinj hid two_pos,
    h.new'.insertCalendar hinj' hid' two_pos, hdrawn.spared.trans (spared_insertCalendar hfree)⟩

/-- **A calendar of the user's**: made in both servers, or in neither. -/
theorem inStep_createCalendar (hinj : Function.Injective env.uuid)
    (hinj' : Function.Injective env'.uuid) (h : InStep env env' userId w₀ w w')
    (name description color timezone : String) :
    (createCalendar userId name description color timezone).run.RunsAlike (exec env) (exec env')
      (InStep env env' userId w₀) w w' := by
  refine (inStep_nowV7 h).except_bind fun id hid => ?_
  obtain rfl := Except.ok.inj hid
  refine Prog.RunsAlike.except_bind (R := InStep env env' userId w₀)
    ((inStep_nowV7 (h.draw 1)).except_bind fun uuid _ => .ret (h.draw 2) _) fun token _ => ?_
  have hinserted := inStep_insertCalendar hinj hinj' h (r := ⟨env.uuid w.drawn, userId, name,
    description, color, timezone, token, token⟩) rfl
  refine (inStep_sql hinserted.1 hinserted.2).except_bind fun rows hrows => ?_
  have hon := hinserted.2.alike.agree.on (permissionOf_insertCalendar (answer_of_sql hrows))
  have hread : ((w.draw 2).after (.insertCalendar _)).answer
      (.selectCalendarById (env.uuid w.drawn)) = ((w'.draw 2).after (.insertCalendar _)).answer
      (.selectCalendarById (env.uuid w.drawn)) := congrArg Except.ok hon.row
  rw [sql_after, sql_after]
  refine (inStep_sql hread hinserted.2).except_bind fun found _ => ?_
  cases found with
  | some cal => exact .ret hinserted.2 _
  | none => exact .ret hinserted.2 _

end

/-! ## The tools of the simple mode -/

section

variable {env env' : Env} {userId calendarId : String} {args : Json} {w₀ w w' : World} {α β : Type}

theorem inStep_required {key : String} {f : String → ToolCall β}
    (h : InStep env env' userId w₀ w w') (hf : ∀ a,
      (f a).run.RunsAlike (exec env) (exec env') (InStep env env' userId w₀) w w') :
    (required args key >>= f).run.RunsAlike (exec env) (exec env') (InStep env env' userId w₀)
      w w' := by
  unfold required
  cases args.str? key with
  | some a => exact hf a
  | none => exact .ret h _

theorem inStep_orFail {message : String} {c : Call α}
    (hc : c.run.RunsAlike (exec env) (exec env') (InStep env env' userId w₀) w w') :
    (orFail message c).run.RunsAlike (exec env) (exec env') (InStep env env' userId w₀) w w' := by
  refine hc.bind ?_
  cases (c.run.run (exec env) w).1 with
  | ok a => exact .ret hc.after _
  | error e => exact .ret hc.after _

theorem inStep_resolveCalendar (hinj : Function.Injective env.uuid)
    (hinj' : Function.Injective env'.uuid) (h : InStep env env' userId w₀ w w') :
    (Simple.resolveCalendar userId).run.RunsAlike (exec env) (exec env')
      (InStep env env' userId w₀) w w' := by
  have hcals : w.answer (.selectCalendarsOfUser userId) = w'.answer (.selectCalendarsOfUser userId) :=
    congrArg Except.ok (h.alike.agree.calendarsFor w.db.ok w'.db.ok)
  refine (inStep_orFail (inStep_sql hcals h)).except_bind fun cals _ => ?_
  cases cals with
  | cons cal cals => exact .ret h _
  | nil =>
    have hcreate := inStep_createCalendar hinj hinj' h "Calendar" "" "#0E61B9" "UTC"
    exact (inStep_orFail hcreate).except_bind fun cal _ => .ret (inStep_orFail hcreate).after _

/-- The default calendar is one that the user may use. -/
theorem resolve_permitted
    (hok : ((Simple.resolveCalendar userId).run.run (exec env) w).1 = .ok calendarId) :
    (((Simple.resolveCalendar userId).run.run (exec env) w).2.db.permissionOf calendarId
      userId).isSome := by
  have hresolved := resolveCalendar_run env w userId
  generalize (Simple.resolveCalendar userId).run.run (exec env) w = out at hok hresolved ⊢
  cases hresolved with
  | found cal rest hcals =>
    obtain rfl := Except.ok.inj hok
    refine w.db.ok.mem_calendarsFor_ids.mp (List.mem_map.mpr ⟨cal, ?_, rfl⟩)
    rw [hcals]
    exact List.mem_cons_self
  | created r w' hcals hrow hfree ht hd =>
    obtain rfl := Except.ok.inj hok
    refine Tables.permissionOf_isSome.mpr (Or.inl (w'.db.ok.owns_iff.mpr ⟨r, ?_, rfl, ?_⟩))
    · rw [ht]
      exact List.mem_append_right _ List.mem_cons_self
    · rw [hrow]
  | failed e w' hcals ht hd => cases hok

theorem inStep_handleAdd (hinj : Function.Injective env.uuid)
    (hinj' : Function.Injective env'.uuid) (h : InStep env env' userId w₀ w w') :
    (Simple.handleAdd userId args).run.RunsAlike (exec env) (exec env')
      (InStep env env' userId w₀) w w' := by
  refine inStep_required h fun title => inStep_required h fun start => ?_
  refine inStep_required h fun stop => ?_
  have hresolve := inStep_resolveCalendar hinj hinj' h
  refine hresolve.except_bind fun calendarId hok => ?_
  have hperm := resolve_permitted hok
  have hafter := hresolve.after
  refine Prog.RunsAlike.except_bind (R := InStep env env' userId w₀)
    (.call (hafter.alike.draws 0) (.ret (hafter.draw 1) _)) fun uid _ => ?_
  refine Prog.RunsAlike.except_bind (R := InStep env env' userId w₀)
    (.call (hafter.clock 1) (.ret (hafter.draw 2) _)) fun now _ => ?_
  have hupsert := (hafter.draw 2).runs_on hinj'
    (alike_upsertObject hinj hinj' (hafter.draw 2).alike hperm uid
      (buildVevent now uid title start stop (args.str? "description") (args.str? "location")
        (args.str? "timezone")) (eventFields title start stop))
    (only_upsertObject trivial trivial trivial (fun _ _ => rfl) (fun _ => rfl) (fun _ _ => rfl)
      fun _ _ => rfl) hperm
  exact (inStep_orFail hupsert).except_bind fun r _ => .ret (inStep_orFail hupsert).after _

theorem inStep_handleDelete (hinj : Function.Injective env.uuid)
    (hinj' : Function.Injective env'.uuid) (h : InStep env env' userId w₀ w w') :
    (Simple.handleDelete userId args).run.RunsAlike (exec env) (exec env')
      (InStep env env' userId w₀) w w' := by
  refine inStep_required h fun eventUid => ?_
  have hresolve := inStep_resolveCalendar hinj hinj' h
  refine hresolve.except_bind fun calendarId hok => ?_
  have hperm := resolve_permitted hok
  have hdelete := hresolve.after.runs_on hinj'
    (alike_deleteObject hresolve.after.alike hperm eventUid)
    (only_deleteObject rfl trivial (fun _ => rfl) fun _ _ => rfl) hperm
  exact (inStep_orFail hdelete).except_bind fun _ _ => .ret (inStep_orFail hdelete).after _

theorem inStep_handleList (hinj : Function.Injective env.uuid)
    (hinj' : Function.Injective env'.uuid) (h : InStep env env' userId w₀ w w') :
    (Simple.handleList userId args).run.RunsAlike (exec env) (exec env')
      (InStep env env' userId w₀) w w' := by
  have hresolve := inStep_resolveCalendar hinj hinj' h
  refine hresolve.except_bind fun calendarId hok => ?_
  have hafter := hresolve.after
  have hrows := agree_queryRows (hafter.alike.agree.on (resolve_permitted hok)) (toolRange args)
  have hevents : (eventsOf calendarId args).run.RunsAlike (exec env) (exec env')
      (InStep env env' userId w₀) ((Simple.resolveCalendar userId).run.run (exec env) w).2
      ((Simple.resolveCalendar userId).run.run (exec env') w').2 := by
    constructor
    · rw [eventsOf_run, eventsOf_run, hrows]
    · rw [eventsOf_run, eventsOf_run]
      exact hafter
  exact hevents.except_bind fun objects _ => .ret hevents.after _

/-- **One tool call** in simple mode. -/
theorem inStep_dispatch (hinj : Function.Injective env.uuid)
    (hinj' : Function.Injective env'.uuid) (h : InStep env env' userId w₀ w w')
    (toolName : String) :
    (dispatch userId toolName args "simple").run.RunsAlike (exec env) (exec env')
      (InStep env env' userId w₀) w w' := by
  show (Simple.dispatch userId toolName args).run.RunsAlike _ _ _ w w'
  unfold Simple.dispatch
  split
  · exact inStep_handleAdd hinj hinj' h
  · split
    · exact inStep_handleDelete hinj hinj' h
    · split
      · exact inStep_handleList hinj hinj' h
      · exact .ret h _

end

/-! ## Any requests, on both ports -/

/-- Requests of the server, one after the other. -/
def serveAll (lib : Lib) : List ServerRequest → Action (List ServerAnswer)
  | [] => return []
  | request :: rest => do
    let answer ← request.program lib
    return answer :: (← serveAll lib rest)

/-- A request of the user: one of theirs on the CalDAV port, or a tool call in simple mode. -/
def ServerRequest.OfUser (env : Env) (lib : Lib) (w : World) (user : User) : ServerRequest → Prop
  | .dav route request => CaldavMcp.OfUser env lib w user (route, request)
  | .tool userId _ _ toolMode => userId = user.id ∧ toolMode = "simple"
  | .cmdCreateUser .. | .cmdResetPassword .. => False

section

variable {env env' : Env} {lib : Lib} {w₀ w w' : World} {user : User}

/-- The same accounts: the request is served for nobody else there either. -/
theorem NobodyElse.congr {route : Route} {request : Request} {w₁ : World}
    (husers : w₁.db.users = w.db.users) (h : NobodyElse env lib w route request user) :
    NobodyElse env' lib w₁ route request user := by
  intro other hother
  refine h other ?_
  unfold Resolves at hother ⊢
  rw [reads_env ((only_routeUser route request).mono Op.LooksUpUser.reads) env' env] at hother
  exact (routeUser_congr husers.symm).trans hother

/-- **One request**, on either port. -/
theorem inStep_program (hinj : Function.Injective env.uuid) (hinj' : Function.Injective env'.uuid)
    (h : InStep env env' user.id w₀ w w') {request : ServerRequest}
    (hrequest : request.OfUser env lib w₀ user) :
    (request.program lib).RunsAlike (exec env) (exec env') (InStep env env' user.id w₀) w w' := by
  cases request with
  | dav route request =>
    obtain ⟨hm, hres⟩ := hrequest
    have hres₁ : NobodyElse env lib w route request user := hres.congr h.spared.users
    have hres₁' : NobodyElse env' lib w' route request user := hres₁.congr h.alike.agree.users.symm
    exact (h.runs hinj' (alike_handle hinj hinj' h.alike hm hres₁) (contained_handle hm hres₁)
      (contained_handle hm hres₁')).map ServerAnswer.dav
  | tool userId toolName args toolMode =>
    obtain ⟨rfl, rfl⟩ := hrequest
    exact (inStep_dispatch hinj hinj' h toolName).map ServerAnswer.tool
  | cmdCreateUser | cmdResetPassword => exact hrequest.elim

theorem inStep_serveAll (hinj : Function.Injective env.uuid)
    (hinj' : Function.Injective env'.uuid) {requests : List ServerRequest}
    (h : InStep env env' user.id w₀ w w')
    (hrequests : ∀ request ∈ requests, request.OfUser env lib w₀ user) :
    (serveAll lib requests).RunsAlike (exec env) (exec env') (InStep env env' user.id w₀) w w' := by
  induction requests generalizing w w' with
  | nil => exact .ret h _
  | cons request rest ih =>
    have hfirst := inStep_program hinj hinj' h (hrequests request List.mem_cons_self)
    have hrest := ih hfirst.after fun request' hmem =>
      hrequests request' (List.mem_cons_of_mem _ hmem)
    exact hfirst.bind (hrest.map _)

/-- **Isolation on both ports.** Two reachable servers look the same to a user, as in
    `requests_isolated`; they show the same time, and no calendar has an id still to be drawn.
    Any CalDAV requests of the user but MKCALENDAR, and any tool calls of the user in simple
    mode, in any order, are answered the same by both and leave them the same for the user. The
    accounts and the calendars that the user had no access to stay as they are. -/
theorem both_ports_isolated (env env' : Env) (lib : Lib) (hinj : Function.Injective env.uuid)
    (hinj' : Function.Injective env'.uuid) (w w' : World) (hw : Reachable env lib w)
    (hw' : Reachable env' lib w') (user : User) (requests : List ServerRequest)
    (hrequests : ∀ request ∈ requests, request.OfUser env lib w user)
    (hdraws : ∀ n, env.uuid (w.drawn + n) = env'.uuid (w'.drawn + n))
    (hclock : ∀ n, env.now (w.drawn + n) = env'.now (w'.drawn + n))
    (hnew : w.NewIds env) (hnew' : w'.NewIds env')
    (hagree : w.db.Agree user.id w'.db.toTables) :
    ((serveAll lib requests).run (exec env) w).1 =
        ((serveAll lib requests).run (exec env') w').1 ∧
      ((serveAll lib requests).run (exec env) w).2.db.Agree user.id
        ((serveAll lib requests).run (exec env') w').2.db.toTables ∧
      Spared user.id w ((serveAll lib requests).run (exec env) w).2 := by
  have halike : Alike env env' user.id w w' :=
    ⟨hagree, hdraws, hw.fresh hinj, hw'.fresh hinj'⟩
  have hrun := inStep_serveAll hinj hinj' ⟨halike, hclock, hnew, hnew', .refl _ w⟩ hrequests
  exact ⟨hrun.answer, hrun.after.alike.agree, hrun.after.spared⟩

end

/-- Alice's requests of before, and tool calls between them. -/
def alicesDay : List ServerRequest :=
  .tool alice.id "add_event" lunchArgs "simple" ::
    (alicesRequests.map (fun q => ServerRequest.dav q.1 q.2) ++
      [.tool alice.id "list_events" (.object []) "simple"])

/-- The Uuids of the counting kind have one letter, which these calendars' names have not. -/
theorem newIds_counting {w : World} (h : ∀ id ∈ w.db.calendarIds, id = "work" ∨ id = "home") :
    w.NewIds countingEnv := by
  have hletters : ∀ n, ∀ c ∈ (countingEnv.uuid n).toList, c = 'a' := by
    intro n c hc
    unfold countingEnv at hc
    rw [String.toList_ofList] at hc
    exact List.eq_of_mem_replicate hc
  intro n hmem
  obtain hid | hid := h _ hmem
  · have hletter : 'w' = 'a' := hletters (w.drawn + n) 'w' (by rw [hid]; simp)
    exact absurd hletter (by decide)
  · have hletter : 'h' = 'a' := hletters (w.drawn + n) 'h' (by rw [hid]; simp)
    exact absurd hletter (by decide)

theorem both_ports_isolated_alice :
    ((serveAll sampleLib alicesDay).run (exec countingEnv) (neighboursWorld.draw 1)).1 =
      ((serveAll sampleLib alicesDay).run (exec countingEnv) bobsHomeWorld).1 := by
  refine (both_ports_isolated countingEnv countingEnv sampleLib countingEnv_uuid_injective
    countingEnv_uuid_injective (neighboursWorld.draw 1) bobsHomeWorld
    (.draw 1 neighboursWorld_reachable) bobsHomeWorld_reachable alice alicesDay ?_
    (fun _ => rfl) (fun _ => rfl) (newIds_counting (by decide +kernel))
    (newIds_counting (by decide +kernel)) alice_agrees).1
  intro request hrequest
  obtain rfl | hrequest := List.mem_cons.mp hrequest
  · exact ⟨rfl, rfl⟩
  · obtain hrequest | hrequest := List.mem_append.mp hrequest
    · obtain ⟨q, hq, rfl⟩ := List.mem_map.mp hrequest
      exact alicesRequests_ofUser q hq
    · obtain rfl := List.mem_singleton.mp hrequest
      exact ⟨rfl, rfl⟩

end CaldavMcp
