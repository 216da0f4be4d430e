/-
  One user cannot see another's calendars.

  Two servers that differ only in what a user has no access to (`Alike`) are one server to that
  user: any sequence of the user's requests, by whichever route, is answered the same by both
  (`requests_isolated`). And in each of them the calendars of others stay as they are.

  The user's access is checked before anything else is read (`collectionFor_run`,
  `objectFor_run`), so a method handler runs on a calendar on which the two servers agree. Each
  handler then answers by what they agree on. For a sync-collection that takes an argument: the
  numbers in the log differ, and the entries behind a token are found by them
  (`changesSince_unnumbered`).

  MKCALENDAR is left out: it asks whether anybody has a calendar with that id.
-/
import CaldavMcp.Db.Agreement
import CaldavMcp.Caldav.Documents
import CaldavMcp.Caldav.Mediation
import CaldavMcp.Caldav.Homes
import CaldavMcp.Caldav.Hrefs

namespace CaldavMcp

open Program

/-! ## The entries behind a token -/

/-- In a log in order, the entries with a greater number are those that stand behind. -/
theorem filter_after {log : List SyncChange} (hlog : log.Pairwise fun e e' => e.id < e'.id)
    {token : String} {anchor : SyncChange} (h : log.find? (·.syncToken = token) = some anchor) :
    log.filter (·.id > anchor.id) = (log.dropWhile (·.syncToken ≠ token)).tail := by
  induction log with
  | nil => cases h
  | cons e log ih =>
    obtain ⟨hfirst, hrest⟩ := List.pairwise_cons.mp hlog
    by_cases ht : e.syncToken = token
    · rw [List.find?_cons_of_pos (by simpa using ht)] at h
      obtain rfl := Option.some.inj h
      rw [List.dropWhile_cons_of_neg (by simpa using ht), List.tail_cons,
        List.filter_cons_of_neg (by simp)]
      exact List.filter_eq_self.mpr fun e' he' => decide_eq_true (hfirst e' he')
    · rw [List.find?_cons_of_neg (by simpa using ht)] at h
      have hlt := hfirst anchor (List.mem_of_find?_eq_some h)
      rw [List.dropWhile_cons_of_pos (by simpa using ht),
        List.filter_cons_of_neg (by simpa using Nat.le_of_lt hlt)]
      exact ih hrest h

/-- What stands behind a token in a log without numbers; all of it when the token is not there. -/
def behind (token : String) (log : List (String × ChangeType × String)) :
    List (String × ChangeType × String) :=
  if (log.find? (·.2.2 = token)).isSome then (log.dropWhile (·.2.2 ≠ token)).tail else log

theorem changesSince_unnumbered {t : Tables} (hok : t.Ok) (calendarId token : String) :
    (changesSince t calendarId token).map (·.unnumbered) =
      behind token ((t.changesOf calendarId).map (·.unnumbered)) := by
  have hlog : (t.changesOf calendarId).Pairwise fun e e' => e.id < e'.id :=
    hok.changeOrder.filter _
  unfold changesSince behind
  rw [List.find?_map, Option.isSome_map]
  have hsame : ((fun e : String × ChangeType × String => decide (e.2.2 = token)) ∘
      SyncChange.unnumbered) = fun e => decide (e.syncToken = token) := rfl
  rw [hsame]
  cases h : (t.changesOf calendarId).find? (·.syncToken = token) with
  | none => rfl
  | some anchor =>
    show List.map _ (List.filter _ _) = (List.dropWhile _ (List.map _ _)).tail
    rw [filter_after hlog h, List.map_tail, List.dropWhile_map]
    rfl

section

variable {env env' : Env} {lib : Lib} {t t' : Tables} {w w' : World} {user : User}
  {calendarId filename : String} {request : Request}

/-! ## What the reports read -/

theorem agree_queryRows (h : Tables.AgreeOn calendarId t t')
    (timeRange : Option (String × String)) :
    queryRows t calendarId timeRange = queryRows t' calendarId timeRange := by
  unfold queryRows
  rw [h.objects]

theorem agree_multigetRows (h : Tables.AgreeOn calendarId t t') (uids : List String) :
    multigetRows t calendarId uids = multigetRows t' calendarId uids := by
  unfold multigetRows
  rw [h.objects]

/-- An entry of a delta does not show the number of its change. -/
theorem agree_delta (h : Tables.AgreeOn calendarId t t') (hok : t.Ok) (hok' : t'.Ok)
    (ctx : HrefContext) (includeData : Bool) (token : String) :
    (changesSince t calendarId token).filterMap (deltaEntry ctx calendarId includeData t) =
      (changesSince t' calendarId token).filterMap (deltaEntry ctx calendarId includeData t') := by
  have hentry : ∀ (t : Tables) (l : List SyncChange),
      l.filterMap (deltaEntry ctx calendarId includeData t) =
        (l.map (·.unnumbered)).filterMap fun e =>
          deltaEntry ctx calendarId includeData t ⟨0, calendarId, e.1, e.2.1, e.2.2⟩ := by
    intro t l
    rw [List.filterMap_map]
    rfl
  have hsame : ∀ e : String × ChangeType × String,
      deltaEntry ctx calendarId includeData t ⟨0, calendarId, e.1, e.2.1, e.2.2⟩ =
        deltaEntry ctx calendarId includeData t' ⟨0, calendarId, e.1, e.2.1, e.2.2⟩ := by
    intro e
    unfold deltaEntry
    dsimp only
    rw [h.objectByUid]
  rw [hentry, hentry, changesSince_unnumbered hok, changesSince_unnumbered hok', h.log]
  exact List.filterMap_congr fun e _ => hsame e

theorem agree_syncEntries (h : Tables.AgreeOn calendarId t t') (hok : t.Ok) (hok' : t'.Ok)
    (ctx : HrefContext) (includeData : Bool) (token : String) :
    syncEntries ctx calendarId includeData t (fun _ => false) token =
      syncEntries ctx calendarId includeData t' (fun _ => false) token := by
  rw [syncEntries_never, syncEntries_never, h.objects, agree_delta h hok hok']

/-! ## The handlers -/

theorem agree_reportHandler (h : Tables.AgreeOn calendarId w.db.toTables w'.db.toTables)
    (ctx : HrefContext) (report : ReportRequest) :
    ((reportHandler ctx calendarId report).run (exec env) w).1 =
      ((reportHandler ctx calendarId report).run (exec env) w').1 := by
  rw [run_never, run_never]
  cases report with
  | calendarMultiget props hrefs =>
    refine (handleMultiget_failing ctx calendarId hrefs).trans
      (Eq.trans ?_ (handleMultiget_failing ctx calendarId hrefs).symm)
    rw [agree_multigetRows h]
  | calendarQuery props timeRange =>
    refine (handleQuery_failing ctx calendarId timeRange).trans
      (Eq.trans ?_ (handleQuery_failing ctx calendarId timeRange).symm)
    rw [agree_queryRows h]
  | syncCollection props token =>
    cases hr : w.db.calendarById calendarId with
    | none =>
      exact (handleSync_lost ctx props token (Or.inr hr)).trans
        (handleSync_lost ctx props token (Or.inr (h.row ▸ hr))).symm
    | some r =>
      refine (handleSync_failing ctx props token Bool.false_ne_true hr).trans
        (Eq.trans ?_ (handleSync_failing ctx props token Bool.false_ne_true (h.row ▸ hr)).symm)
      rw [agree_syncEntries h w.db.ok w'.db.ok]

theorem agree_handleReport (h : Tables.AgreeOn calendarId w.db.toTables w'.db.toTables)
    (hrefCtx : Option HrefContext) (request : Request) :
    ((handleReport lib user hrefCtx calendarId request).run (exec env) w).1 =
      ((handleReport lib user hrefCtx calendarId request).run (exec env) w').1 := by
  cases hreport : parseReport lib (request.bodyUpTo (256 * 1024)) with
  | none =>
    unfold handleReport
    rw [hreport]
    rfl
  | some report =>
    rw [handleReport_eq hreport, run_bind, run_bind, agree_reportHandler h]
    rfl

theorem agree_handlePropfindCalendar (h : Tables.AgreeOn calendarId w.db.toTables w'.db.toTables)
    (hrefCtx : Option HrefContext) (request : Request) :
    ((handlePropfindCalendar lib user hrefCtx calendarId request).run (exec env) w).1 =
      ((handlePropfindCalendar lib user hrefCtx calendarId request).run (exec env) w').1 := by
  rw [run_never, run_never]
  cases hr : w.db.calendarById calendarId with
  | none =>
    exact (handlePropfindCalendar_lost user hrefCtx request (Or.inr hr)).trans
      (handlePropfindCalendar_lost user hrefCtx request (Or.inr (h.row ▸ hr))).symm
  | some r =>
    refine (handlePropfindCalendar_failing user hrefCtx request Bool.false_ne_true hr).trans
      (Eq.trans ?_ (handlePropfindCalendar_failing user hrefCtx request Bool.false_ne_true
        (h.row ▸ hr)).symm)
    rw [Tables.calendarById_id hr, h.objects]

theorem agree_home (h : w.db.Agree user.id w'.db.toTables) (request : Request) :
    ((handlePropfindHome lib user request).run (exec env) w).1 =
      ((handlePropfindHome lib user request).run (exec env) w').1 := by
  rw [run_never, run_never]
  refine (handlePropfindHome_failing user request).trans
    (Eq.trans ?_ (handlePropfindHome_failing user request).symm)
  rw [h.calendarsFor w.db.ok w'.db.ok]

theorem agree_emailHome (h : w.db.Agree user.id w'.db.toTables) (requestPath : String)
    (depth : Nat) (email : String) (propfind : PropfindRequest) :
    ((handleEmailHome user requestPath depth email propfind).run (exec env) w).1 =
      ((handleEmailHome user requestPath depth email propfind).run (exec env) w').1 := by
  rw [run_never, run_never]
  refine (handleEmailHome_failing user requestPath depth email propfind).trans
    (Eq.trans ?_ (handleEmailHome_failing user requestPath depth email propfind).symm)
  rw [h.calendarsFor w.db.ok w'.db.ok]

/-- Programs that look up objects of a calendar, on which two states agree. -/
theorem uniform_lookUpObjects {α : Type} {p : Action α}
    (hp : p.Only fun o => ∃ uid, o = .sql (.selectObjectByUid calendarId uid)) :
    p.Uniform (exec env) fun w w' => Tables.AgreeOn calendarId w.db.toTables w'.db.toTables := by
  refine uniform_of_only (fun o w w' ho h => ?_) hp
  obtain ⟨uid, rfl⟩ := ho
  exact ⟨congrArg Except.ok (h.objectByUid uid), h⟩

theorem alike_handleGet (h : Alike env env' user.id w w')
    (hp : (w.db.permissionOf calendarId user.id).isSome) :
    AlikeRuns env env' user.id (handleGet calendarId filename) w w' := by
  have honly : (handleGet calendarId filename).Only
      fun o => ∃ uid, o = .sql (.selectObjectByUid calendarId uid) := by
    refine only_bind (only_sql ⟨_, rfl⟩) fun r => ?_
    rcases r with e | (_ | o) <;> exact trivial
  exact alikeRuns_reads h (only_handleGet calendarId filename)
    (uniform_lookUpObjects honly w w' (h.agree.on hp)).1

theorem alike_handlePut (hinj : Function.Injective env.uuid)
    (hinj' : Function.Injective env'.uuid) (h : Alike env env' user.id w w')
    (hp : (w.db.permissionOf calendarId user.id).isSome) :
    AlikeRuns env env' user.id (handlePut calendarId filename request) w w' := by
  have honly : ∀ uid, (checkIfMatch (request.header? "if-match") calendarId uid).Only
      fun o => ∃ uid, o = .sql (.selectObjectByUid calendarId uid) := by
    intro uid
    unfold checkIfMatch
    cases request.header? "if-match" with
    | none => exact trivial
    | some expectedEtag =>
      dsimp only
      split
      · exact trivial
      · refine only_bind (only_sql ⟨_, rfl⟩) fun r => ?_
        rcases r with e | (_ | existing)
        · exact trivial
        · exact trivial
        · dsimp only
          split <;> exact trivial
  unfold handlePut
  split
  · cases String.fromUTF8? request.body with
    | none => exact Prog.RunsAlike.ret h _
    | some icalData =>
      have hcheck := alikeRuns_reads h (only_matchCheck _ calendarId (putUid filename icalData))
        (uniform_lookUpObjects (honly _) w w' (h.agree.on hp)).1
      refine hcheck.bind ?_
      rw [run_reads (only_matchCheck ..), run_reads (only_matchCheck ..)]
      split
      · exact Prog.RunsAlike.ret h _
      · exact (alike_upsertObject hinj hinj' h hp ..).map putReply
  · exact Prog.RunsAlike.ret h _

theorem alike_handleProppatch (h : Alike env env' user.id w w')
    (hp : (w.db.permissionOf calendarId user.id).isSome) (hrefCtx : Option HrefContext) :
    AlikeRuns env env' user.id (handleProppatch lib user hrefCtx calendarId request) w w' := by
  have hon := h.agree.on hp
  obtain ⟨r, hr⟩ := Option.isSome_iff_exists.mp
    (Tables.mem_calendarIds.mp (w.db.ok.calendar_of_permission hp))
  have hr' := hon.row ▸ hr
  constructor
  · rw [handleProppatch_run env lib user hrefCtx request hr,
      handleProppatch_run env' lib user hrefCtx request hr']
  · rw [handleProppatch_run env lib user hrefCtx request hr,
      handleProppatch_run env' lib user hrefCtx request hr']
    exact h.edit _ (Tables.calendarById_id hr) nofun (hon.updateCalendar ..)

theorem alike_handleDeleteCalendar (h : Alike env env' user.id w w')
    (hp : (w.db.permissionOf calendarId user.id).isSome) :
    AlikeRuns env env' user.id (handleDeleteCalendar calendarId) w w' := by
  have hc := w.db.ok.calendar_of_permission hp
  have hc' := (h.agree.on hp).mem_calendarIds.mp hc
  constructor
  · rw [handleDeleteCalendar_run, handleDeleteCalendar_run, deleteCalendar_exec,
      deleteCalendar_exec, if_pos hc, if_pos hc']
  · rw [handleDeleteCalendar_run, handleDeleteCalendar_run]
    exact ⟨h.agree.deleteCalendar calendarId, h.draws, h.fresh.after nofun, h.fresh'.after nofun⟩

/-! ## One calendar, one object -/

theorem alike_objectFor (hinj : Function.Injective env.uuid)
    (hinj' : Function.Injective env'.uuid) (h : Alike env env' user.id w w') :
    AlikeRuns env env' user.id (objectFor user calendarId filename request) w w' := by
  have hmethods : (w.db.permissionOf calendarId user.id).isSome →
      AlikeRuns env env' user.id (objectMethods calendarId filename request) w w' := by
    intro hp
    unfold objectMethods
    split
    · exact alike_handleGet h hp
    · split
      · exact alike_handlePut hinj hinj' h hp
      · split
        · exact (alike_deleteObject h hp _).map _
        · exact Prog.RunsAlike.ret h _
  have hrun := @objectFor_run env w request user calendarId filename
  have hrun' := @objectFor_run env' w' request user calendarId filename
  rw [← h.agree.permissionOf] at hrun'
  by_cases hp : (w.db.permissionOf calendarId user.id).isSome
  · rw [if_pos hp] at hrun hrun'
    exact ⟨by rw [hrun, hrun', (hmethods hp).answer], by rw [hrun, hrun']; exact (hmethods hp).after⟩
  · rw [if_neg hp] at hrun hrun'
    exact ⟨by rw [hrun, hrun'], by rw [hrun, hrun']; exact h⟩

theorem alike_collectionFor (h : Alike env env' user.id w w')
    (hm : request.method ≠ "MKCALENDAR") (hrefCtx : Option HrefContext) (username : String) :
    AlikeRuns env env' user.id
      (collectionFor lib user hrefCtx username calendarId request) w w' := by
  have hmethods : (w.db.permissionOf calendarId user.id).isSome → AlikeRuns env env' user.id
      (collectionMethods lib user hrefCtx username calendarId request) w w' := by
    intro hp
    have hon := h.agree.on hp
    unfold collectionMethods
    split
    · exact alikeRuns_reads h (only_handlePropfindCalendar ..) (agree_handlePropfindCalendar hon ..)
    · split
      · exact alikeRuns_reads h (only_handleReport ..) (agree_handleReport hon ..)
      · split
        · exact alike_handleProppatch h hp hrefCtx
        · split
          · exact alike_handleDeleteCalendar h hp
          · exact Prog.RunsAlike.ret h _
  have hrun := @collectionFor_run env lib w request user hrefCtx username calendarId hm
  have hrun' := @collectionFor_run env' lib w' request user hrefCtx username calendarId hm
  rw [← h.agree.permissionOf] at hrun'
  by_cases hp : (w.db.permissionOf calendarId user.id).isSome
  · rw [if_pos hp] at hrun hrun'
    exact ⟨by rw [hrun, hrun', (hmethods hp).answer], by rw [hrun, hrun']; exact (hmethods hp).after⟩
  · rw [if_neg hp] at hrun hrun'
    exact ⟨by rw [hrun, hrun'], by rw [hrun, hrun']; exact h⟩

end

/-! ## The routes -/

section

variable {env env' : Env} {lib : Lib} {w w' : World} {user : User} {route : Route}
  {request : Request}

/-- The request is served for nobody else. -/
def NobodyElse (env : Env) (lib : Lib) (w : World) (route : Route) (request : Request)
    (user : User) : Prop :=
  ∀ other, Resolves env lib w route request other → other = user

theorem alike_lookUps {α : Type} {p : Action α} (h : Alike env env' user.id w w')
    (hp : p.Only Op.LooksUpUser) : AlikeRuns env env' user.id p w w' :=
  alikeRuns_reads h (hp.mono Op.LooksUpUser.reads) (uniform_lookUps hp w w' h.agree.users).1

/-- The discovery paths show who asks, and nothing of any calendar. -/
theorem only_discovery_lookUps (href : String) (other : Reply) :
    (if request.method = "OPTIONS" then return handleOptions
      else if request.method = "PROPFIND" then discoveryAnswer lib href request
      else return other : Action Reply).Only Op.LooksUpUser := by
  split
  · exact trivial
  · split
    · refine only_bind (only_inlineAuth _) fun found => ?_
      cases found <;> exact trivial
    · exact trivial

theorem alike_emailDiscovery {email : String} (h : Alike env env' user.id w w')
    (hres : NobodyElse env lib w (.emailHome email) request user) :
    AlikeRuns env env' user.id (handleCaldavEmailDiscovery lib email request) w w' := by
  have hhome : ∀ requestPath depth propfind, AlikeRuns env env' user.id
      (handleEmailHome user requestPath depth email propfind) w w' := fun requestPath depth propfind =>
    alikeRuns_reads h (only_handleEmailHome user requestPath depth email propfind)
      (agree_emailHome h.agree ..)
  unfold NobodyElse Resolves routeUser authOrEmailUser authOr at hres
  unfold handleCaldavEmailDiscovery
  split
  · exact Prog.RunsAlike.ret h _
  · split
    · dsimp only
      cases hauth : request.authHeader with
      | some header =>
        rw [hauth] at hres
        have hfound := alike_lookUps h (@only_tryBasicAuth lib header)
        refine hfound.bind ?_
        rw [run_reads ((only_tryBasicAuth header).mono Op.LooksUpUser.reads),
          run_reads ((only_tryBasicAuth header).mono Op.LooksUpUser.reads)]
        cases hr : ((tryBasicAuth lib header).run (exec env) w).1 with
        | none => exact Prog.RunsAlike.ret h _
        | some other =>
          obtain rfl := hres other hr
          exact hhome ..
      | none =>
        rw [hauth] at hres
        have hlookup : (getUserByEmail email).run.Only Op.LooksUpUser := only_sql trivial
        have hfound := alike_lookUps h hlookup
        refine hfound.bind ?_
        rw [run_reads (hlookup.mono Op.LooksUpUser.reads),
          run_reads (hlookup.mono Op.LooksUpUser.reads)]
        cases hr : ((getUserByEmail email).run.run (exec env) w).1 with
        | error e => exact Prog.RunsAlike.ret h _
        | ok found =>
          cases found with
          | none => exact Prog.RunsAlike.ret h _
          | some other =>
            dsimp only at hres
            obtain rfl := hres other (by rw [run_bind, hr]; rfl)
            exact (hhome ..).map _
    · exact Prog.RunsAlike.ret h _

/-- **One request of the user.** -/
theorem alike_handle (hinj : Function.Injective env.uuid) (hinj' : Function.Injective env'.uuid)
    (h : Alike env env' user.id w w') (hm : request.method ≠ "MKCALENDAR")
    (hres : NobodyElse env lib w route request user) :
    AlikeRuns env env' user.id (handle lib route request) w w' := by
  by_cases hr : route.NeedsUser
  · rw [handle_eq_withUser hr]
    unfold withUser
    split
    · exact Prog.RunsAlike.ret h _
    · have hauth := @only_routeUser lib route request
      refine (alike_lookUps h hauth).bind ?_
      rw [run_reads (hauth.mono Op.LooksUpUser.reads), run_reads (hauth.mono Op.LooksUpUser.reads)]
      cases hfound : ((routeUser lib route request).run (exec env) w).1 with
      | none => exact Prog.RunsAlike.ret h _
      | some other =>
        obtain rfl := hres other hfound
        cases route with
        | emailCollection | calendarCollection => exact alike_collectionFor h hm _ _
        | emailObject | object => exact alike_objectFor hinj hinj' h
        | calendarHome username =>
          exact alikeRuns_reads h (only_serve_home lib request other username) (by
            show ((if request.method = "PROPFIND" then handlePropfindHome lib other request
              else return methodNotAllowed : Action Reply).run (exec env) w).1 = ((if
                request.method = "PROPFIND" then handlePropfindHome lib other request
              else return methodNotAllowed : Action Reply).run (exec env) w').1
            split
            · exact agree_home h.agree request
            · rfl)
        | _ => exact hr.elim
  · cases route with
    | wellKnown | principal => exact Prog.RunsAlike.ret h _
    | serverRoot | caldavRoot | fallback => exact alike_lookUps h (only_discovery_lookUps ..)
    | emailHome email => exact alike_emailDiscovery h hres
    | _ => exact absurd trivial hr

/-! ## The calendars of others -/

/-- What the user has no access to is as it was, and so are the accounts. -/
structure Contained (userId : String) (w w' : World) : Prop where
  users : w'.db.users = w.db.users
  others : ∀ calendarId, w.db.permissionOf calendarId userId = none →
    Tables.SameCalendar calendarId w.db.toTables w'.db.toTables

theorem Contained.refl (userId : String) (w : World) : Contained userId w w :=
  ⟨rfl, fun calendarId _ => .refl _ calendarId⟩

theorem Contained.trans {userId : String} {w w' w'' : World} (h : Contained userId w w')
    (h' : Contained userId w' w'') : Contained userId w w'' := by
  refine ⟨h'.users.trans h.users, fun calendarId hp => ?_⟩
  have hsame := h.others calendarId hp
  exact hsame.trans (h'.others calendarId ((hsame.permissionOf userId).trans hp))

theorem MayWrite.on {calendarId : String} {filename? : Option String} {s : Sql}
    (h : MayWrite request user calendarId filename? s) : s.On calendarId := by
  cases h with
  | put filename icalData s hm hbody hs =>
    cases s with
    | insertObject | updateObject | insertChange => exact hs.1
    | updateCtag => exact hs
    | _ => exact hs.elim
  | deleteObject filename s hm hs =>
    cases s with
    | deleteObject | insertChange => exact hs.1
    | updateCtag => exact hs
    | _ => exact hs.elim
  | deleteCalendar | proppatch => rfl
  | mkcalendar cal hm hid howner => exact hid

theorem users_after {s : Sql} {calendarId : String} (hs : s.On calendarId) (t : Tables) :
    (t.after s).users = t.users := by
  cases s with
  | insertUser | updatePassword => exact hs.elim
  | insertObject | insertCalendar | insertChange | upsertShare =>
    unfold Tables.after
    simp only [Tables.exec]
    split_ifs <;> rfl
  | _ => rfl

/-- A program on one calendar of the user. -/
theorem contained_on {α : Type} {p : Action α} {calendarId userId : String}
    (hp : p.Only (Op.On calendarId)) (hperm : (w.db.permissionOf calendarId userId).isSome) :
    Contained userId w (p.run (exec env) w).2 := by
  constructor
  · refine run_only (I := fun w' : World => w'.db.users = w.db.users) (fun o w' ho hw' => ?_) hp rfl
    cases o with
    | sql s => exact (users_after ho _).trans hw'
    | _ => exact hw'
  · intro calendarId' hnone
    refine run_on hp (fun heq => ?_) w
    rw [← heq, hnone] at hperm
    cases hperm

theorem contained_reads {α : Type} {p : Action α} (hp : p.Only Op.Reads) (userId : String) :
    Contained userId w (p.run (exec env) w).2 := by
  rw [run_reads hp]
  exact .refl userId w

theorem contained_collectionFor {calendarId : String} (hm : request.method ≠ "MKCALENDAR")
    (hrefCtx : Option HrefContext) (username : String) : Contained user.id w
      ((collectionFor lib user hrefCtx username calendarId request).run (exec env) w).2 := by
  rw [collectionFor_run hm]
  split
  · rename_i hp
    have hone : ∀ {s : Sql}, s.On calendarId → Contained user.id w (w.after s) := fun {s} hs =>
      @contained_on env w _ (Prog.perform (Op.sql s)) _ _ ⟨hs, fun _ => trivial⟩ hp
    unfold collectionMethods
    split
    · exact contained_reads (only_handlePropfindCalendar ..) _
    · split
      · exact contained_reads (only_handleReport ..) _
      · split
        · obtain ⟨r, hr⟩ := Option.isSome_iff_exists.mp
            (Tables.mem_calendarIds.mp (w.db.ok.calendar_of_permission hp))
          rw [handleProppatch_run env lib user hrefCtx request hr]
          exact hone (Tables.calendarById_id hr)
        · split
          · rw [handleDeleteCalendar_run]
            exact hone rfl
          · exact .refl _ _
  · exact .refl _ _

theorem contained_objectFor {calendarId filename : String} : Contained user.id w
    ((objectFor user calendarId filename request).run (exec env) w).2 := by
  rw [objectFor_run]
  split
  · rename_i hp
    refine contained_on ((@within_objectMethods request user calendarId filename).mono fun o ho => ?_) hp
    cases o with
    | sql s =>
      obtain hread | hwrite := ho
      · exact Op.Reads.on calendarId (.sql s) hread
      · exact hwrite.on
    | _ => exact trivial
  · exact .refl _ _

/-- **One request** leaves the calendars of others as they are. -/
theorem contained_handle (hm : request.method ≠ "MKCALENDAR")
    (hres : NobodyElse env lib w route request user) :
    Contained user.id w ((handle lib route request).run (exec env) w).2 := by
  by_cases hr : route.NeedsUser
  · by_cases ho : request.method = "OPTIONS"
    · rw [handle_options hr ho]
      exact .refl _ _
    · rw [handle_run hr ho]
      cases hfound : ((routeUser lib route request).run (exec env) w).1 with
      | none => exact .refl _ _
      | some other =>
        obtain rfl := hres other hfound
        cases route with
        | emailCollection | calendarCollection => exact contained_collectionFor hm _ _
        | emailObject | object => exact contained_objectFor
        | calendarHome username => exact contained_reads (only_serve_home lib request other username) _
        | _ => exact hr.elim
  · exact contained_reads (only_discovery request hr) _

end

/-! ## Any number of requests -/

/-- Requests, one after the other. -/
def handleAll (lib : Lib) : List (Route × Request) → Action (List Reply)
  | [] => return []
  | (route, request) :: rest => do
    let reply ← handle lib route request
    return reply :: (← handleAll lib rest)

/-- A request that looks for no new calendar, and is served for nobody else. -/
def OfUser (env : Env) (lib : Lib) (w : World) (user : User) (q : Route × Request) : Prop :=
  q.2.method ≠ "MKCALENDAR" ∧ NobodyElse env lib w q.1 q.2 user

section

variable {env env' : Env} {lib : Lib} {w w' : World} {user : User}

theorem OfUser.congr {w₁ : World} (husers : w₁.db.users = w.db.users) {q : Route × Request}
    (h : OfUser env lib w user q) : OfUser env lib w₁ user q :=
  ⟨h.1, fun other hother => h.2 other ((routeUser_congr husers.symm).trans hother)⟩

theorem alike_handleAll (hinj : Function.Injective env.uuid) (hinj' : Function.Injective env'.uuid)
    {requests : List (Route × Request)} (h : Alike env env' user.id w w')
    (hrequests : ∀ q ∈ requests, OfUser env lib w user q) :
    AlikeRuns env env' user.id (handleAll lib requests) w w' := by
  induction requests generalizing w w' with
  | nil => exact Prog.RunsAlike.ret h _
  | cons q rest ih =>
    obtain ⟨hm, hres⟩ := hrequests q List.mem_cons_self
    have hfirst := alike_handle hinj hinj' h hm hres
    have hcontained : Contained user.id w ((handle lib q.1 q.2).run (exec env) w).2 :=
      contained_handle hm hres
    have husers := hcontained.users
    have hrest := ih hfirst.after fun q' hq' =>
      (hrequests q' (List.mem_cons_of_mem _ hq')).congr husers
    exact hfirst.bind (hrest.map _)

theorem contained_handleAll {requests : List (Route × Request)}
    (hrequests : ∀ q ∈ requests, OfUser env lib w user q) :
    Contained user.id w ((handleAll lib requests).run (exec env) w).2 := by
  induction requests generalizing w with
  | nil => exact .refl _ _
  | cons q rest ih =>
    obtain ⟨hm, hres⟩ := hrequests q List.mem_cons_self
    have hfirst : Contained user.id w ((handle lib q.1 q.2).run (exec env) w).2 :=
      contained_handle hm hres
    have hrest := ih fun q' hq' => (hrequests q' (List.mem_cons_of_mem _ hq')).congr hfirst.users
    show Contained user.id w ((handle lib q.1 q.2 >>= fun reply =>
      handleAll lib rest >>= fun replies => .ret (reply :: replies)).run (exec env) w).2
    rw [run_bind, run_bind]
    exact hfirst.trans hrest

/-- **Isolation.** Two reachable servers have the same users, the same shares of the user, and
    the same calendars of the user, with their objects and logs, and will draw the same Uuids.
    Any requests of the user, on any routes and with any methods but MKCALENDAR, are answered
    the same by both, and leave them the same for the user. All other calendars stay as they
    are. -/
theorem requests_isolated (env env' : Env) (lib : Lib) (hinj : Function.Injective env.uuid)
    (hinj' : Function.Injective env'.uuid) (w w' : World) (hw : Reachable env lib w)
    (hw' : Reachable env' lib w') (user : User) (requests : List (Route × Request))
    (hrequests : ∀ q ∈ requests, OfUser env lib w user q)
    (hdraws : ∀ n, env.uuid (w.drawn + n) = env'.uuid (w'.drawn + n))
    (hagree : w.db.Agree user.id w'.db.toTables) :
    ((handleAll lib requests).run (exec env) w).1 =
        ((handleAll lib requests).run (exec env') w').1 ∧
      ((handleAll lib requests).run (exec env) w).2.db.Agree user.id
        ((handleAll lib requests).run (exec env') w').2.db.toTables ∧
      ∀ calendarId, w.db.permissionOf calendarId user.id = none →
        Tables.SameCalendar calendarId w.db.toTables
          ((handleAll lib requests).run (exec env) w).2.db.toTables := by
  have halike := alike_handleAll hinj hinj' ⟨hagree, hdraws, hw.fresh hinj, hw'.fresh hinj'⟩ hrequests
  exact ⟨halike.answer, halike.after.agree, (contained_handleAll hrequests).others⟩

end

/-! ### Alice's calendar beside bob's -/

/-- Alice and bob have accounts, alice has a calendar `work`, and bob has a calendar `home`. -/
def bobsHomeWorld : World :=
  ((createCalendarWithId "home" bob.id "Home" "" "#0E61B9" "UTC").exec countingEnv
    neighboursWorld).2

theorem bobsHomeWorld_reachable : Reachable countingEnv sampleLib bobsHomeWorld :=
  .call (.createCalendarWithId ..) neighboursWorld_reachable

/-- Alice looks at her calendars, stores an event and asks what has changed. -/
def alicesRequests : List (Route × Request) :=
  [(.calendarHome "alice", ⟨"PROPFIND", [("depth", "1".toUTF8)], ByteArray.empty⟩),
    (.object "alice" "work" "noon.ics", ⟨"PUT", [], "at noon".toUTF8⟩),
    (.calendarCollection "alice" "work", ⟨"REPORT", [], ByteArray.empty⟩),
    (.object "alice" "home" "noon.ics", ⟨"GET", [], ByteArray.empty⟩)]

/-- Alice owns `work` in both states, and has access to nothing else. -/
theorem alice_agrees :
    neighboursWorld.db.Agree alice.id bobsHomeWorld.db.toTables := by
  have hwork : ∀ w : World, (∀ r ∈ w.db.calendars, r.ownerId = alice.id → r.id = "work") →
      w.db.calendarShares = [] → ∀ calendarId, (w.db.permissionOf calendarId alice.id).isSome →
      calendarId = "work" := by
    intro w hrows hshares calendarId hp
    obtain howns | hshare := Tables.permissionOf_isSome.mp hp
    · obtain ⟨r, hr, rfl, ho⟩ := w.db.ok.owns_iff.mp howns
      exact hrows r hr ho
    · unfold Tables.shareOf at hshare
      rw [hshares] at hshare
      cases hshare
  refine ⟨by decide +kernel, by decide +kernel, fun calendarId hp => ?_⟩
  obtain rfl : calendarId = "work" := by
    obtain hp | hp := hp
    · exact hwork neighboursWorld (by decide +kernel) (by decide +kernel) calendarId hp
    · exact hwork bobsHomeWorld (by decide +kernel) (by decide +kernel) calendarId hp
  exact ⟨by decide +kernel, by decide +kernel, by decide +kernel⟩

/-- Alice's requests are hers. -/
theorem alicesRequests_ofUser :
    ∀ q ∈ alicesRequests, OfUser countingEnv sampleLib (neighboursWorld.draw 1) alice q := by
  have hnobody : ∀ route request, Resolves countingEnv sampleLib (neighboursWorld.draw 1) route
      request alice → NobodyElse countingEnv sampleLib (neighboursWorld.draw 1) route request alice :=
    fun route request hres other hother => Option.some.inj (hother.symm.trans hres)
  intro q hq
  simp only [alicesRequests, List.mem_cons, List.not_mem_nil, or_false] at hq
  obtain rfl | rfl | rfl | rfl := hq
  · exact ⟨by decide, hnobody _ _ rfl⟩
  · exact ⟨by decide, hnobody _ _ rfl⟩
  · exact ⟨by decide, hnobody _ _ rfl⟩
  · exact ⟨by decide, hnobody _ _ rfl⟩

theorem requests_isolated_alice :
    ((handleAll sampleLib alicesRequests).run (exec countingEnv) (neighboursWorld.draw 1)).1 =
      ((handleAll sampleLib alicesRequests).run (exec countingEnv) bobsHomeWorld).1 :=
  (requests_isolated countingEnv countingEnv sampleLib countingEnv_uuid_injective
    countingEnv_uuid_injective (neighboursWorld.draw 1) bobsHomeWorld
    (.draw 1 neighboursWorld_reachable) bobsHomeWorld_reachable alice alicesRequests
    alicesRequests_ofUser (fun _ => rfl) alice_agrees).1

end CaldavMcp
