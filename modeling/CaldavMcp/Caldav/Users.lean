/-
  The user of a request, and what is done for them.

  `routeUser` is the authentication step of a route: by the Authorization header where there
  is a readable one, by the username or the email of the path where there is none. It only
  reads (`only_routeUser`). `serve` is what a route does for its user, behind that step;
  `handle_run` puts the two together for the routes on users, calendars and objects.

  `verifyCalendarAccess_run` says what the access check of `serve` decides: whether there is a
  permission, of any level.
-/
import CaldavMcp.Caldav.Router
import CaldavMcp.Db.Access

namespace CaldavMcp

open Program

/-- The user a request is served for, if its route looks for one. -/
def routeUser (lib : Lib) (route : Route) (request : Request) : Action (Option User) :=
  match route with
  | .wellKnown | .principal _ => return none
  | .serverRoot | .caldavRoot | .fallback => inlineAuth lib request.authHeader
  | .emailHome email | .emailCollection email _ | .emailObject email _ _ =>
    authOrEmailUser lib request.authHeader email
  | .calendarHome username | .calendarCollection username _ | .object username _ _ =>
    authOrPathUser lib request.authHeader username

/-- The request is served for this user. -/
def Resolves (env : Env) (lib : Lib) (w : World) (route : Route) (request : Request)
    (user : User) : Prop :=
  ((routeUser lib route request).run (exec env) w).1 = some user

section

variable {lib : Lib}

/-! ## Authentication looks up users -/

theorem only_verifyUser (username password : String) :
    (verifyUser lib username password).run.Only Op.LooksUpUser := by
  unfold verifyUser
  refine only_except_bind (only_sql trivial) fun user => ?_
  have hverify : ∀ user : User, (do
      if ← ExceptT.mk (pure (verifyPassword lib password user.passwordHash)) then
        return some user
      else
        return none : Call (Option User)).run.Only Op.LooksUpUser := by
    intro user
    refine only_except_bind trivial fun valid => ?_
    cases valid <;> exact trivial
  cases user with
  | some user => exact hverify user
  | none =>
    refine only_except_bind (only_sql trivial) fun user => ?_
    cases user with
    | none => exact trivial
    | some user => exact hverify user

theorem only_tryBasicAuth (header : String) : (tryBasicAuth lib header).Only Op.LooksUpUser := by
  unfold tryBasicAuth
  cases basicCredentials lib header with
  | none => exact trivial
  | some credentials =>
    refine only_bind (only_verifyUser ..) fun r => ?_
    cases r <;> exact trivial

theorem only_inlineAuth (authHeader : Option String) :
    (inlineAuth lib authHeader).Only Op.LooksUpUser := by
  cases authHeader with
  | none => exact trivial
  | some h => exact only_tryBasicAuth h

theorem only_authOr (authHeader : Option String) {lookup : Call (Option User)}
    (hl : lookup.run.Only Op.LooksUpUser) : (authOr lib authHeader lookup).Only Op.LooksUpUser := by
  cases authHeader with
  | none =>
    refine only_bind hl fun r => ?_
    cases r <;> exact trivial
  | some h => exact only_tryBasicAuth h

theorem only_routeUser (route : Route) (request : Request) :
    (routeUser lib route request).Only Op.LooksUpUser := by
  cases route with
  | wellKnown | principal => exact trivial
  | serverRoot | caldavRoot | fallback => exact only_inlineAuth _
  | emailHome | emailCollection | emailObject => exact only_authOr _ (only_sql trivial)
  | calendarHome | calendarCollection | object => exact only_authOr _ (only_sql trivial)

end

/-! ## Handlers that only read -/

section

variable {lib : Lib}

theorem only_orEmpty {α : Type} {P : Op → Prop} {c : Call (List α)} (hc : c.run.Only P) :
    (orEmpty c).Only P := by
  refine only_bind hc fun r => ?_
  cases r <;> exact trivial

theorem only_handleGet (calendarId filename : String) :
    (handleGet calendarId filename).Only Op.Reads := by
  refine only_bind (only_sql trivial) fun r => ?_
  rcases r with e | (_ | o) <;> exact trivial

theorem only_handlePropfindHome (user : User) (request : Request) :
    (handlePropfindHome lib user request).Only Op.Reads := by
  unfold handlePropfindHome
  dsimp only
  split
  · exact only_bind (only_orEmpty (only_sql trivial)) fun _ => trivial
  · exact trivial

theorem only_handlePropfindCalendar (user : User) (hrefCtx : Option HrefContext)
    (calendarId : String) (request : Request) :
    (handlePropfindCalendar lib user hrefCtx calendarId request).Only Op.Reads := by
  unfold handlePropfindCalendar
  refine only_bind (only_sql trivial) fun r => ?_
  rcases r with e | (_ | cal)
  · exact trivial
  · exact trivial
  · dsimp only
    split
    · exact only_bind (only_orEmpty (only_sql trivial)) fun _ => trivial
    · exact trivial

theorem only_handleEmailHome (user : User) (requestPath : String) (depth : Nat) (email : String)
    (propfind : PropfindRequest) :
    (handleEmailHome user requestPath depth email propfind).Only Op.Reads := by
  unfold handleEmailHome
  dsimp only
  split
  · exact only_bind (only_orEmpty (only_sql trivial)) fun _ => trivial
  · exact trivial

theorem only_deltaEntries (ctx : HrefContext) (calendarId : String) (includeData : Bool)
    (changes : List SyncChange) :
    (deltaEntries ctx calendarId includeData changes).Only Op.Reads := by
  induction changes with
  | nil => exact trivial
  | cons change rest ih =>
    unfold deltaEntries
    dsimp only
    split
    · exact only_bind ih fun _ => trivial
    · refine only_bind (only_sql trivial) fun r => ?_
      rcases r with e | (_ | o)
      · exact ih
      · exact ih
      · exact only_bind ih fun _ => trivial

theorem only_getSyncChangesSince (calendarId sinceToken : String) :
    (getSyncChangesSince calendarId sinceToken).run.Only Op.Reads := by
  refine only_except_bind (only_sql trivial) fun anchor => ?_
  cases anchor <;> exact only_sql trivial

theorem only_syncDocument (ctx : HrefContext) (calendarId : String) (props : List PropRequest)
    (syncToken : String) : (syncDocument ctx calendarId props syncToken).Only Op.Reads := by
  unfold syncDocument
  refine only_bind (only_sql trivial) fun r => ?_
  rcases r with e | (_ | cal)
  · exact trivial
  · exact trivial
  · dsimp only
    split
    · exact only_bind (only_orEmpty (only_sql trivial)) fun _ => trivial
    · refine only_bind (only_orEmpty (only_getSyncChangesSince ..)) fun changes => ?_
      exact only_bind (only_deltaEntries ..) fun _ => trivial

theorem only_handleSync (ctx : HrefContext) (calendarId : String) (props : List PropRequest)
    (syncToken : String) : (handleSync ctx calendarId props syncToken).Only Op.Reads := by
  refine only_bind (only_syncDocument ..) fun doc => ?_
  cases doc <;> exact trivial

theorem only_getObjectsByUids (calendarId : String) (uids : List String) :
    (getObjectsByUids calendarId uids).run.Only Op.Reads := by
  unfold getObjectsByUids
  split
  · exact trivial
  · exact only_sql trivial

theorem only_handleReport (user : User) (hrefCtx : Option HrefContext) (calendarId : String)
    (request : Request) : (handleReport lib user hrefCtx calendarId request).Only Op.Reads := by
  unfold handleReport
  dsimp only
  cases parseReport lib (request.bodyUpTo (256 * 1024)) with
  | none => exact trivial
  | some report =>
    cases report with
    | calendarMultiget props hrefs =>
      exact only_bind (only_bind (only_orEmpty (only_getObjectsByUids ..)) fun _ => trivial)
        fun _ => trivial
    | calendarQuery props timeRange =>
      refine only_bind ?_ fun _ => trivial
      cases timeRange <;> exact only_bind (only_orEmpty (only_sql trivial)) fun _ => trivial
    | syncCollection props syncToken => exact only_bind (only_handleSync ..) fun _ => trivial

end

/-! ## What is served -/

/-- What a route does for its user. -/
def serve (lib : Lib) (request : Request) (user : User) : Route → Action Reply
  | .emailCollection email calendarId =>
    collectionFor lib user (some ⟨some (encodeEmailForPath email), user.username⟩) user.username
      calendarId request
  | .calendarCollection username calendarId =>
    collectionFor lib user none username calendarId request
  | .emailObject _ calendarId filename | .object _ calendarId filename =>
    objectFor user calendarId filename request
  | .calendarHome _ =>
    if request.method = "PROPFIND" then handlePropfindHome lib user request
    else return methodNotAllowed
  | _ => return methodNotAllowed

theorem only_serve_home (lib : Lib) (request : Request) (user : User) (username : String) :
    (serve lib request user (.calendarHome username)).Only Op.Reads := by
  show (if request.method = "PROPFIND" then _ else _ : Action Reply).Only Op.Reads
  split
  · exact only_handlePropfindHome user request
  · exact trivial

/-- The routes that look for a user before anything else. -/
def Route.NeedsUser : Route → Prop
  | .emailCollection .. | .calendarCollection .. | .emailObject .. | .object .. |
    .calendarHome _ => True
  | _ => False

section

variable {env : Env} {lib : Lib} {w : World} {route : Route} {request : Request} {user : User}

theorem routeUser_run (env : Env) (lib : Lib) (route : Route) (request : Request) (w : World) :
    (routeUser lib route request).run (exec env) w =
      (((routeUser lib route request).run (exec env) w).1, w) :=
  Prod.ext rfl (run_reads ((only_routeUser route request).mono Op.LooksUpUser.reads) w)

theorem withUser_run {auth : Action (Option User)} {k : User → Action Reply}
    (hm : request.method ≠ "OPTIONS") (found : Option User) :
    auth.run (exec env) w = (found, w) →
      (withUser auth request k).run (exec env) w =
        match found with
        | some user => (k user).run (exec env) w
        | none => (unauthorizedResponse, w) := by
  intro ha
  unfold withUser
  rw [if_neg hm, run_bind, ha]
  cases found <;> rfl

/-- The user of a request depends on the users only. -/
theorem routeUser_congr {w' : World} (h : w.db.users = w'.db.users) :
    ((routeUser lib route request).run (exec env) w).1 =
      ((routeUser lib route request).run (exec env) w').1 :=
  (uniform_lookUps (only_routeUser route request) w w' h).1

/-- A request that needs a user: served for the one it names, or refused. -/
theorem handle_run (hr : route.NeedsUser) (hm : request.method ≠ "OPTIONS") :
    (handle lib route request).run (exec env) w =
      match ((routeUser lib route request).run (exec env) w).1 with
      | some user => (serve lib request user route).run (exec env) w
      | none => (unauthorizedResponse, w) := by
  have ha := routeUser_run env lib route request w
  cases route with
  | emailCollection | calendarCollection | emailObject | object | calendarHome =>
    exact withUser_run hm _ ha
  | _ => exact hr.elim

theorem handle_resolved (hr : route.NeedsUser) (hm : request.method ≠ "OPTIONS")
    (hu : Resolves env lib w route request user) :
    (handle lib route request).run (exec env) w =
      (serve lib request user route).run (exec env) w := by
  rw [handle_run hr hm, show ((routeUser lib route request).run (exec env) w).1 = _ from hu]

/-- OPTIONS is answered without a look at the database. -/
theorem handle_options (hr : route.NeedsUser) (hm : request.method = "OPTIONS") :
    (handle lib route request).run (exec env) w = (handleOptions, w) := by
  cases route with
  | emailCollection | calendarCollection | emailObject | object | calendarHome =>
    show (withUser _ _ _).run (exec env) w = _
    unfold withUser
    rw [if_pos hm]
    rfl
  | _ => exact hr.elim

theorem only_discoveryAnswer (href : String) : (discoveryAnswer lib href request).Only Op.Reads := by
  refine only_bind ((only_inlineAuth _).mono Op.LooksUpUser.reads) fun user => ?_
  cases user <;> exact trivial

/-- The other routes only read. -/
theorem only_discovery (request : Request) (hr : ¬ route.NeedsUser) :
    (handle lib route request).Only Op.Reads := by
  have hroot : ∀ href (other : Reply), (if request.method = "OPTIONS" then return handleOptions
      else if request.method = "PROPFIND" then discoveryAnswer lib href request
      else return other : Action Reply).Only Op.Reads := by
    intro href other
    split
    · exact trivial
    · split
      · exact only_discoveryAnswer href
      · exact trivial
  cases route with
  | wellKnown | principal => exact trivial
  | serverRoot | caldavRoot | fallback => exact hroot ..
  | emailHome email =>
    show (handleCaldavEmailDiscovery lib email request).Only Op.Reads
    unfold handleCaldavEmailDiscovery
    split
    · exact trivial
    · split
      · dsimp only
        cases request.authHeader with
        | some h =>
          refine only_bind ((only_tryBasicAuth h).mono Op.LooksUpUser.reads) fun user => ?_
          cases user with
          | none => exact trivial
          | some user => exact only_handleEmailHome ..
        | none =>
          refine only_bind (only_sql trivial) fun r => ?_
          rcases r with e | (_ | user)
          · exact trivial
          · exact trivial
          · exact only_bind (only_handleEmailHome ..) fun _ => trivial
      · exact trivial
  | _ => exact absurd trivial hr

/-! ## The access check -/

theorem verifyCalendarAccess_run (env : Env) (w : World) (user : User) (calendarId : String) :
    (verifyCalendarAccess user calendarId).run (exec env) w =
      ((w.db.permissionOf calendarId user.id).isSome, w) := by
  have hrun : (verifyCalendarAccess user calendarId).run (exec env) w =
    ((w.db.calendarsFor user.id).any (·.id = calendarId), w) := rfl
  rw [hrun]
  refine Prod.ext ?_ rfl
  rw [Bool.eq_iff_iff, any_eq_iff]
  exact w.db.ok.mem_calendarsFor_ids

/-- A collection request by someone without a permission is refused. -/
theorem collectionFor_run {hrefCtx : Option HrefContext} {username calendarId : String}
    (hm : request.method ≠ "MKCALENDAR") :
    (collectionFor lib user hrefCtx username calendarId request).run (exec env) w =
      if (w.db.permissionOf calendarId user.id).isSome then
        (collectionMethods lib user hrefCtx username calendarId request).run (exec env) w
      else (accessDenied, w) := by
  unfold collectionFor
  rw [if_pos hm, run_bind, verifyCalendarAccess_run]
  dsimp only
  split <;> rfl

/-- An object request by someone without a permission is refused. -/
theorem objectFor_run {calendarId filename : String} :
    (objectFor user calendarId filename request).run (exec env) w =
      if (w.db.permissionOf calendarId user.id).isSome then
        (objectMethods calendarId filename request).run (exec env) w
      else (accessDenied, w) := by
  unfold objectFor
  rw [run_bind, verifyCalendarAccess_run]
  dsimp only
  split <;> rfl

end

end CaldavMcp
