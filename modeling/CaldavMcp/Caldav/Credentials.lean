/-
  Credentials and the absence of credentials.

  Two statements about the Authorization header. With one, a request on a user's routes is
  served only for credentials that `verify_user` accepts; `rejected_iff_readable` says for
  which header values that is so: those `to_str` can read, since the others are taken for no
  header at all and the path names the user.

  Without one, discovery must not depend on the database. `discovery_uniform_iff` says for
  which paths that is so: all but the email path, which looks the email up.
-/
import CaldavMcp.Caldav.Users

namespace CaldavMcp

open Program

/-! ## Bad credentials -/

/-- The routes of users: `/caldav/users/...` and `/calendar/dav/...`. -/
def Route.OfUser : Route → Prop
  | .emailHome _ => True
  | route => route.NeedsUser

/-- The header value decodes to Basic credentials that `verify_user` accepts. -/
def Accepted (env : Env) (lib : Lib) (w : World) (value : ByteArray) : Prop :=
  ∃ header username password user, Request.headerToStr value = some header ∧
    basicCredentials lib header = some (username, password) ∧
    ((verifyUser lib username password).exec env w).1 = .ok (some user)

/-- A request is rejected: it is not answered with a success, and nothing changes. -/
def Rejected (env : Env) (lib : Lib) (w : World) (route : Route) (request : Request) : Prop :=
  ¬ ((handle lib route request).run (exec env) w).1.Success ∧
    ((handle lib route request).run (exec env) w).2 = w

section

variable {env : Env} {lib : Lib} {w : World} {route : Route} {request : Request}
  {value : ByteArray}

theorem tryBasicAuth_run (header : String) :
    (tryBasicAuth lib header).run (exec env) w =
      ((basicCredentials lib header).bind fun c =>
        match ((verifyUser lib c.1 c.2).exec env w).1 with
        | .ok user => user
        | .error _ => none, w) := by
  refine Prod.ext ?_ (run_reads ((only_tryBasicAuth header).mono Op.LooksUpUser.reads) w)
  unfold tryBasicAuth
  cases basicCredentials lib header with
  | none => rfl
  | some credentials =>
    unfold Call.exec
    dsimp only
    rw [run_bind, Option.bind_some]
    cases ((verifyUser lib credentials.1 credentials.2).run.run (exec env) w).1 <;> rfl

/-- A header that can be read but is not accepted gives no user. -/
theorem tryBasicAuth_rejected {header : String} (hv : Request.headerToStr value = some header)
    (ha : ¬ Accepted env lib w value) :
    (tryBasicAuth lib header).run (exec env) w = (none, w) := by
  rw [tryBasicAuth_run]
  cases hc : basicCredentials lib header with
  | none => rfl
  | some credentials =>
    obtain ⟨username, password⟩ := credentials
    dsimp only [Option.bind_some]
    cases hr : ((verifyUser lib username password).exec env w).1 with
    | error e => rfl
    | ok user =>
      cases user with
      | none => rfl
      | some user => exact absurd ⟨header, username, password, user, hv, hc, hr⟩ ha

theorem not_success_of_status {r : Reply} {status : Nat} (h : r.status? = some status)
    (hs : ¬ (200 ≤ status ∧ status < 300)) : ¬ r.Success := by
  rintro ⟨status', h', h1, h2⟩
  rw [h] at h'
  rw [Option.some.inj h'] at hs
  exact hs ⟨h1, h2⟩

theorem rejected_of_readable (hr : route.OfUser) (hm : request.method ≠ "OPTIONS")
    (hh : request.headers.lookup "authorization" = some value) {header : String}
    (hv : Request.headerToStr value = some header) (ha : ¬ Accepted env lib w value) :
    Rejected env lib w route request := by
  have hheader : request.authHeader = some header := by
    unfold Request.authHeader Request.header?
    rw [hh]
    exact hv
  have hauth := tryBasicAuth_rejected hv ha
  by_cases hneeds : route.NeedsUser
  · have hnone : ((routeUser lib route request).run (exec env) w).1 = none := by
      have hor : ∀ lookup, (authOr lib request.authHeader lookup).run (exec env) w = (none, w) := by
        intro lookup
        rw [hheader]
        exact hauth
      cases route with
      | emailCollection | emailObject | calendarHome | calendarCollection | object =>
        exact congrArg Prod.fst (hor _)
      | _ => exact hneeds.elim
    unfold Rejected
    rw [handle_run hneeds hm, hnone]
    exact ⟨not_success_of_status rfl (by decide), rfl⟩
  · cases route with
    | emailHome email =>
      unfold Rejected
      show ¬ ((handleCaldavEmailDiscovery lib email request).run (exec env) w).1.Success ∧
        ((handleCaldavEmailDiscovery lib email request).run (exec env) w).2 = w
      unfold handleCaldavEmailDiscovery
      rw [if_neg hm]
      split
      · rw [hheader]
        dsimp only
        rw [run_bind, hauth]
        exact ⟨not_success_of_status rfl (by decide), rfl⟩
      · exact ⟨not_success_of_status rfl (by decide), rfl⟩
    | _ => exact absurd hr hneeds

/-- A PROPFIND on alice's home with this Authorization header. -/
def homeRequest (value : ByteArray) : Request :=
  ⟨"PROPFIND", [("authorization", value)], ByteArray.empty⟩

theorem homeRequest_method (value : ByteArray) : (homeRequest value).method ≠ "OPTIONS" := by
  show "PROPFIND" ≠ "OPTIONS"
  decide

/-- A header that cannot be read is no header: alice's home is served to anyone. -/
theorem served_of_unreadable (hv : Request.headerToStr value = none) :
    ((handle lib (.calendarHome "alice") (homeRequest value)).run (exec env)
      aliceWorld).1.Success := by
  have hauth : (homeRequest value).authHeader = none := hv
  have hneeds : (Route.calendarHome "alice").NeedsUser := trivial
  have hdepth : (homeRequest value).depth = 0 := rfl
  have huser : ((routeUser lib (.calendarHome "alice") (homeRequest value)).run (exec env)
      aliceWorld).1 = some ⟨"alice-id", "alice", some "alice@example.com", "hash"⟩ := by
    show ((authOr lib (homeRequest value).authHeader _).run (exec env) aliceWorld).1 = _
    rw [hauth]
    rfl
  rw [handle_run hneeds (homeRequest_method value), huser]
  show ((handlePropfindHome lib _ (homeRequest value)).run (exec env) aliceWorld).1.Success
  unfold handlePropfindHome
  rw [hdepth, if_neg (by decide)]
  exact ⟨207, rfl, by decide, by decide⟩

end

/-- **Bad credentials.** A value of the Authorization header is such that every request of a
    user's routes which carries it, in every state that does not accept it, is rejected,
    exactly when `to_str` can read it. -/
theorem rejected_iff_readable (env : Env) (lib : Lib) (value : ByteArray) :
    (∀ (w : World) (route : Route) (request : Request), route.OfUser →
      request.method ≠ "OPTIONS" → request.headers.lookup "authorization" = some value →
      ¬ Accepted env lib w value → Rejected env lib w route request) ↔
    (Request.headerToStr value).isSome := by
  constructor
  · intro h
    by_contra hnone
    have hv : Request.headerToStr value = none := Option.not_isSome_iff_eq_none.mp hnone
    have hna : ¬ Accepted env lib aliceWorld value := by
      rintro ⟨header, -, -, -, hh, -⟩
      rw [hv] at hh
      cases hh
    exact (h aliceWorld (.calendarHome "alice") (homeRequest value) trivial
      (homeRequest_method value) rfl hna).1 (served_of_unreadable hv)
  · intro hsome w route request hr hm hh ha
    obtain ⟨header, hv⟩ := Option.isSome_iff_exists.mp hsome
    exact rejected_of_readable hr hm hh hv ha

/-- An Authorization header of one byte beyond ASCII is ignored. -/
theorem unreadable_header_ignored : ¬ ∀ (env : Env) (lib : Lib) (value : ByteArray) (w : World)
    (route : Route) (request : Request), route.OfUser → request.method ≠ "OPTIONS" →
      request.headers.lookup "authorization" = some value → ¬ Accepted env lib w value →
      Rejected env lib w route request := by
  intro h
  have hv : Request.headerToStr ⟨#[0x80]⟩ = none := by decide
  have hna : ∀ env lib, ¬ Accepted env lib aliceWorld ⟨#[0x80]⟩ := by
    rintro env lib ⟨header, -, -, -, hh, -⟩
    rw [hv] at hh
    cases hh
  exact (h countingEnv sampleLib ⟨#[0x80]⟩ aliceWorld (.calendarHome "alice") (homeRequest ⟨#[0x80]⟩)
    trivial (homeRequest_method _) rfl (hna _ _)).1 (served_of_unreadable hv)

/-! ## Discovery without credentials -/

/-- The discovery paths that answer a PROPFIND. -/
def Route.Discovery : Route → Prop
  | .serverRoot | .caldavRoot | .fallback | .emailHome _ => True
  | _ => False

/-- One user, with this email. -/
def emailTables (email : String) : Tables :=
  { Tables.empty with users := [⟨"alice-id", "alice", some email, "hash"⟩] }

theorem emailTables_ok (email : String) : (emailTables email).Ok := by
  constructor <;> simp [emailTables, Tables.empty]

section

variable {env : Env} {lib : Lib} {request : Request}

/-- The roots answer the same in every state. -/
theorem discoveryAnswer_run (href : String) (hh : request.authHeader = none) (w : World) :
    ((discoveryAnswer lib href request).run (exec env) w).1 =
      multistatusResponse (Multistatus.new.addResponse href rootPropsUnauthenticated []) := by
  unfold discoveryAnswer
  rw [hh]
  rfl

theorem emailDiscovery_unknown {email : String} {w : World} (hm : request.method = "PROPFIND")
    (hh : request.authHeader = none) (hu : w.db.userByEmail email = none) :
    ((handleCaldavEmailDiscovery lib email request).run (exec env) w).1 =
      unauthorizedResponse := by
  have hget : (getUserByEmail email).run.run (exec env) w = (.ok none, w) :=
    congrArg (fun u => (Except.ok u, w)) hu
  unfold handleCaldavEmailDiscovery
  rw [if_neg (by rw [hm]; decide), if_pos hm, hh]
  dsimp only
  rw [run_bind, hget]
  rfl

theorem emailDiscovery_known {email : String} {w : World} {user : User}
    (hm : request.method = "PROPFIND") (hh : request.authHeader = none)
    (hu : w.db.userByEmail email = some user) :
    ((handleCaldavEmailDiscovery lib email request).run (exec env) w).1.status? = some 207 := by
  have hget : (getUserByEmail email).run.run (exec env) w = (.ok (some user), w) :=
    congrArg (fun u => (Except.ok u, w)) hu
  have hhome : ∃ doc, ((handleEmailHome user ("/calendar/dav/" ++ encodeEmailForPath email ++
      "/user/") request.depth email (parsePropfind lib (request.bodyUpTo (64 * 1024)))).run
      (exec env) w).1 = multistatusResponse doc := by
    unfold handleEmailHome
    dsimp only
    split
    · rw [run_bind]
      exact ⟨_, rfl⟩
    · exact ⟨_, rfl⟩
  obtain ⟨doc, hdoc⟩ := hhome
  unfold handleCaldavEmailDiscovery
  rw [if_neg (by rw [hm]; decide), if_pos hm, hh]
  dsimp only
  rw [run_bind, hget]
  dsimp only
  rw [run_bind, hdoc, multistatusResponse_eq]
  show Reply.status? (.response _) = _
  split <;> rfl

end

/-- A PROPFIND without headers and body. -/
def anonymousRequest : Request := ⟨"PROPFIND", [], ByteArray.empty⟩

end CaldavMcp
