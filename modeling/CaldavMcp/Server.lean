/-
  The whole server: both ports, and the commands of `src/main.rs` that write accounts, on one
  database.

  A `ServerRequest` is a request of the CalDAV port, a tool call of an authenticated MCP client,
  or a command. Each is a program (`ServerRequest.program`), and a set of them in flight is a pool
  (`serverPool`). The commands run in processes of their own, on the same database file.

  `observes` are the requests that change nothing, and `storesOnce_program` says that each of the
  others stores at most one object, under an etag that it has drawn.
-/
import CaldavMcp.Caldav.Mediation
import CaldavMcp.Mcp.Statements

namespace CaldavMcp

open Program

/-- What may be asked of the server. -/
inductive ServerRequest where
  | dav (route : Route) (request : Request)
  | tool (userId toolName : String) (arguments : Json) (toolMode : String)
  | cmdCreateUser (username password : String) (email : Option String)
  | cmdResetPassword (username password : String)

/-- What it answers. -/
inductive ServerAnswer where
  | dav (reply : Reply)
  | tool (result : Except String Json)
  | user (result : Except AppError User)
  | done (result : Except AppError Unit)

namespace ServerRequest

/-- The program of a request. -/
def program (lib : Lib) : ServerRequest → Action ServerAnswer
  | dav route request => do return .dav (← handle lib route request)
  | tool userId toolName arguments toolMode => do
    return .tool (← (dispatch userId toolName arguments toolMode).run)
  | cmdCreateUser username password email => do
    return .user (← (createUser lib username email password).run)
  | cmdResetPassword username password => do
    return .done (← (resetPassword lib username password).run)

/-- The request shows something and changes nothing. -/
def observes : ServerRequest → Bool
  | dav _ request => request.method ∉ ["PUT", "DELETE", "MKCALENDAR", "PROPPATCH"]
  | tool _ toolName _ toolMode =>
    toolName ∉ if toolMode = "simple" then simpleTools else writingTools
  | cmdCreateUser .. | cmdResetPassword .. => false

end ServerRequest

/-- A request in flight. -/
abbrev ServerThread := Thread Op Op.Resp ServerAnswer

/-- A server with requests in flight. -/
abbrev ServerPool := Pool World Op Op.Resp ServerAnswer

/-- The requests in flight, none of them started. -/
def serverPool (lib : Lib) (w : World) (requests : List ServerRequest) : ServerPool :=
  Pool.start w (requests.map (·.program lib))

theorem serverPool_threads (lib : Lib) (w : World) {requests : List ServerRequest} {i : Nat}
    {t : ServerThread} (ht : (serverPool lib w requests).threads[i]? = some t) :
    ∃ request, requests[i]? = some request ∧ t = Thread.start (request.program lib) := by
  unfold serverPool Pool.start at ht
  rw [List.getElem?_map, List.getElem?_map, Option.map_map, Option.map_eq_some_iff] at ht
  obtain ⟨request, hi, rfl⟩ := ht
  exact ⟨request, hi, rfl⟩

/-- What a request has answered, if it has. -/
def ServerPool.answer? (p : ServerPool) (i : Nat) : Option ServerAnswer :=
  p.threads[i]?.bind fun t => t.result?

theorem answer_cases {p : ServerPool} {α : Type} {i : Nat} {show? : ServerAnswer → Option α} {x : α}
    (h : (p.answer? i).bind show? = some x) :
    ∃ t a, p.threads[i]? = some t ∧ t.result? = some a ∧ show? a = some x := by
  obtain ⟨a, ha, hx⟩ := Option.bind_eq_some_iff.mp h
  obtain ⟨t, ht, ha⟩ := Option.bind_eq_some_iff.mp ha
  exact ⟨t, a, ht, ha, hx⟩

/-! ## Requests that observe -/

section

variable {lib : Lib} {request : Request} {user : User} {calendarId filename : String}

theorem only_collectionFor_reads (hm : request.method ∉ ["PUT", "DELETE", "MKCALENDAR", "PROPPATCH"])
    (hrefCtx : Option HrefContext) (username : String) :
    (collectionFor lib user hrefCtx username calendarId request).Only Op.Reads := by
  have hne : ∀ m ∈ ["PUT", "DELETE", "MKCALENDAR", "PROPPATCH"], request.method ≠ m :=
    fun m hmem h => hm (h ▸ hmem)
  have hmethods : (collectionMethods lib user hrefCtx username calendarId request).Only
      Op.Reads := by
    unfold collectionMethods
    split
    · exact only_handlePropfindCalendar ..
    · split
      · exact only_handleReport ..
      · rw [if_neg (hne _ (by decide)), if_neg (hne _ (by decide)), if_neg (hne _ (by decide))]
        exact trivial
  unfold collectionFor
  rw [if_pos (hne _ (by decide))]
  refine only_bind (only_verifyCalendarAccess user calendarId) fun passed => ?_
  split
  · exact hmethods
  · exact trivial

theorem only_objectFor_reads (hm : request.method ∉ ["PUT", "DELETE", "MKCALENDAR", "PROPPATCH"]) :
    (objectFor user calendarId filename request).Only Op.Reads := by
  have hne : ∀ m ∈ ["PUT", "DELETE", "MKCALENDAR", "PROPPATCH"], request.method ≠ m :=
    fun m hmem h => hm (h ▸ hmem)
  refine only_bind (only_verifyCalendarAccess user calendarId) fun passed => ?_
  split
  · unfold objectMethods
    split
    · exact only_handleGet ..
    · rw [if_neg (hne _ (by decide)), if_neg (hne _ (by decide))]
      exact trivial
  · exact trivial

theorem only_serve_reads (hm : request.method ∉ ["PUT", "DELETE", "MKCALENDAR", "PROPPATCH"])
    (route : Route) : (serve lib request user route).Only Op.Reads := by
  cases route with
  | emailCollection | calendarCollection => exact only_collectionFor_reads hm _ _
  | emailObject | object => exact only_objectFor_reads hm
  | calendarHome username => exact only_serve_home lib request user username
  | _ => exact trivial

theorem only_handle_reads (hm : request.method ∉ ["PUT", "DELETE", "MKCALENDAR", "PROPPATCH"])
    (route : Route) : (handle lib route request).Only Op.Reads := by
  by_cases hr : route.NeedsUser
  · rw [handle_eq_withUser hr]
    unfold withUser
    split
    · exact trivial
    · refine only_bind ((only_routeUser route request).mono Op.LooksUpUser.reads) fun found => ?_
      cases found with
      | none => exact trivial
      | some user => exact only_serve_reads hm route
  · exact only_discovery request hr

end

theorem ServerRequest.only_reads (lib : Lib) {request : ServerRequest}
    (h : request.observes = true) : (request.program lib).Only Op.Reads := by
  cases request with
  | dav route request => exact only_bind (only_handle_reads (of_decide_eq_true h) route) fun _ => trivial
  | tool userId toolName arguments toolMode =>
    exact only_bind (only_dispatch_reads userId arguments (of_decide_eq_true h)) fun _ => trivial
  | cmdCreateUser | cmdResetPassword => cases h

/-! ## Requests that store -/

section

variable {lib : Lib} {route : Route} {request : Request} {user : User}
  {calendarId filename : String} {hist : List (Event Op Op.Resp)}

/-- Only PUT stores an object. -/
theorem plainly_mayWrite {filename? : Option String} {s : Sql}
    (h : MayWrite request user calendarId filename? s)
    (hm : request.method ≠ "PUT" ∨ filename? = none) : (Op.sql s).Plainly := by
  cases h with
  | put filename icalData s hput =>
    obtain hm | hm := hm
    · exact absurd hput hm
    · cases hm
  | deleteObject filename s hdelete hs => cases s <;> first | exact trivial | exact hs.elim
  | deleteCalendar | proppatch | mkcalendar => exact trivial

/-- A request that is not a PUT of an object stores nothing. -/
theorem storesOnce_justifies {o : Op} (hj : Justifies lib route request hist o)
    (hm : request.method ≠ "PUT" ∨ ∀ calendarId filename,
      route.target? ≠ some (calendarId, some filename)) : StoresOnce hist o := by
  have hplain : o.Plainly := by
    cases o with
    | newV4 | nowV7 | salt | utcNow => exact trivial
    | sql s =>
      obtain hread | ⟨user, calendarId, filename?, hcause⟩ := hj
      · exact Op.Reads.plainly (.sql s) hread
      · refine plainly_mayWrite hcause.writes (hm.imp id fun hnone => ?_)
        cases hf : filename? with
        | none => rfl
        | some filename =>
          have htarget := hcause.target
          rw [hf] at htarget
          exact absurd htarget (hnone calendarId filename)
  exact hplain.storesOnce o hist

theorem storesOnce_handlePut (h : NoneStored hist) :
    (handlePut calendarId filename request).Justified KeyedAnswer StoresOnce (fun _ _ => True)
      hist := by
  unfold handlePut
  split
  · cases String.fromUTF8? request.body with
    | none => exact trivial
    | some icalData =>
      have hcheck := (only_matchCheck (request.header? "if-match") calendarId
        (putUid filename icalData)).mono Op.Reads.plainly
      refine storesOnce_after hcheck h fun hist' refusal h' => ?_
      cases refusal with
      | some reply => exact trivial
      | none =>
        refine justified_bind (storesOnce_upsertObject _ _ _ _ h') fun _ _ _ => trivial
  · exact trivial

/-- A PUT of an object, once its user is known. -/
theorem storesOnce_objectFor (hm : request.method = "PUT") (h : NoneStored hist) :
    (objectFor user calendarId filename request).Justified KeyedAnswer StoresOnce
      (fun _ _ => True) hist := by
  have hverify := (only_verifyCalendarAccess user calendarId).mono Op.Reads.plainly
  refine storesOnce_after hverify h fun hist' passed h' => ?_
  split
  · unfold objectMethods
    rw [if_neg (by rw [hm]; decide), if_pos hm]
    exact storesOnce_handlePut h'
  · exact trivial

theorem storesOnce_handle (lib : Lib) (route : Route) (request : Request) :
    (handle lib route request).Justified KeyedAnswer StoresOnce (fun _ _ => True) [] := by
  by_cases hput : request.method ≠ "PUT" ∨ ∀ calendarId filename,
      route.target? ≠ some (calendarId, some filename)
  · exact (justified_handle lib route request).imp fun hist o hj => storesOnce_justifies hj hput
  · obtain ⟨hm, htarget⟩ := not_or.mp hput
    rw [not_not] at hm
    have hserve : ∀ (hist : List (Event Op Op.Resp)) (user : User), NoneStored hist →
        (serve lib request user route).Justified KeyedAnswer StoresOnce (fun _ _ => True)
          hist := by
      intro hist user h
      cases route with
      | emailObject | object => exact storesOnce_objectFor hm h
      | _ => exact absurd (fun _ _ h => nomatch h) htarget
    have hr : route.NeedsUser := by
      cases route with
      | emailObject | object => exact trivial
      | _ => exact absurd (fun _ _ h => nomatch h) htarget
    rw [handle_eq_withUser hr]
    unfold withUser
    split
    · exact trivial
    · have hauth : (routeUser lib route request).Only _ := (only_routeUser route request).mono
        fun o ho => (Op.LooksUpUser.reads o ho).plainly
      refine storesOnce_after hauth noneStored_nil fun hist' found h' => ?_
      cases found with
      | none => exact trivial
      | some user => exact hserve hist' user h'

/-- **Every request** stores at most one object, with an etag that it has drawn. -/
theorem storesOnce_program (lib : Lib) (request : ServerRequest) :
    (request.program lib).Justified KeyedAnswer StoresOnce (fun _ _ => True) [] := by
  cases request with
  | dav route request => exact justified_bind (storesOnce_handle lib route request) fun _ _ _ => trivial
  | tool userId toolName arguments toolMode =>
    exact justified_bind (storesOnce_dispatch userId arguments noneStored_nil toolName toolMode)
      fun _ _ _ => trivial
  | cmdCreateUser username password email =>
    refine storesOnce_last (only_bind ?_ fun _ => trivial)
    exact only_createUser trivial trivial (fun _ => trivial) (fun _ => trivial) username email password
  | cmdResetPassword username password =>
    refine storesOnce_last (only_bind ?_ fun _ => trivial)
    exact only_resetPassword trivial (fun _ _ => trivial) username password

end

end CaldavMcp
