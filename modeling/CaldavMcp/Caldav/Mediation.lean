/-
  No write without a check.

  A request of the CalDAV port finds its user, checks that the user may use the calendar of its
  path, and only then writes. `Cause` is what has to be in a request's history before a write:
  the row of a user whom the request may speak for (`Credible`) and a list of that user's
  calendars with the one of the path in it. `MayWrite` is what each method may write then: the
  object its path or its body names, or the row of its calendar. MKCALENDAR is not checked; it
  may only insert a calendar of the user's own.

  `justified_handle` says this of the program of a request, for any answers. So it holds beside
  any other programs, request or not, and whichever statements fail: `writes_mediated` reads it
  as a fact about the states of the run, in which the user was there and had the permission.
-/
import CaldavMcp.Caldav.Users
import CaldavMcp.Program.Justified

namespace CaldavMcp

open Program

/-! ## Answers -/

/-- What the database may answer a look-up: nothing, or a row with the key looked up. -/
def KeyedAnswer : (o : Op) → o.Resp → Prop
  | .sql (.selectUserByUsername username), r => ∀ user, r = .ok (some user) →
      user.username = username
  | .sql (.selectUserByEmail email), r => ∀ user, r = .ok (some user) → user.email = some email
  | .sql (.selectCalendarById id), r => ∀ cal, r = .ok (some cal) → cal.id = id
  | .sql (.selectObjectByUid calendarId uid), r => ∀ obj, r = .ok (some obj) →
      obj.calendarId = calendarId ∧ obj.uid = uid
  | _, _ => True

theorem keyedAnswer_exec (env : Env) (o : Op) (w : World) : KeyedAnswer o (exec env o w).1 := by
  cases o with
  | newV4 | nowV7 | salt | utcNow => exact trivial
  | sql s =>
    cases s with
    | selectUserByUsername username =>
      intro user h
      have hfind : w.db.users.find? (fun u => u.username = username) = some user := Except.ok.inj h
      have hname := List.find?_some hfind
      exact of_decide_eq_true hname
    | selectUserByEmail email =>
      intro user h
      have hfind : w.db.users.find? (fun u => u.email = some email) = some user := Except.ok.inj h
      have hemail := List.find?_some hfind
      exact of_decide_eq_true hemail
    | selectCalendarById id => exact fun cal h => Tables.calendarById_id (Except.ok.inj h)
    | selectObjectByUid calendarId uid =>
      exact fun obj h => Tables.objectByUid_key (Except.ok.inj h)
    | _ => exact trivial

/-- The server's handler when any statement may fail. -/
abbrev faultyExec (env : Env) (message : String) (fails : Nat → Bool) :
    Handler Op Op.Resp (World × Nat) :=
  faulty (sqlFault message) fails (exec env)

section

variable {env : Env} {message : String} {fails : Nat → Bool}

/-- A statement that is answered Ok has not failed. -/
theorem faultyExec_ok {s : Sql} {state : World × Nat} {rows : s.Rows}
    (h : (faultyExec env message fails (.sql s) state).1 = .ok rows) :
    (exec env (.sql s) state.1).1 = .ok rows := by
  unfold faultyExec faulty at h
  dsimp only [sqlFault] at h
  split at h
  · cases h
  · exact h

theorem keyedAnswer_faultyExec (o : Op) (state : World × Nat) :
    KeyedAnswer o (faultyExec env message fails o state).1 := by
  cases o with
  | newV4 | nowV7 | salt | utcNow => exact trivial
  | sql s =>
    have hkeyed := keyedAnswer_exec env (.sql s) state.1
    cases s with
    | selectUserByUsername username => exact fun user h => hkeyed user (faultyExec_ok h)
    | selectUserByEmail email => exact fun user h => hkeyed user (faultyExec_ok h)
    | selectCalendarById id => exact fun cal h => hkeyed cal (faultyExec_ok h)
    | selectObjectByUid calendarId uid => exact fun obj h => hkeyed obj (faultyExec_ok h)
    | _ => exact trivial

end

/-! ## Causes -/

/-- The calendar and the object of a path. -/
def Route.target? : Route → Option (String × Option String)
  | .emailCollection _ calendarId | .calendarCollection _ calendarId => some (calendarId, none)
  | .emailObject _ calendarId filename | .object _ calendarId filename =>
    some (calendarId, some filename)
  | _ => none

/-- The request may speak for the user: it has the user's name and password in its
    Authorization header, or no such header and the user's name or email in its path. -/
def Credible (lib : Lib) (route : Route) (request : Request) (user : User) : Prop :=
  match request.authHeader with
  | some header => ∃ name password, basicCredentials lib header = some (name, password) ∧
      (user.username = name ∨ user.email = some name) ∧
      verifyPassword lib password user.passwordHash = .ok true
  | none =>
    match route with
    | .emailHome email | .emailCollection email _ | .emailObject email _ _ =>
      user.email = some email
    | .calendarHome username | .calendarCollection username _ | .object username _ _ =>
      user.username = username
    | _ => False

/-- A statement of an upsert of this object: on its row, in the log, or on its calendar's ctag. -/
def Sql.UpsertsObject (calendarId uid : String) : Sql → Prop
  | .insertObject o => o.calendarId = calendarId ∧ o.uid = uid
  | .updateObject _ _ _ calendarId' uid' | .insertChange calendarId' uid' _ _ =>
    calendarId' = calendarId ∧ uid' = uid
  | .updateCtag _ _ id => id = calendarId
  | _ => False

/-- A statement of a deletion of this object. -/
def Sql.DeletesObject (calendarId uid : String) : Sql → Prop
  | .deleteObject calendarId' uid' => calendarId' = calendarId ∧ uid' = uid
  | .insertChange calendarId' uid' type _ =>
    calendarId' = calendarId ∧ uid' = uid ∧ type = .deleted
  | .updateCtag _ _ id => id = calendarId
  | _ => False

/-- What a request may write once its access has been checked. -/
inductive MayWrite (request : Request) (user : User) (calendarId : String) :
    Option String → Sql → Prop
  | put (filename icalData : String) (s : Sql) (hm : request.method = "PUT")
      (hbody : String.fromUTF8? request.body = some icalData)
      (hs : s.UpsertsObject calendarId (putUid filename icalData)) :
      MayWrite request user calendarId (some filename) s
  | deleteObject (filename : String) (s : Sql) (hm : request.method = "DELETE")
      (hs : s.DeletesObject calendarId (filename.trimEnds ".ics")) :
      MayWrite request user calendarId (some filename) s
  | deleteCalendar (hm : request.method = "DELETE") :
      MayWrite request user calendarId none (.deleteCalendar calendarId)
  | proppatch (name description color timezone : String) (hm : request.method = "PROPPATCH") :
      MayWrite request user calendarId none
        (.updateCalendar name description color timezone calendarId)
  | mkcalendar (cal : Calendar) (hm : request.method = "MKCALENDAR") (hid : cal.id = calendarId)
      (howner : cal.ownerId = user.id) : MayWrite request user calendarId none (.insertCalendar cal)

/-- The user's row has been read. -/
def Found (hist : List (Event Op Op.Resp)) (user : User) : Prop :=
  (∃ username, (⟨.sql (.selectUserByUsername username), .ok (some user)⟩ : Event Op Op.Resp) ∈
    hist) ∨
  ∃ email, (⟨.sql (.selectUserByEmail email), .ok (some user)⟩ : Event Op Op.Resp) ∈ hist

/-- The calendar has been read in the list of the user's calendars. -/
def Granted (hist : List (Event Op Op.Resp)) (user : User) (calendarId : String) : Prop :=
  ∃ cals, (⟨.sql (.selectCalendarsOfUser user.id), .ok cals⟩ : Event Op Op.Resp) ∈ hist ∧
    ∃ cal ∈ cals, cal.id = calendarId

/-- Why a request may send a statement that writes. -/
structure Cause (lib : Lib) (route : Route) (request : Request) (hist : List (Event Op Op.Resp))
    (s : Sql) (user : User) (calendarId : String) (filename? : Option String) : Prop where
  target : route.target? = some (calendarId, filename?)
  credible : Credible lib route request user
  found : Found hist user
  granted : request.method ≠ "MKCALENDAR" → Granted hist user calendarId
  writes : MayWrite request user calendarId filename? s

/-- The operation changes no table, or there is a cause for it. -/
def Justifies (lib : Lib) (route : Route) (request : Request) (hist : List (Event Op Op.Resp)) :
    Op → Prop
  | .sql s => s.Reads ∨ ∃ user calendarId filename?,
      Cause lib route request hist s user calendarId filename?
  | .newV4 | .nowV7 | .salt | .utcNow => True

/-- The operation changes no table, or is a statement of `M`. -/
def Op.Within (M : Sql → Prop) : Op → Prop
  | .sql s => s.Reads ∨ M s
  | .newV4 | .nowV7 | .salt | .utcNow => True

theorem Op.Reads.within {M : Sql → Prop} (o : Op) (h : o.Reads) : o.Within M := by
  cases o with
  | sql s => exact Or.inl h
  | _ => exact trivial

theorem Op.Reads.justifies {lib : Lib} {route : Route} {request : Request}
    {hist : List (Event Op Op.Resp)} (o : Op) (h : o.Reads) :
    Justifies lib route request hist o := by
  cases o with
  | sql s => exact Or.inl h
  | _ => exact trivial

theorem Found.mono {hist hist' : List (Event Op Op.Resp)} {user : User} (h : Found hist user)
    (hsub : hist <:+ hist') : Found hist' user := by
  obtain ⟨name, h⟩ | ⟨email, h⟩ := h
  · exact Or.inl ⟨name, hsub.subset h⟩
  · exact Or.inr ⟨email, hsub.subset h⟩

theorem Granted.mono {hist hist' : List (Event Op Op.Resp)} {user : User} {calendarId : String}
    (h : Granted hist user calendarId) (hsub : hist <:+ hist') :
    Granted hist' user calendarId := by
  obtain ⟨cals, h, hcal⟩ := h
  exact ⟨cals, hsub.subset h, hcal⟩

/-! ## The user -/

section

variable {lib : Lib} {route : Route} {request : Request} {hist : List (Event Op Op.Resp)}

/-- A program that only reads is justified. -/
theorem justified_reads {α : Type} {p : Action α} (hp : p.Only Op.Reads) :
    p.Justified KeyedAnswer (Justifies lib route request) (fun _ _ => True) hist :=
  (justified_of_only hp fun _ _ o ho => ho.justifies o).mono fun _ _ _ => trivial

/-- `verify_user` answers a user by that name or email, with that password, who has been read. -/
theorem justified_verifyUser (name password : String) :
    (verifyUser lib name password).run.Justified KeyedAnswer (Justifies lib route request)
      (fun hist' r => ∀ user, r = .ok (some user) → Found hist' user ∧
        (user.username = name ∨ user.email = some name) ∧
        verifyPassword lib password user.passwordHash = .ok true) hist := by
  have hverify : ∀ (hist' : List (Event Op Op.Resp)) (user : User), Found hist' user →
      (user.username = name ∨ user.email = some name) →
      (do
        if ← ExceptT.mk (pure (verifyPassword lib password user.passwordHash)) then
          return some user
        else
          return none : Call (Option User)).run.Justified KeyedAnswer
        (Justifies lib route request) (fun hist' r => ∀ user, r = .ok (some user) →
          Found hist' user ∧ (user.username = name ∨ user.email = some name) ∧
          verifyPassword lib password user.passwordHash = .ok true) hist' := by
    intro hist' user hfound hname
    simp only [ExceptT.run_bind, ExceptT.run_mk, pure_bind]
    cases hv : verifyPassword lib password user.passwordHash with
    | error e => exact fun _ h => nomatch h
    | ok valid =>
      cases valid with
      | false => exact fun _ h => nomatch h
      | true =>
        intro user' h
        obtain rfl := Option.some.inj (Except.ok.inj h)
        exact ⟨hfound, hname, hv⟩
  refine ⟨Or.inl trivial, fun r hr => ?_⟩
  rcases r with e | (_ | user)
  · exact fun _ h => nomatch h
  · refine ⟨Or.inl trivial, fun r hr => ?_⟩
    rcases r with e | (_ | user)
    · exact fun _ h => nomatch h
    · exact fun _ h => nomatch h
    · exact hverify _ user (Or.inr ⟨name, List.mem_cons_self⟩) (Or.inr (hr user rfl))
  · exact hverify _ user (Or.inl ⟨name, List.mem_cons_self⟩) (Or.inl (hr user rfl))

/-- The user of a request has been read, and is one that it may speak for. -/
theorem justified_routeUser (hr : route.NeedsUser) :
    (routeUser lib route request).Justified KeyedAnswer (Justifies lib route request)
      (fun hist' found => ∀ user, found = some user →
        Found hist' user ∧ Credible lib route request user) [] := by
  have hbasic : ∀ header, request.authHeader = some header →
      (tryBasicAuth lib header).Justified KeyedAnswer (Justifies lib route request)
        (fun hist' found => ∀ user, found = some user →
          Found hist' user ∧ Credible lib route request user) [] := by
    intro header hheader
    unfold tryBasicAuth
    cases hcred : basicCredentials lib header with
    | none => exact fun _ h => nomatch h
    | some credentials =>
      refine justified_bind (justified_verifyUser credentials.1 credentials.2) ?_
      intro hist' r hverified
      rcases r with e | found
      · exact fun _ h => nomatch h
      · intro user h
        obtain ⟨hfound, hname, hpassword⟩ := hverified user (congrArg Except.ok h)
        refine ⟨hfound, ?_⟩
        unfold Credible
        rw [hheader]
        exact ⟨_, _, hcred, hname, hpassword⟩
  cases hheader : request.authHeader with
  | some header =>
    have hroute : routeUser lib route request = tryBasicAuth lib header := by
      unfold routeUser inlineAuth authOrEmailUser authOrPathUser authOr
      rw [hheader]
      cases route with
      | wellKnown | principal => exact hr.elim
      | _ => rfl
    rw [hroute]
    exact hbasic header hheader
  | none =>
    unfold Credible routeUser inlineAuth authOrEmailUser authOrPathUser authOr
    rw [hheader]
    cases route with
    | emailCollection email | emailObject email =>
      refine ⟨Or.inl trivial, fun r hkey => ?_⟩
      rcases r with e | found
      · exact fun _ h => nomatch h
      · intro user h
        obtain rfl := h
        exact ⟨Or.inr ⟨email, List.mem_cons_self⟩, hkey user rfl⟩
    | calendarHome username | calendarCollection username | object username =>
      refine ⟨Or.inl trivial, fun r hkey => ?_⟩
      rcases r with e | found
      · exact fun _ h => nomatch h
      · intro user h
        obtain rfl := h
        exact ⟨Or.inl ⟨username, List.mem_cons_self⟩, hkey user rfl⟩
    | _ => exact hr.elim

/-! ## The access check -/

theorem only_verifyCalendarAccess (user : User) (calendarId : String) :
    (verifyCalendarAccess user calendarId).Only Op.Reads := by
  refine only_bind (only_sql trivial) fun r => ?_
  cases r <;> exact trivial

/-- Whoever passes the access check has the calendar in a list of theirs. -/
theorem justified_verifyCalendarAccess (user : User) (calendarId : String) :
    (verifyCalendarAccess user calendarId).Justified KeyedAnswer (Justifies lib route request)
      (fun hist' passed => hist <:+ hist' ∧ (passed = true → Granted hist' user calendarId))
      hist := by
  refine ⟨Or.inl trivial, fun r _ => ?_⟩
  rcases r with e | cals
  · exact ⟨List.suffix_cons _ _, nofun⟩
  · refine ⟨List.suffix_cons _ _, fun h => ⟨cals, List.mem_cons_self, ?_⟩⟩
    obtain ⟨cal, hcal, hid⟩ := List.any_eq_true.mp h
    exact ⟨cal, hcal, of_decide_eq_true hid⟩

end

/-! ## What the methods write -/

section

variable {lib : Lib} {request : Request} {user : User} {calendarId filename : String}

/-- The If-Match check only reads. -/
theorem only_matchCheck (ifMatch : Option String) (calendarId uid : String) :
    (checkIfMatch ifMatch calendarId uid).Only Op.Reads := by
  unfold checkIfMatch
  cases ifMatch with
  | none => exact trivial
  | some expectedEtag =>
    dsimp only
    split
    · exact trivial
    · refine only_bind (only_sql trivial) fun r => ?_
      rcases r with e | (_ | existing)
      · exact trivial
      · exact trivial
      · dsimp only
        split <;> exact trivial

theorem within_handlePut (hm : request.method = "PUT") :
    (handlePut calendarId filename request).Only
      (Op.Within (MayWrite request user calendarId (some filename))) := by
  unfold handlePut
  split
  · cases hbody : String.fromUTF8? request.body with
    | none => exact trivial
    | some icalData =>
      have hwrite : ∀ s : Sql, s.UpsertsObject calendarId (putUid filename icalData) →
          (Op.sql s).Within (MayWrite request user calendarId (some filename)) :=
        fun s hs => Or.inr (.put filename icalData s hm hbody hs)
      refine only_bind ((only_matchCheck ..).mono Op.Reads.within) fun refusal => ?_
      cases refusal with
      | some reply => exact trivial
      | none =>
        refine only_bind ?_ fun _ => trivial
        exact only_upsertObject (Or.inl trivial) trivial trivial
          (fun _ _ => hwrite _ ⟨rfl, rfl⟩) (fun _ => hwrite _ ⟨rfl, rfl⟩)
          (fun _ _ => hwrite _ ⟨rfl, rfl⟩) fun _ _ => hwrite _ rfl
  · exact trivial

theorem within_handleDeleteObject (hm : request.method = "DELETE") :
    (handleDeleteObject calendarId filename).Only
      (Op.Within (MayWrite request user calendarId (some filename))) := by
  have hwrite : ∀ s : Sql, s.DeletesObject calendarId (filename.trimEnds ".ics") →
      (Op.sql s).Within (MayWrite request user calendarId (some filename)) :=
    fun s hs => Or.inr (.deleteObject filename s hm hs)
  refine only_bind ?_ fun _ => trivial
  exact only_deleteObject (hwrite _ ⟨rfl, rfl⟩) trivial (fun _ => hwrite _ ⟨rfl, rfl, rfl⟩)
    fun _ _ => hwrite _ rfl

theorem within_objectMethods :
    (objectMethods calendarId filename request).Only
      (Op.Within (MayWrite request user calendarId (some filename))) := by
  unfold objectMethods
  split
  · exact (only_handleGet calendarId filename).mono Op.Reads.within
  · split
    · rename_i hm
      exact within_handlePut hm
    · split
      · rename_i hm
        exact within_handleDeleteObject hm
      · exact trivial

theorem within_handleDeleteCalendar (hm : request.method = "DELETE") :
    (handleDeleteCalendar calendarId).Only
      (Op.Within (MayWrite request user calendarId none)) := by
  refine only_bind ?_ fun _ => trivial
  unfold deleteCalendar
  refine only_except_bind (only_sql (Or.inr (.deleteCalendar hm))) fun rows => ?_
  split <;> exact trivial

theorem within_handleMkcalendar (hm : request.method = "MKCALENDAR") (username : String) :
    (handleMkcalendar lib user username calendarId request).Only
      (Op.Within (MayWrite request user calendarId none)) := by
  have hcreate : ∀ name color,
      (createCalendarWithId calendarId user.id name "" color "UTC").run.Only
        (Op.Within (MayWrite request user calendarId none)) := by
    intro name color
    unfold createCalendarWithId newSyncToken
    refine only_except_bind (only_except_bind (only_nowV7 trivial) fun _ => trivial) fun token => ?_
    refine only_except_bind (only_sql (Or.inr (.mkcalendar _ hm rfl rfl))) fun _ => ?_
    refine only_except_bind (only_sql (Or.inl trivial)) fun cal => ?_
    cases cal <;> exact trivial
  unfold handleMkcalendar
  split
  · exact trivial
  · refine only_bind (only_sql (Or.inl trivial)) fun found => ?_
    rcases found with e | (_ | cal)
    · refine only_bind (hcreate _ _) fun r => ?_
      cases r <;> exact trivial
    · refine only_bind (hcreate _ _) fun r => ?_
      cases r <;> exact trivial
    · exact trivial

theorem within_updateCalendar (hm : request.method = "PROPPATCH")
    (name description color timezone : Option String) :
    (updateCalendar calendarId name description color timezone).run.Only
      (Op.Within (MayWrite request user calendarId none)) := by
  unfold updateCalendar
  refine only_except_bind (only_sql (Or.inl trivial)) fun found => ?_
  cases found with
  | none => exact trivial
  | some row =>
    refine only_except_bind (only_sql (Or.inr (.proppatch _ _ _ _ hm))) fun rows => ?_
    refine only_except_bind (only_sql (Or.inl trivial)) fun found => ?_
    cases found <;> exact trivial

end

/-! ## The whole request -/

section

variable {lib : Lib} {route : Route} {request : Request} {user : User} {calendarId : String}
  {filename? : Option String} {hist : List (Event Op Op.Resp)}

/-- From its checks on, a request may do what its method may write. -/
theorem justified_within {α : Type} {p : Action α} (htarget : route.target? = some (calendarId, filename?))
    (hcredible : Credible lib route request user) (hfound : Found hist user)
    (hgranted : request.method ≠ "MKCALENDAR" → Granted hist user calendarId)
    (hp : p.Only (Op.Within (MayWrite request user calendarId filename?))) :
    p.Justified KeyedAnswer (Justifies lib route request) (fun _ _ => True) hist := by
  refine (justified_of_only hp fun hist' hsub o ho => ?_).mono fun _ _ _ => trivial
  cases o with
  | newV4 | nowV7 | salt | utcNow => exact trivial
  | sql s =>
    obtain hread | hwrite := ho
    · exact Or.inl hread
    · exact Or.inr ⟨user, calendarId, filename?, htarget, hcredible, hfound.mono hsub.suffix,
        fun hm => (hgranted hm).mono hsub.suffix, hwrite⟩

/-- PROPPATCH updates the row it has read, which is the row of its calendar. -/
theorem justified_handleProppatch (htarget : route.target? = some (calendarId, none))
    (hcredible : Credible lib route request user) (hfound : Found hist user)
    (hgranted : request.method ≠ "MKCALENDAR" → Granted hist user calendarId)
    (hm : request.method = "PROPPATCH") (hrefCtx : Option HrefContext) :
    (handleProppatch lib user hrefCtx calendarId request).Justified KeyedAnswer
      (Justifies lib route request) (fun _ _ => True) hist := by
  have hread : (getCalendarById calendarId).run.Justified KeyedAnswer
      (Justifies lib route request)
      (fun hist' r => hist <:+ hist' ∧ ∀ cal, r = .ok (some cal) → cal.id = calendarId) hist := by
    refine ⟨Or.inl trivial, fun r hr => ?_⟩
    cases r with
    | ok found => exact ⟨List.suffix_cons _ _, fun cal h => hr cal (congrArg _ (Except.ok.inj h))⟩
    | error e => exact ⟨List.suffix_cons _ _, nofun⟩
  unfold handleProppatch
  refine justified_bind hread fun hist' r h => ?_
  rcases r with e | (_ | cal)
  · exact trivial
  · exact trivial
  · dsimp only
    rw [h.2 cal rfl]
    refine justified_within htarget hcredible (hfound.mono h.1) (fun hne => (hgranted hne).mono h.1) ?_
    refine only_bind (within_updateCalendar hm ..) fun r => ?_
    cases r <;> exact trivial

theorem justified_collectionMethods (htarget : route.target? = some (calendarId, none))
    (hcredible : Credible lib route request user) (hfound : Found hist user)
    (hgranted : request.method ≠ "MKCALENDAR" → Granted hist user calendarId)
    (hrefCtx : Option HrefContext) (username : String) :
    (collectionMethods lib user hrefCtx username calendarId request).Justified KeyedAnswer
      (Justifies lib route request) (fun _ _ => True) hist := by
  unfold collectionMethods
  split
  · exact justified_reads (only_handlePropfindCalendar ..)
  · split
    · exact justified_reads (only_handleReport ..)
    · split
      · rename_i hm
        exact justified_within htarget hcredible hfound hgranted (within_handleMkcalendar hm username)
      · split
        · rename_i hm
          exact justified_handleProppatch htarget hcredible hfound hgranted hm hrefCtx
        · split
          · rename_i hm
            exact justified_within htarget hcredible hfound hgranted (within_handleDeleteCalendar hm)
          · exact trivial

theorem justified_collectionFor (htarget : route.target? = some (calendarId, none))
    (hcredible : Credible lib route request user) (hfound : Found hist user)
    (hrefCtx : Option HrefContext) (username : String) :
    (collectionFor lib user hrefCtx username calendarId request).Justified KeyedAnswer
      (Justifies lib route request) (fun _ _ => True) hist := by
  unfold collectionFor
  split
  · refine justified_bind (justified_verifyCalendarAccess user calendarId) fun hist' passed h => ?_
    split
    · rename_i hpassed
      exact justified_collectionMethods htarget hcredible (hfound.mono h.1)
        (fun _ => h.2 hpassed) hrefCtx username
    · exact trivial
  · rename_i hm
    exact justified_collectionMethods htarget hcredible hfound (fun hne => absurd hne hm) hrefCtx
      username

theorem justified_objectFor {filename : String}
    (htarget : route.target? = some (calendarId, some filename))
    (hcredible : Credible lib route request user) (hfound : Found hist user) :
    (objectFor user calendarId filename request).Justified KeyedAnswer
      (Justifies lib route request) (fun _ _ => True) hist := by
  unfold objectFor
  refine justified_bind (justified_verifyCalendarAccess user calendarId) fun hist' passed h => ?_
  split
  · rename_i hpassed
    exact justified_within htarget hcredible (hfound.mono h.1) (fun _ => h.2 hpassed)
      within_objectMethods
  · exact trivial

/-- What is served is justified once the user has been found. -/
theorem justified_serve (hr : route.NeedsUser) (hcredible : Credible lib route request user)
    (hfound : Found hist user) :
    (serve lib request user route).Justified KeyedAnswer (Justifies lib route request)
      (fun _ _ => True) hist := by
  cases route with
  | emailCollection email calendarId => exact justified_collectionFor rfl hcredible hfound _ _
  | calendarCollection username calendarId => exact justified_collectionFor rfl hcredible hfound _ _
  | emailObject email calendarId filename => exact justified_objectFor rfl hcredible hfound
  | object username calendarId filename => exact justified_objectFor rfl hcredible hfound
  | calendarHome username =>
    exact justified_reads (only_serve_home lib request user username)
  | _ => exact hr.elim

/-- The routes that look for a user look for it first. -/
theorem handle_eq_withUser (hr : route.NeedsUser) :
    handle lib route request =
      withUser (routeUser lib route request) request fun user => serve lib request user route := by
  cases route with
  | emailCollection | calendarCollection | emailObject | object | calendarHome => rfl
  | _ => exact hr.elim

/-- **One request**, whatever it is answered. -/
theorem justified_handle (lib : Lib) (route : Route) (request : Request) :
    (handle lib route request).Justified KeyedAnswer (Justifies lib route request)
      (fun _ _ => True) [] := by
  by_cases hr : route.NeedsUser
  · rw [handle_eq_withUser hr]
    unfold withUser
    split
    · exact trivial
    · refine justified_bind (justified_routeUser hr) fun hist' found h => ?_
      cases found with
      | none => exact trivial
      | some user =>
        obtain ⟨hfound, hcredible⟩ := h user rfl
        exact justified_serve hr hcredible hfound
  · exact justified_reads (only_discovery request hr)

end

/-! ## Runs -/

/-- A write of a request in a run: whom it is made for, and what has come before it. `state` are
    the states of the run, by the steps taken so far. -/
structure Mediated (lib : Lib) (route : Route) (request : Request) (state : List Nat → World)
    (sched : List Nat) (s : Sql) (user : User) (calendarId : String)
    (filename? : Option String) : Prop where
  target : route.target? = some (calendarId, filename?)
  credible : Credible lib route request user
  known : ∃ before, before <+: sched ∧ user ∈ (state before).db.users
  allowed : request.method ≠ "MKCALENDAR" →
    ∃ before, before <+: sched ∧ ((state before).db.permissionOf calendarId user.id).isSome
  writes : MayWrite request user calendarId filename? s

/-- **No write without a check.** In any interleaving of any programs, whichever statements fail:
    when a CalDAV request is about to send a statement that writes, the request may speak for a
    user who was in the database earlier in the run, the statement is one its method may write
    to the calendar and the object of its path, and earlier in the run that user had a
    permission on the calendar (or the method is MKCALENDAR, and the calendar is the user's). -/
theorem writes_mediated (env : Env) (lib : Lib) (message : String) (fails : Nat → Bool)
    (w : World) (ps : List (Action Reply)) (i : Nat) (route : Route) (request : Request)
    (hi : ps[i]? = some (handle lib route request)) (sched : List Nat)
    (t : Thread Op Op.Resp Reply) (s : Sql)
    (ht : ((Pool.start (w, 0) ps).exec (faultyExec env message fails) sched).threads[i]? = some t)
    (ho : t.next? = some (.sql s)) (hs : ¬ s.Reads) :
    ∃ user calendarId filename?, Mediated lib route request
      (fun before => ((Pool.start (w, 0) ps).exec (faultyExec env message fails) before).state.1)
      sched s user calendarId filename? := by
  have hjust := Pool.next_justified keyedAnswer_faultyExec hi (justified_handle lib route request)
    sched ht ho
  obtain hread | ⟨user, calendarId, filename?, hcause⟩ := hjust
  · exact absurd hread hs
  · refine ⟨user, calendarId, filename?, hcause.target, hcause.credible, ?_, ?_, hcause.writes⟩
    · obtain ⟨name, h⟩ | ⟨email, h⟩ := hcause.found
      · obtain ⟨before, hbefore, ha⟩ := Pool.seen_earlier sched ht h
        exact ⟨before, hbefore, List.mem_of_find?_eq_some (Except.ok.inj (faultyExec_ok ha.symm))⟩
      · obtain ⟨before, hbefore, ha⟩ := Pool.seen_earlier sched ht h
        exact ⟨before, hbefore, List.mem_of_find?_eq_some (Except.ok.inj (faultyExec_ok ha.symm))⟩
    · intro hm
      obtain ⟨cals, h, cal, hcal, rfl⟩ := hcause.granted hm
      obtain ⟨before, hbefore, ha⟩ := Pool.seen_earlier sched ht h
      refine ⟨before, hbefore, ?_⟩
      have hcals := Except.ok.inj (faultyExec_ok ha.symm)
      refine (Db.ok _).mem_calendarsFor_ids.mp (List.mem_map.mpr ⟨cal, ?_, rfl⟩)
      rw [← hcals] at hcal
      exact hcal

/-- Alice deletes her calendar while somebody else sends the same request: her access has been
    checked, and the next statement is the DELETE. -/
def twoDeletions : List (Action Reply) :=
  [handle sampleLib (.calendarCollection "alice" "work") ⟨"DELETE", [], ByteArray.empty⟩,
    handle sampleLib (.calendarCollection "bob" "work") ⟨"DELETE", [], ByteArray.empty⟩]

theorem writes_mediated_deletion :
    ∃ user calendarId filename?, Mediated sampleLib (.calendarCollection "alice" "work")
      ⟨"DELETE", [], ByteArray.empty⟩
      (fun before => ((Pool.start (foundedWorld, 0) twoDeletions).exec
        (faultyExec countingEnv "disk I/O error" (· = 3)) before).state.1)
      [0, 1, 0] (.deleteCalendar "work") user calendarId filename? :=
  writes_mediated countingEnv sampleLib "disk I/O error" (· = 3) foundedWorld twoDeletions 0
    (.calendarCollection "alice" "work") ⟨"DELETE", [], ByteArray.empty⟩ rfl [0, 1, 0] _
    (.deleteCalendar "work") rfl rfl id

end CaldavMcp
