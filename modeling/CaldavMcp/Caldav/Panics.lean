/-
  Which requests panic.

  An unwrap of a handler fails where the `User` extension is missing, or where a response header
  is not a valid one. The extension is never missing (`Extensions.handle_eq`). Of the values in
  headers only two are not constants: the etag of an object, and the username of
  "/caldav/principals/username/", which is put into `Location` as the router decoded it.

  An etag is a header value whatever happened before: `etagContract` says so of each operation,
  the rows it writes and the rows it answers, and `Program.Prog.Meets` carries it through the
  handlers. So what is left is the username, and `panics_iff` says which ones panic.
-/
import CaldavMcp.Caldav.Extensions
import CaldavMcp.Caldav.Paths
import CaldavMcp.Caldav.Users
import CaldavMcp.Program.Contracts

namespace CaldavMcp

open Program

/-! ## Etags are header values -/

/-- A row is written with an etag that is a header value, and found with one. -/
def etagContract : Contract Op Op.Resp where
  pre
    | .sql (.insertObject o) => validHeaderValue o.etag = true
    | .sql (.updateObject etag _ _ _ _) => validHeaderValue etag = true
    | _ => True
  post
    | .sql (.selectObjectByUid _ _), r => ∀ o, r = .ok (some o) → validHeaderValue o.etag = true
    | .newV4, uuid => uuid.toList.all isUuidChar = true
    | _, _ => True

/-- Every stored etag is a header value. -/
def EtagsValid (w : World) : Prop := ∀ o ∈ w.db.calendarObjects, validHeaderValue o.etag = true

/-- Each operation answers within the contract and stores no other etag. -/
theorem exec_etags (env : Env) : Handler.Keeps (exec env) etagContract EtagsValid := by
  intro o w hpre h
  constructor
  · cases o with
    | newV4 => exact env.uuid_chars w.drawn
    | nowV7 | salt | utcNow => exact trivial
    | sql s =>
      cases s with
      | selectObjectByUid calendarId uid =>
        exact fun o ho => h o (List.mem_of_find?_eq_some (Except.ok.inj ho))
      | _ => exact trivial
  · intro r hr
    obtain hr | rfl | ⟨etag, icalData, fields, r', -, rfl, rfl⟩ := mem_objects_exec hr
    · exact h r hr
    · exact hpre
    · exact hpre

theorem Op.Reads.etagPre (o : Op) (h : o.Reads) : etagContract.pre o := by
  cases o with
  | sql s => cases s <;> first | exact trivial | exact h.elim
  | newV4 | nowV7 | salt | utcNow => exact trivial

/-! ## What a call promises -/

theorem meets_sql {c : Contract Op Op.Resp} {s : Sql} {Q : Except AppError s.Rows → Prop}
    (hpre : c.pre (.sql s)) (hok : ∀ a, c.post (.sql s) (.ok a) → Q (.ok a))
    (herror : ∀ e, Q (.error (.database e))) : (sql s).run.Meets c Q := by
  refine ⟨hpre, fun r hr => ?_⟩
  cases r with
  | ok a => exact hok a hr
  | error e => exact herror e

/-- The row found has an etag that is a header value. -/
theorem meets_getObjectByUid (calendarId uid : String) :
    (getObjectByUid calendarId uid).run.Meets etagContract
      fun r => ∀ found, r = .ok found → ∀ o ∈ found, validHeaderValue o.etag = true := by
  apply meets_sql trivial
  · intro found hpost r hr o ho
    obtain rfl := Except.ok.inj hr
    exact hpost o (congrArg Except.ok ho)
  · exact fun e found h => nomatch h

/-- The outcome of an upsert: the row it answers has such an etag. -/
def UpsertAnswers (r : Except AppError (CalendarObject × Bool)) : Prop :=
  ∀ answer, r = .ok answer → validHeaderValue answer.1.etag = true

theorem meets_upsertLog (calendarId uid token : String) (isNew : Bool) :
    (upsertLog calendarId uid token isNew).Meets etagContract UpsertAnswers := by
  have herror : ∀ e, UpsertAnswers (.error e) := fun e answer h => nomatch h
  have hread : (upsertRead calendarId uid isNew).Meets etagContract UpsertAnswers := by
    refine ⟨trivial, fun r hr => ?_⟩
    rcases r with e | (_ | obj)
    · exact herror _
    · exact herror _
    · intro answer ha
      rw [← Except.ok.inj ha]
      exact hr obj rfl
  have hbump : (upsertBump calendarId uid isNew).Meets etagContract UpsertAnswers := by
    refine ⟨trivial, fun b _ => ⟨trivial, fun r _ => ?_⟩⟩
    cases r with
    | ok _ => exact hread
    | error e => exact herror _
  refine ⟨trivial, fun r _ => ?_⟩
  cases r with
  | ok _ => exact hbump
  | error e => exact herror _

theorem meets_upsertObject (calendarId uid icalData : String) (fields : ObjectFields) :
    (upsertObject calendarId uid icalData fields).run.Meets etagContract UpsertAnswers := by
  have herror : ∀ e, UpsertAnswers (.error e) := fun e answer h => nomatch h
  rw [upsertObject_run]
  refine ⟨trivial, fun found _ => ?_⟩
  rcases found with e | (_ | o)
  · exact herror _
  · refine ⟨trivial, fun v hv => ⟨trivial, fun t _ => ⟨trivial, fun id _ => ?_⟩⟩⟩
    refine ⟨validHeaderValue_etagOf hv, fun r _ => ?_⟩
    cases r with
    | ok _ => exact meets_upsertLog ..
    | error e => exact herror _
  · refine ⟨trivial, fun v hv => ⟨trivial, fun t _ => ?_⟩⟩
    refine ⟨validHeaderValue_etagOf hv, fun r _ => ?_⟩
    cases r with
    | ok _ => exact meets_upsertLog ..
    | error e => exact herror _

section

variable {env : Env} {lib : Lib} {w : World}

/-- **One call.** -/
theorem meets_dbCall {α : Type} {c : Call α} (hc : DbCall lib c) :
    c.run.Meets etagContract fun _ => True := by
  cases hc with
  | createUser username email password =>
    exact (only_createUser trivial trivial (fun _ => trivial) (fun _ => trivial) username email
      password).meets
  | resetPassword username newPassword =>
    exact (only_resetPassword trivial (fun _ _ => trivial) username newPassword).meets
  | createCalendar ownerId name description color timezone =>
    exact Prog.Only.meets (only_except_bind (only_nowV7 trivial) fun id =>
      only_createCalendarWithId trivial (fun _ => trivial) (fun _ => trivial) id ownerId name
        description color timezone)
  | createCalendarWithId id ownerId name description color timezone =>
    exact (only_createCalendarWithId trivial (fun _ => trivial) (fun _ => trivial) id ownerId name
      description color timezone).meets
  | updateCalendar id name description color timezone =>
    exact (only_updateCalendar (fun _ => trivial) (fun _ _ _ _ _ => trivial) id name description
      color timezone).meets
  | deleteCalendar id => exact (only_deleteCalendar (fun _ => trivial) id).meets
  | shareCalendar calendarId userId permission =>
    exact (only_shareCalendar trivial (fun _ => trivial) (fun _ _ => trivial) calendarId userId
      permission).meets
  | unshareCalendar calendarId userId =>
    exact (only_unshareCalendar (fun _ _ => trivial) calendarId userId).meets
  | write x =>
    cases x with
    | upsert calendarId uid icalData fields =>
      have hupsert : (upsertObject calendarId uid icalData fields).run.Meets etagContract
          fun r => ∀ answer, r = .ok answer → True :=
        (meets_upsertObject calendarId uid icalData fields).mono fun _ _ _ _ => trivial
      exact meets_except_bind hupsert (fun _ => trivial) fun _ _ => trivial
    | delete calendarId uid =>
      exact (only_deleteObject trivial trivial (fun _ => trivial) fun _ _ => trivial).meets

/-- **A whole run.** Every stored etag is a header value. -/
theorem Reachable.etagsValid (hw : Reachable env lib w) : EtagsValid w := by
  induction hw with
  | init => exact nofun
  | draw n _ ih => exact ih
  | call hc _ ih => exact (run_meets (exec_etags env) (meets_dbCall hc) ih).2

end

/-! ## The handlers -/

/-- The program answers a response, whatever rows it is answered. -/
abbrev NoPanic (p : Action Reply) : Prop := p.Meets etagContract (· ≠ .panicked)

section

variable {lib : Lib} {request : Request}

theorem noPanic_multistatus (doc : Multistatus) : multistatusResponse doc ≠ .panicked := by
  rw [multistatusResponse_eq]
  exact nofun

theorem buildResponse_ne {status : Nat} {headers : List (String × String)} {body : Body}
    (h : ∀ header ∈ headers, validHeaderValue header.2 = true) :
    buildResponse status headers body ≠ .panicked := by
  unfold buildResponse
  rw [if_pos (List.all_eq_true.mpr h)]
  exact nofun

theorem noPanic_handleGet (calendarId filename : String) : NoPanic (handleGet calendarId filename) := by
  unfold handleGet
  apply meets_bind.mpr
  apply (meets_getObjectByUid calendarId (filename.trimEnds ".ics")).mono
  intro r hr
  rcases r with e | (_ | o)
  · exact nofun
  · exact nofun
  · apply buildResponse_ne
    rw [List.forall_mem_cons, List.forall_mem_singleton]
    exact ⟨by decide, hr (some o) rfl o rfl⟩

theorem meets_checkIfMatch (ifMatch : Option String) (calendarId uid : String) :
    (checkIfMatch ifMatch calendarId uid).Meets etagContract
      fun refusal => ∀ reply ∈ refusal, reply ≠ .panicked := by
  have hplain : ∀ status text, ∀ reply ∈ some (plain status text), reply ≠ .panicked := by
    intro status text reply hreply
    rw [← Option.mem_some_iff.mp hreply]
    exact nofun
  unfold checkIfMatch
  cases ifMatch with
  | none => exact nofun
  | some expectedEtag =>
    dsimp only
    split
    · exact nofun
    · apply meets_after (only_sql trivial)
      intro r
      rcases r with e | (_ | existing)
      · exact hplain _ _
      · exact hplain _ _
      · dsimp only
        split
        · exact hplain _ _
        · exact nofun

theorem noPanic_handlePut (calendarId filename : String) :
    NoPanic (handlePut calendarId filename request) := by
  unfold handlePut
  split
  · cases String.fromUTF8? request.body with
    | none => exact nofun
    | some icalData =>
      unfold putObject
      apply meets_bind.mpr
      apply (meets_checkIfMatch _ calendarId (putUid filename icalData)).mono
      intro refusal hrefusal
      cases refusal with
      | some reply => exact hrefusal reply rfl
      | none =>
        apply meets_bind.mpr
        apply (meets_upsertObject calendarId _ icalData (fieldsOf icalData)).mono
        intro r hr
        cases r with
        | error e => exact nofun
        | ok answer => exact buildResponse_ne (List.forall_mem_singleton.mpr (hr answer rfl))
  · exact nofun

theorem deleteReply_ne (missing : String) (r : Except AppError Unit) :
    deleteReply missing r ≠ .panicked := by
  unfold deleteReply
  split <;> exact nofun

theorem noPanic_handleDeleteObject (calendarId filename : String) :
    NoPanic (handleDeleteObject calendarId filename) :=
  meets_after (only_deleteObject trivial trivial (fun _ => trivial) fun _ _ => trivial)
    (deleteReply_ne _)

theorem noPanic_handleDeleteCalendar (calendarId : String) :
    NoPanic (handleDeleteCalendar calendarId) :=
  meets_after (only_deleteCalendar (fun _ => trivial) calendarId) (deleteReply_ne _)

theorem noPanic_handleMkcalendar (user : User) (username calendarId : String) :
    NoPanic (handleMkcalendar lib user username calendarId request) := by
  have hcreate : ∀ name color,
      (createCalendarWithId calendarId user.id name "" color "UTC").run.Only etagContract.pre :=
    fun name color => only_createCalendarWithId trivial (fun _ => trivial) (fun _ => trivial)
      calendarId user.id name "" color "UTC"
  unfold handleMkcalendar
  split
  · exact nofun
  · apply meets_after (only_sql trivial)
    intro found
    rcases found with e | (_ | r)
    · apply meets_after (hcreate _ _)
      intro created
      cases created <;> exact nofun
    · apply meets_after (hcreate _ _)
      intro created
      cases created <;> exact nofun
    · exact nofun

theorem noPanic_handleProppatch (user : User) (hrefCtx : Option HrefContext) (calendarId : String) :
    NoPanic (handleProppatch lib user hrefCtx calendarId request) := by
  unfold handleProppatch
  apply meets_after (only_sql trivial)
  intro found
  rcases found with e | (_ | calendar)
  · exact nofun
  · exact nofun
  · apply meets_after (only_updateCalendar (fun _ => trivial) (fun _ _ _ _ _ => trivial) ..)
    intro r
    cases r with
    | error e => exact nofun
    | ok _ => exact buildResponse_ne (List.forall_mem_singleton.mpr (by decide))

/-- A program that only reads, and then writes a document. -/
theorem noPanic_document {α : Type} {p : Action α} (hp : p.Only Op.Reads) (doc : α → Multistatus) :
    NoPanic (p >>= fun a => pure (multistatusResponse (doc a))) :=
  meets_after (hp.mono Op.Reads.etagPre) fun a => noPanic_multistatus (doc a)

theorem noPanic_handlePropfindHome (user : User) :
    NoPanic (handlePropfindHome lib user request) := by
  unfold handlePropfindHome
  dsimp only
  split
  · exact noPanic_document (only_orEmpty (only_sql trivial)) _
  · exact noPanic_multistatus _

theorem noPanic_handlePropfindCalendar (user : User) (hrefCtx : Option HrefContext)
    (calendarId : String) : NoPanic (handlePropfindCalendar lib user hrefCtx calendarId request) := by
  unfold handlePropfindCalendar
  apply meets_after (only_sql trivial)
  intro found
  rcases found with e | (_ | calendar)
  · exact nofun
  · exact nofun
  · dsimp only
    split
    · exact noPanic_document (only_orEmpty (only_sql trivial)) _
    · exact noPanic_multistatus _

theorem noPanic_handleEmailHome (user : User) (requestPath : String) (depth : Nat) (email : String)
    (propfind : PropfindRequest) :
    NoPanic (handleEmailHome user requestPath depth email propfind) := by
  unfold handleEmailHome
  dsimp only
  split
  · exact noPanic_document (only_orEmpty (only_sql trivial)) _
  · exact noPanic_multistatus _

theorem noPanic_buffered {p : Action Reply} (hp : NoPanic p) (limit : Nat) :
    NoPanic (p >>= fun reply => pure (reply.buffered limit)) := by
  apply meets_bind.mpr
  apply hp.mono
  intro reply hreply
  cases reply with
  | response r => exact nofun
  | panicked => exact absurd rfl hreply

theorem noPanic_handleReport (user : User) (hrefCtx : Option HrefContext) (calendarId : String) :
    NoPanic (handleReport lib user hrefCtx calendarId request) := by
  unfold handleReport
  dsimp only
  cases parseReport lib (request.bodyUpTo (256 * 1024)) with
  | none => exact nofun
  | some report =>
    cases report with
    | calendarMultiget props hrefs =>
      exact noPanic_buffered (noPanic_document (only_orEmpty (only_getObjectsByUids ..)) _) _
    | calendarQuery props timeRange =>
      apply noPanic_buffered
      unfold handleQuery
      cases timeRange <;> exact noPanic_document (only_orEmpty (only_sql trivial)) _
    | syncCollection props syncToken =>
      apply noPanic_buffered
      apply meets_after ((only_syncDocument ..).mono Op.Reads.etagPre)
      intro doc
      cases doc with
      | none => exact nofun
      | some doc => exact noPanic_multistatus doc

/-! ## The dispatchers -/

theorem noPanic_ite {p q : Action Reply} {P : Prop} [Decidable P] (hp : NoPanic p)
    (hq : NoPanic q) : NoPanic (if P then p else q) := by
  split
  · exact hp
  · exact hq

theorem noPanic_collectionMethods (user : User) (hrefCtx : Option HrefContext)
    (username calendarId : String) :
    NoPanic (collectionMethods lib user hrefCtx username calendarId request) := by
  apply noPanic_ite (noPanic_handlePropfindCalendar user hrefCtx calendarId)
  apply noPanic_ite (noPanic_handleReport user hrefCtx calendarId)
  apply noPanic_ite (noPanic_handleMkcalendar user username calendarId)
  apply noPanic_ite (noPanic_handleProppatch user hrefCtx calendarId)
  exact noPanic_ite (noPanic_handleDeleteCalendar calendarId) nofun

theorem noPanic_objectMethods (calendarId filename : String) :
    NoPanic (objectMethods calendarId filename request) := by
  apply noPanic_ite (noPanic_handleGet calendarId filename)
  apply noPanic_ite (noPanic_handlePut calendarId filename)
  exact noPanic_ite (noPanic_handleDeleteObject calendarId filename) nofun

/-- Whatever is done once access has been checked. -/
theorem noPanic_verified {p : Action Reply} (hp : NoPanic p) (user : User) (calendarId : String) :
    NoPanic (do
      if ← verifyCalendarAccess user calendarId then p
      else return accessDenied) := by
  have hverify : (verifyCalendarAccess user calendarId).Only etagContract.pre := by
    refine only_bind (only_sql trivial) fun r => ?_
    cases r <;> exact trivial
  apply meets_after hverify
  exact fun _ => noPanic_ite hp nofun

theorem noPanic_collectionFor (user : User) (hrefCtx : Option HrefContext)
    (username calendarId : String) :
    NoPanic (collectionFor lib user hrefCtx username calendarId request) := by
  have hmethods := @noPanic_collectionMethods lib request user hrefCtx username calendarId
  exact noPanic_ite (noPanic_verified hmethods user calendarId) hmethods

theorem noPanic_objectFor (user : User) (calendarId filename : String) :
    NoPanic (objectFor user calendarId filename request) :=
  noPanic_verified (noPanic_objectMethods calendarId filename) user calendarId

theorem noPanic_withUser {auth : Action (Option User)} {k : User → Action Reply}
    (hauth : auth.Only Op.LooksUpUser) (hk : ∀ user, NoPanic (k user)) :
    NoPanic (withUser auth request k) := by
  apply noPanic_ite
  · exact nofun
  · apply meets_after ((hauth.mono Op.LooksUpUser.reads).mono Op.Reads.etagPre)
    intro found
    cases found with
    | none => exact nofun
    | some user => exact hk user

theorem noPanic_discoveryAnswer (href : String) : NoPanic (discoveryAnswer lib href request) := by
  apply meets_after (((only_inlineAuth _).mono Op.LooksUpUser.reads).mono Op.Reads.etagPre)
  intro found
  cases found <;> exact noPanic_multistatus _

theorem noPanic_handleCaldavEmailDiscovery (email : String) :
    NoPanic (handleCaldavEmailDiscovery lib email request) := by
  apply noPanic_ite
  · exact nofun
  · apply noPanic_ite
    · cases request.authHeader with
      | some h =>
        apply meets_after (((only_tryBasicAuth h).mono Op.LooksUpUser.reads).mono Op.Reads.etagPre)
        intro found
        cases found with
        | none => exact nofun
        | some user => exact noPanic_handleEmailHome ..
      | none =>
        apply meets_after (only_sql trivial)
        intro found
        rcases found with e | (_ | user)
        · exact nofun
        · exact nofun
        · exact noPanic_buffered (noPanic_handleEmailHome ..) _
    · exact nofun

/-! ## The redirect of a principal -/

/-- The username of the path has a control character other than the tab, and the method is not
    OPTIONS, which does not look at it. -/
def Unprintable (route : Route) (request : Request) : Prop :=
  match route with
  | .principal username => request.method ≠ "OPTIONS" ∧
    ∃ c ∈ username.toList, (c.toNat < 32 ∨ c.toNat = 127) ∧ c.toNat ≠ 9
  | _ => False

theorem validHeaderValue_iff (s : String) : validHeaderValue s = true ↔
    ¬ ∃ c ∈ s.toList, (c.toNat < 32 ∨ c.toNat = 127) ∧ c.toNat ≠ 9 := by
  unfold validHeaderValue
  rw [List.all_eq_true, not_exists]
  apply forall_congr'
  intro c
  simp only [Bool.or_eq_true, Bool.and_eq_true, decide_eq_true_eq]
  constructor
  · intro h hc
    have := h hc.1
    omega
  · intro h hc
    by_contra hne
    apply h
    refine ⟨hc, ?_⟩
    omega

theorem handlePrincipalDiscovery_ne_iff (username : String) (request : Request) :
    handlePrincipalDiscovery username request ≠ .panicked ↔
      ¬ Unprintable (.principal username) request := by
  unfold handlePrincipalDiscovery Unprintable
  dsimp only
  by_cases hm : request.method = "OPTIONS"
  · rw [if_pos hm]
    exact iff_of_true nofun fun h => h.1 hm
  · have hlocation : validHeaderValue ("/caldav/users/" ++ username ++ "/") =
        validHeaderValue username := by
      unfold validHeaderValue
      rw [String.toList_append, String.toList_append, List.all_append, List.all_append]
      have hstart : "/caldav/users/".toList.all
          (fun c => (32 ≤ c.toNat && c.toNat ≠ 127) || c.toNat = 9) = true := by decide
      have hslash : "/".toList.all
          (fun c => (32 ≤ c.toNat && c.toNat ≠ 127) || c.toNat = 9) = true := by decide
      rw [hstart, hslash, Bool.true_and, Bool.and_true]
    have hbuild : buildResponse 301 [("location", "/caldav/users/" ++ username ++ "/")]
        (.text "") ≠ .panicked ↔ validHeaderValue username = true := by
      unfold buildResponse
      rw [List.all_cons, List.all_nil, Bool.and_true, hlocation]
      by_cases hv : validHeaderValue username = true
      · rw [if_pos hv]
        exact iff_of_true nofun hv
      · rw [if_neg hv]
        exact iff_of_false (fun h => h rfl) hv
    rw [if_neg hm, hbuild, validHeaderValue_iff]
    exact not_congr (and_iff_right hm).symm

/-- **No request panics but one.** In every reachable state a request is answered, and no unwrap
    fails, exactly when it is not the redirect of a principal whose username has a control
    character. -/
theorem answered_iff (env : Env) (lib : Lib) {w : World} (hw : Reachable env lib w) (route : Route)
    (request : Request) :
    ((Extensions.handle lib request route).run (exec env) w).1 ≠ .panicked ↔
      ¬ Unprintable route request := by
  have hrun : NoPanic (handle lib route request) →
      ((handle lib route request).run (exec env) w).1 ≠ .panicked :=
    fun h => (run_meets (exec_etags env) h hw.etagsValid).1
  rw [Extensions.handle_eq]
  cases route with
  | principal username => exact handlePrincipalDiscovery_ne_iff username request
  | wellKnown =>
    refine iff_of_true (hrun ?_) id
    show handleWellKnown request ≠ .panicked
    unfold handleWellKnown
    split
    · exact nofun
    · exact buildResponse_ne (by decide)
  | serverRoot =>
    refine iff_of_true (hrun (noPanic_ite nofun (noPanic_ite (noPanic_discoveryAnswer "/") ?_))) id
    exact buildResponse_ne (by decide)
  | caldavRoot | fallback =>
    exact iff_of_true (hrun (noPanic_ite nofun (noPanic_ite (noPanic_discoveryAnswer "/caldav/")
      nofun))) id
  | emailHome email => exact iff_of_true (hrun (noPanic_handleCaldavEmailDiscovery email)) id
  | emailCollection email calendarId =>
    refine iff_of_true (hrun (noPanic_withUser (only_authOr _ (only_sql trivial)) ?_)) id
    exact fun user => noPanic_collectionFor ..
  | calendarCollection username calendarId =>
    refine iff_of_true (hrun (noPanic_withUser (only_authOr _ (only_sql trivial)) ?_)) id
    exact fun user => noPanic_collectionFor ..
  | emailObject email calendarId filename =>
    refine iff_of_true (hrun (noPanic_withUser (only_authOr _ (only_sql trivial)) ?_)) id
    exact fun user => noPanic_objectFor ..
  | object username calendarId filename =>
    refine iff_of_true (hrun (noPanic_withUser (only_authOr _ (only_sql trivial)) ?_)) id
    exact fun user => noPanic_objectFor ..
  | calendarHome username =>
    refine iff_of_true (hrun (noPanic_withUser (only_authOr _ (only_sql trivial)) ?_)) id
    exact fun user => noPanic_ite (noPanic_handlePropfindHome user) nofun

end

/-- A request without headers and body, at alice's object. -/
theorem answered_iff_alice : ((Extensions.handle sampleLib ⟨"GET", [], ByteArray.empty⟩
    (.object "alice" "work" "lunch.ics")).run (exec countingEnv) foundedWorld).1 ≠ .panicked :=
  (answered_iff countingEnv sampleLib foundedWorld_reachable (.object "alice" "work" "lunch.ics")
    ⟨"GET", [], ByteArray.empty⟩).mpr id

/-- The path of a principal with an escaped line break. -/
theorem line_break_panics : routeOf "/caldav/principals/a%0Ab/" = some (.principal "a\nb") ∧
    ¬ ∀ (env : Env) (lib : Lib) (w : World), Reachable env lib w → ∀ route request,
      ((Extensions.handle lib request route).run (exec env) w).1 ≠ .panicked := by
  refine ⟨by decide, fun h => ?_⟩
  exact h countingEnv sampleLib foundedWorld foundedWorld_reachable (.principal "a\nb")
    ⟨"GET", [], ByteArray.empty⟩ (by decide)

end CaldavMcp
