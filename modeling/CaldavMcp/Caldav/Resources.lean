/-
  PUT, GET and DELETE of one URL.

  A PUT stores its body under the uid the body gives and falls back to the filename of the URL;
  GET and DELETE go by the filename alone. So an object is found again where it was put exactly
  when the two agree (`identified_iff`). When they do not, the URL that was put to does not
  show the body, and the object another URL shows may have been overwritten.
-/
import CaldavMcp.Caldav.Outcomes

namespace CaldavMcp

open Program

/-- How a path names its user. -/
inductive PathUser where
  | username (name : String)
  | email (address : String)
  deriving DecidableEq, Repr

/-- The route of a calendar object. -/
def PathUser.object (p : PathUser) (calendarId filename : String) : Route :=
  match p with
  | .username name => .object name calendarId filename
  | .email address => .emailObject address calendarId filename

/-- The route of a calendar collection. -/
def PathUser.collection (p : PathUser) (calendarId : String) : Route :=
  match p with
  | .username name => .calendarCollection name calendarId
  | .email address => .emailCollection address calendarId

/-- The same client's request with another method. -/
def Request.withMethod (r : Request) (method : String) : Request := { r with method := method }

/-- The client's user may use the calendar. -/
def Admitted (env : Env) (lib : Lib) (w : World) (p : PathUser) (request : Request)
    (calendarId : String) : Prop :=
  ∃ user, Resolves env lib w (p.object calendarId "") request user ∧
    (w.db.permissionOf calendarId user.id).isSome

section

variable {env : Env} {lib : Lib} {w w' : World} {p : PathUser} {request : Request}
  {calendarId filename : String}

theorem PathUser.object_needsUser : (p.object calendarId filename).NeedsUser := by
  cases p <;> exact trivial

/-- The user does not depend on the method, nor on the rest of the path. -/
theorem routeUser_object (p : PathUser)
    (calendarId filename calendarId' filename' method : String) :
    routeUser lib (p.object calendarId filename) (request.withMethod method) =
      routeUser lib (p.object calendarId' filename') request := by
  cases p <;> rfl

theorem handle_admitted (ha : Admitted env lib w p request calendarId) {method : String}
    (hm : method ≠ "OPTIONS") :
    (handle lib (p.object calendarId filename) (request.withMethod method)).run (exec env) w =
      (objectMethods calendarId filename (request.withMethod method)).run (exec env) w := by
  obtain ⟨user, hu, hp⟩ := ha
  have hu' : Resolves env lib w (p.object calendarId filename) (request.withMethod method)
      user := by
    unfold Resolves
    rwa [routeUser_object p calendarId filename calendarId ""]
  rw [handle_resolved PathUser.object_needsUser hm hu']
  have hserve : serve lib (request.withMethod method) user (p.object calendarId filename) =
      objectFor user calendarId filename (request.withMethod method) := by
    cases p <;> rfl
  rw [hserve, objectFor_run, if_pos hp]

/-- Who is not admitted is refused. -/
theorem handle_not_admitted (ha : ¬ Admitted env lib w p request calendarId) {method : String}
    (hm : method ≠ "OPTIONS") :
    ((handle lib (p.object calendarId filename) (request.withMethod method)).run
      (exec env) w).1 = unauthorizedResponse ∨
    ((handle lib (p.object calendarId filename) (request.withMethod method)).run
      (exec env) w).1 = accessDenied := by
  rw [handle_run PathUser.object_needsUser hm]
  cases hu : ((routeUser lib (p.object calendarId filename) (request.withMethod method)).run
      (exec env) w).1 with
  | none => exact Or.inl rfl
  | some user =>
    refine Or.inr ?_
    rw [routeUser_object p calendarId filename calendarId ""] at hu
    have hserve : serve lib (request.withMethod method) user (p.object calendarId filename) =
        objectFor user calendarId filename (request.withMethod method) := by
      cases p <;> rfl
    dsimp only
    rw [hserve, objectFor_run, if_neg fun hp => ha ⟨user, hu, hp⟩]

/-- The writes of objects leave everybody's access as it is. -/
theorem Admitted.of_sameOwners (h : Tables.SameOwners w.db.toTables w'.db.toTables)
    (ha : Admitted env lib w p request calendarId) : Admitted env lib w' p request calendarId := by
  obtain ⟨user, hu, hp⟩ := ha
  refine ⟨user, ?_, ?_⟩
  · unfold Resolves
    rw [routeUser_congr h.users]
    exact hu
  · rwa [h.permissionOf]

theorem handleGet_run (env : Env) (w : World) (calendarId filename : String) :
    (handleGet calendarId filename).run (exec env) w =
      (match w.db.objectByUid calendarId (filename.trimEnds ".ics") with
        | some obj => buildResponse 200 [("content-type", "text/calendar; charset=utf-8"),
            ("etag", obj.etag)] (.text obj.icalData)
        | none => plain 404 "Object not found", w) := by
  have hget : (getObjectByUid calendarId (filename.trimEnds ".ics")).run.run (exec env) w =
    (.ok (w.db.objectByUid calendarId (filename.trimEnds ".ics")), w) := rfl
  unfold handleGet
  dsimp only
  rw [run_bind, hget]
  cases w.db.objectByUid calendarId (filename.trimEnds ".ics") <;> rfl

end

/-! ## The three methods on one URL -/

/-- A client sends a request to the URL of an object. -/
def send (env : Env) (lib : Lib) (p : PathUser) (request : Request) (calendarId filename method :
    String) (w : World) : Reply × World :=
  (handle lib (p.object calendarId filename) (request.withMethod method)).run (exec env) w

/-- What is asked of a PUT of `body` answered with the ETag `e`: GET of its URL shows the body,
    DELETE removes it, and what another URL shows of another object has not changed. -/
structure Identified (env : Env) (lib : Lib) (p : PathUser) (request : Request)
    (calendarId filename body e : String) (w : World) : Prop where
  get : (send env lib p request calendarId filename "GET"
      (send env lib p request calendarId filename "PUT" w).2).1.status? = some 200 ∧
    (send env lib p request calendarId filename "GET"
      (send env lib p request calendarId filename "PUT" w).2).1.bytes? = some body.toUTF8 ∧
    (send env lib p request calendarId filename "GET"
      (send env lib p request calendarId filename "PUT" w).2).1.header? "etag" = some e
  delete : (send env lib p request calendarId filename "DELETE"
    (send env lib p request calendarId filename "PUT" w).2).1.Success
  gone : (send env lib p request calendarId filename "GET"
    (send env lib p request calendarId filename "DELETE"
      (send env lib p request calendarId filename "PUT" w).2).2).1.status? = some 404
  others : ∀ filename', filename'.trimEnds ".ics" ≠ filename.trimEnds ".ics" →
    (w.db.objectByUid calendarId (filename'.trimEnds ".ics")).isSome →
    (send env lib p request calendarId filename' "GET"
      (send env lib p request calendarId filename "PUT" w).2).1 =
      (send env lib p request calendarId filename' "GET" w).1

/-- A PUT is answered with a success and an ETag. -/
def PutAnswers (reply : Reply) (e : String) : Prop :=
  (reply.status? = some 201 ∨ reply.status? = some 204) ∧ reply.header? "etag" = some e

section

variable {env : Env} {lib : Lib} {w w' : World} {p : PathUser} {request : Request}
  {calendarId filename body e : String}

theorem send_get (ha : Admitted env lib w p request calendarId) :
    send env lib p request calendarId filename "GET" w =
      (handleGet calendarId filename).run (exec env) w :=
  handle_admitted ha (by decide)

theorem send_put (ha : Admitted env lib w p request calendarId) :
    send env lib p request calendarId filename "PUT" w =
      (handlePut calendarId filename (request.withMethod "PUT")).run (exec env) w :=
  handle_admitted ha (by decide)

theorem send_delete (ha : Admitted env lib w p request calendarId) :
    send env lib p request calendarId filename "DELETE" w =
      (handleDeleteObject calendarId filename).run (exec env) w :=
  handle_admitted ha (by decide)

/-- A PUT that is answered with a success was admitted, and stored its body. -/
theorem put_answered (hbody : request.body = body.toUTF8)
    (hsize : body.toUTF8.size ≤ 1024 * 1024)
    (hif : request.headers.lookup "if-match" = none)
    (hput : PutAnswers (send env lib p request calendarId filename "PUT" w).1 e) :
    Admitted env lib w p request calendarId ∧ validHeaderValue e ∧
      ∃ o isNew, o.etag = e ∧ (upsertObject calendarId (putUid filename body) body
        (fieldsOf body)).run.run (exec env) w =
        (.ok (o, isNew), (send env lib p request calendarId filename "PUT" w).2) := by
  have ha : Admitted env lib w p request calendarId := by
    by_contra hn
    unfold PutAnswers send at hput
    rcases @handle_not_admitted env lib w p request calendarId filename hn "PUT" (by decide)
      with h | h
    · rw [h] at hput
      simp [Reply.status?, unauthorizedResponse] at hput
    · rw [h] at hput
      simp [Reply.status?, accessDenied, plain] at hput
  refine ⟨ha, ?_⟩
  have hstores : PutStores w.db.toTables calendarId filename (request.withMethod "PUT") body := by
    refine ⟨?_, ?_, ?_⟩
    · show request.body.size ≤ _
      rwa [hbody]
    · show String.fromUTF8? request.body = _
      rw [hbody, String.fromUTF8?_toUTF8]
    · show IfMatchPasses _ _ _ (request.header? "if-match")
      unfold Request.header?
      rw [hif]
      exact trivial
  rw [send_put ha, handlePut_stores hstores] at hput ⊢
  generalize hrun : (upsertObject calendarId (putUid filename body) body
    (fieldsOf body)).run.run (exec env) w = run at hput ⊢
  obtain ⟨r, w₁⟩ := run
  obtain ⟨hstatus, hetag⟩ := hput
  dsimp only at hstatus hetag
  cases r with
  | error err =>
    simp [putReply, plain, Reply.status?] at hstatus
  | ok answer =>
    obtain ⟨o, isNew⟩ := answer
    unfold putReply buildResponse at hstatus hetag
    dsimp only at hstatus hetag
    split at hetag
    · rename_i hvalid
      have he : o.etag = e := Option.some.inj hetag
      refine ⟨?_, o, isNew, he, rfl⟩
      rw [← he]
      simpa using hvalid
    · cases hetag

/-- What a GET shows of a stored object. -/
theorem send_get_found (ha : Admitted env lib w p request calendarId) {o : CalendarObject}
    (ho : w.db.objectByUid calendarId (filename.trimEnds ".ics") = some o)
    (hv : validHeaderValue o.etag) :
    (send env lib p request calendarId filename "GET" w).1 =
      .response ⟨200, [("content-type", "text/calendar; charset=utf-8"), ("etag", o.etag)],
        .text o.icalData⟩ := by
  rw [send_get ha, handleGet_run, ho]
  unfold buildResponse
  dsimp only
  rw [List.all_cons, List.all_cons, hv, if_pos (by decide)]

theorem send_get_missing (ha : Admitted env lib w p request calendarId)
    (ho : w.db.objectByUid calendarId (filename.trimEnds ".ics") = none) :
    (send env lib p request calendarId filename "GET" w).1 = plain 404 "Object not found" := by
  rw [send_get ha, handleGet_run, ho]

/-- The ETag a GET shows is that of the stored object. -/
theorem send_get_etag (ha : Admitted env lib w p request calendarId)
    (h : (send env lib p request calendarId filename "GET" w).1.header? "etag" = some e) :
    ∃ o, w.db.objectByUid calendarId (filename.trimEnds ".ics") = some o ∧ o.etag = e := by
  rw [send_get ha, handleGet_run] at h
  cases ho : w.db.objectByUid calendarId (filename.trimEnds ".ics") with
  | none =>
    rw [ho] at h
    cases h
  | some o =>
    rw [ho] at h
    unfold buildResponse at h
    dsimp only at h
    split at h
    · exact ⟨o, rfl, Option.some.inj h⟩
    · cases h

/-- A write of an object admits and hides nobody. -/
theorem Admitted.write {α : Type} {c : Action α} {a : α}
    (hc : c.Only (Op.OfWrite calendarId)) (hrun : c.run (exec env) w = (a, w'))
    (ha : Admitted env lib w p request calendarId) : Admitted env lib w' p request calendarId := by
  have hso : Tables.SameOwners w.db.toTables (c.run (exec env) w).2.db.toTables :=
    run_ofWrite hc w
  rw [hrun] at hso
  exact ha.of_sameOwners hso

/-- DELETE of an object that is there. -/
theorem send_delete_found (ha : Admitted env lib w p request calendarId) {o : CalendarObject}
    (ho : w.db.objectByUid calendarId (filename.trimEnds ".ics") = some o) :
    (send env lib p request calendarId filename "DELETE" w).1 = plain 204 "" ∧
      Admitted env lib (send env lib p request calendarId filename "DELETE" w).2 p request
        calendarId ∧
      (send env lib p request calendarId filename "DELETE" w).2.db.objectByUid calendarId
        (filename.trimEnds ".ics") = none := by
  rw [send_delete ha, handleDeleteObject_run]
  refine ⟨?_, ha.write (only_deleteObject rfl trivial (fun _ => rfl) fun _ _ => rfl) rfl, ?_⟩
  · rw [delete_exec_found ho]
    rfl
  · have hc : calendarId ∈ ((w.after (.deleteObject calendarId (filename.trimEnds ".ics"))).draw
      1).db.calendarIds := w.db.ok.calendar_of_object ho
    rw [delete_exec_found ho, World.logged_objectByUid _ _ hc]
    exact (Tables.objectByUid_deleteObject calendarId _ calendarId _).trans (if_pos ⟨rfl, rfl⟩)

/-- **PUT, GET and DELETE.** A PUT that succeeds, with an ETag that no object has had, can be
    read back and deleted at its URL and touches no other object exactly when the uid its body
    gives is the one its filename gives. -/
theorem identified_iff (env : Env) (lib : Lib) (w : World) (p : PathUser) (request : Request)
    (calendarId filename body e : String) (hbody : request.body = body.toUTF8)
    (hsize : body.toUTF8.size ≤ 1024 * 1024)
    (hif : request.headers.lookup "if-match" = none)
    (hput : PutAnswers (send env lib p request calendarId filename "PUT" w).1 e)
    (hfresh : ∀ o ∈ w.db.calendarObjects, o.etag ≠ e) :
    Identified env lib p request calendarId filename body e w ↔
      putUid filename body = filename.trimEnds ".ics" := by
  obtain ⟨ha, hvalid, o, isNew, he, hrun⟩ := put_answered hbody hsize hif hput
  obtain ⟨hstep, hrow, -, hdata, -⟩ := upsert_stored hrun
  have ha' := ha.write (only_upsertObject trivial trivial trivial (fun _ _ => rfl) (fun _ => rfl)
    (fun _ _ => rfl) fun _ _ => rfl) hrun
  obtain ⟨type, m, n, heffect⟩ := hstep.effect
  constructor
  · intro h
    by_contra hne
    obtain ⟨o', ho', he'⟩ := send_get_etag ha' h.get.2.2
    rw [heffect.others _ _ fun hsame => hne hsame.2.symm] at ho'
    exact hfresh o' (List.mem_of_find?_eq_some ho') he'
  · intro huid
    rw [huid] at hrow
    have hget := send_get_found ha' hrow (he ▸ hvalid)
    obtain ⟨hdelete, ha'', hgone⟩ := send_delete_found ha' hrow
    refine ⟨?_, ?_, ?_, ?_⟩
    · rw [hget, hdata, he]
      exact ⟨rfl, rfl, rfl⟩
    · rw [hdelete]
      exact ⟨204, rfl, by decide⟩
    · rw [send_get_missing ha'' hgone]
      rfl
    · intro filename' hne _
      have hsame := heffect.others calendarId (filename'.trimEnds ".ics") fun h =>
        hne (h.2.trans huid)
      rw [send_get ha', send_get ha, handleGet_run, handleGet_run, hsame]

end

/-- Alice puts a text without a UID line to a new URL of her calendar. -/
def lunchRequest : Request := ⟨"PUT", [], "at noon".toUTF8⟩

theorem identified_iff_lunch :
    Identified countingEnv sampleLib (.username "alice") lunchRequest "work" "lunch.ics" "at noon"
        (etagOf (countingEnv.uuid 3)) foundedWorld ↔
      putUid "lunch.ics" "at noon" = "lunch.ics".trimEnds ".ics" :=
  identified_iff countingEnv sampleLib foundedWorld (.username "alice") lunchRequest "work"
    "lunch.ics" "at noon" (etagOf (countingEnv.uuid 3)) rfl (by decide) rfl
    ⟨Or.inl rfl, rfl⟩ (by decide)

/-- She puts a dinner to the URL of the lunch: it is not found there. -/
theorem put_not_identified : ¬ ∀ (env : Env) (lib : Lib) (w : World) (p : PathUser)
    (request : Request) (calendarId filename body e : String), request.body = body.toUTF8 →
    body.toUTF8.size ≤ 1024 * 1024 → request.headers.lookup "if-match" = none →
    PutAnswers (send env lib p request calendarId filename "PUT" w).1 e →
    Identified env lib p request calendarId filename body e w := by
  intro h
  have hdinner := h countingEnv sampleLib foundedWorld (.username "alice")
    ⟨"PUT", [], "UID:dinner".toUTF8⟩ "work" "lunch.ics" "UID:dinner"
    (etagOf (countingEnv.uuid 3)) rfl (by decide) rfl ⟨Or.inl rfl, rfl⟩
  have hmissing : (send countingEnv sampleLib (.username "alice")
      ⟨"PUT", [], "UID:dinner".toUTF8⟩ "work" "lunch.ics" "GET" (send countingEnv sampleLib
        (.username "alice") ⟨"PUT", [], "UID:dinner".toUTF8⟩ "work" "lunch.ics" "PUT"
        foundedWorld).2).1.status? = some 404 := by rfl
  have hget := hdinner.get.1
  rw [hmissing] at hget
  cases hget

end CaldavMcp
