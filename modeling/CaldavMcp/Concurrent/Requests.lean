/-
  PUT and DELETE requests on one object, as threads of a pool.

  `PutRequest` is a PUT whose body `handle_put` can read. The object it writes to is decided by
  the body (`putUid`), so a PUT without a readable body is on no object; it is answered 400 and
  sends no statement. `ObjectRequest` adds the DELETE. A request is run by the handler of the
  source, `handlePut` or `handleDeleteObject`, from the first statement to the reply.

  The statements are those of `Db.Phases`: the If-Match check is stage `checking`. `PutEnds`
  says which reply goes with which last stage. A PUT that finishes has re-read a row, and what
  it replies is the etag of that row; `OwnRow` is what a PUT needs of the others for this to be
  its own etag.
-/
import CaldavMcp.Concurrent.Log
import CaldavMcp.Caldav.Handlers

namespace CaldavMcp

open Program

/-! ## Requests -/

/-- The first stage of a PUT. -/
def Stage.ofIfMatch : Option String → Stage
  | none => .ready
  | some etag => if etag = "*" then .ready else .checking etag

/-- A PUT with a body that can be read. -/
structure PutRequest where
  filename : String
  request : Request
  icalData : String
  size : request.body.size ≤ 1024 * 1024
  utf8 : String.fromUTF8? request.body = some icalData

namespace PutRequest

/-- The object written to. -/
def uid (r : PutRequest) : String := putUid r.filename r.icalData

/-- The If-Match header. -/
def ifMatch (r : PutRequest) : Option String := r.request.header? "if-match"

/-- The upsert at the end of the request. -/
def write (r : PutRequest) (calendarId : String) : ObjectWrite :=
  .upsert calendarId r.uid r.icalData (fieldsOf r.icalData)

/-- The PUT of a text. -/
def ofText (filename : String) (headers : List (String × ByteArray)) (icalData : String)
    (size : icalData.toUTF8.size ≤ 1024 * 1024) : PutRequest where
  filename := filename
  request := ⟨"PUT", headers, icalData.toUTF8⟩
  icalData := icalData
  size := size
  utf8 := String.fromUTF8?_toUTF8 icalData

end PutRequest

/-- A PUT or a DELETE of an object. -/
inductive ObjectRequest where
  | put (r : PutRequest)
  | delete (filename : String)

namespace ObjectRequest

def uid : ObjectRequest → String
  | put r => r.uid
  | delete filename => filename.trimEnds ".ics"

/-- The handler of the request. -/
def handler (calendarId : String) : ObjectRequest → Action Reply
  | put r => handlePut calendarId r.filename r.request
  | delete filename => handleDeleteObject calendarId filename

/-- Where the request starts. -/
def start (calendarId : String) : ObjectRequest → Phase
  | put r => ⟨r.write calendarId, Stage.ofIfMatch r.ifMatch, none, none⟩
  | delete filename => Phase.start (.delete calendarId (filename.trimEnds ".ics"))

theorem handler_put (calendarId : String) (r : PutRequest) :
    (put r).handler calendarId = putObject calendarId r.filename r.ifMatch r.icalData := by
  show handlePut calendarId r.filename r.request = _
  unfold handlePut
  rw [if_pos r.size, r.utf8]
  rfl

theorem start_on (calendarId : String) (q : ObjectRequest) :
    (q.start calendarId).On calendarId q.uid := by
  cases q <;> exact ⟨rfl, rfl⟩

theorem start_stage (calendarId : String) (q : ObjectRequest) :
    (q.start calendarId).stage = .ready ∨ ∃ etag, (q.start calendarId).stage = .checking etag := by
  cases q with
  | put r =>
    show Stage.ofIfMatch r.ifMatch = _ ∨ ∃ etag, Stage.ofIfMatch r.ifMatch = _
    cases r.ifMatch with
    | none => exact Or.inl rfl
    | some etag =>
      unfold Stage.ofIfMatch
      by_cases h : etag = "*"
      · exact Or.inl (if_pos h)
      · exact Or.inr ⟨etag, if_neg h⟩
  | delete filename => exact Or.inl rfl

end ObjectRequest

/-- The pool of some requests on a calendar, none of them started. -/
def requestPool (w : World) (calendarId : String) (qs : List ObjectRequest) :
    Pool World Op Op.Resp Reply :=
  Pool.start w (qs.map (·.handler calendarId))

/-- The pool of some PUTs, without the reading of their bodies. -/
theorem requestPool_puts (w : World) (calendarId : String) (rs : List PutRequest) :
    requestPool w calendarId (rs.map .put) = Pool.start w
      (rs.map fun r => putObject calendarId r.filename r.ifMatch r.icalData) := by
  unfold requestPool
  rw [List.map_map]
  refine congrArg (Pool.start w) (List.map_congr_left fun r _ => ?_)
  exact ObjectRequest.handler_put calendarId r

/-- How far each request of a pool has come. -/
def requestPhases (calendarId : String) (qs : List ObjectRequest)
    (p : Pool World Op Op.Resp Reply) : List Phase :=
  callPhases (qs.map (ObjectRequest.start calendarId)) p

/-! ## Replies -/

/-- The reply of a PUT that re-read a row with an etag of its own making. -/
theorem putReply_ok {o : CalendarObject} {v : String} (isNew : Bool) (he : o.etag = etagOf v)
    (hv : v.toList.all isUuidChar = true) :
    putReply (.ok (o, isNew)) =
      .response ⟨if isNew then 201 else 204, [("etag", etagOf v)], .text ""⟩ := by
  unfold putReply buildResponse
  simp only [he, List.all_cons, List.all_nil, validHeaderValue_etagOf hv, Bool.and_true, if_true]

/-- How a PUT ends: turned away by the If-Match check, with the etag it drew, or in failure. -/
inductive PutEnds (ph : Phase) : Reply → Prop
  | rejected (r : Reply) (hs : ph.stage = .rejected) (hr : r.status? = some 412) : PutEnds ph r
  | finished (o : CalendarObject) (v : String) (isNew : Bool) (hs : ph.stage = .finished)
    (hv : ph.v4 = some v) (he : o.etag = etagOf v) : PutEnds ph (putReply (.ok (o, isNew)))
  | failed (e : AppError) (hs : ph.stage = .failed) : PutEnds ph (putReply (.error e))

/-- What a PUT relies on when it re-reads: the row, if there is one, has its etag. -/
def OwnRow (ph : Phase) (w : World) : Prop :=
  ph.stage = .bumped → ¬ ph.IsDelete →
    ∀ o, w.db.objectByUid ph.write.calendarId ph.write.uid = some o →
      ∃ v, ph.v4 = some v ∧ o.etag = etagOf v

/-- How a request ends. -/
def RequestEnds (ph : Phase) (r : Reply) : Prop := ¬ ph.IsDelete → PutEnds ph r

/-- The outline of the requests. -/
abbrev requestOutline (env : Env) : Outline (exec env) Reply :=
  writeOutline env Reply OwnRow RequestEnds

/-! ## The handlers keep to the outline -/

section

variable {env : Env} {calendarId : String}

/-- From the upsert on. -/
theorem putReply_follows (uid icalData : String) (fields : ObjectFields) :
    (requestOutline env).Follows RequestEnds
      (Phase.start (.upsert calendarId uid icalData fields))
      ((upsertObject calendarId uid icalData fields).run >>= fun r => .ret (putReply r)) := by
  refine Outline.follows_bind (fun ph r hr hd => ?_) upsert_follows
  cases r with
  | ok r =>
    obtain ⟨hs, w, hw, ho⟩ := hr
    obtain ⟨v, hv, he⟩ := hw rfl hd r.1 ho
    exact PutEnds.finished r.1 v r.2 hs hv he
  | error e => exact PutEnds.failed e hr

/-- A PUT with an etag to match, as a tree: the check, then the upsert. -/
theorem putObject_ifMatch (filename : String) {etag : String} (hstar : etag ≠ "*")
    (icalData : String) :
    putObject calendarId filename (some etag) icalData =
      .call (.sql (.selectObjectByUid calendarId (putUid filename icalData))) fun r =>
        match r with
        | .ok (some o) =>
          if o.etag = etag then putObject calendarId filename none icalData
          else .ret (plain 412 "ETag mismatch")
        | .ok none => .ret (plain 412 "Object does not exist")
        | .error _ => .ret (plain 500 "Internal error") := by
  conv_lhs => unfold putObject checkIfMatch
  simp only [hstar, if_false]
  refine call_congr (o := .sql _) fun r => ?_
  rcases r with e | (_ | o)
  · rfl
  · rfl
  · show Prog.bind (if o.etag ≠ etag then _ else _) _ = (if o.etag = etag then _ else _)
    by_cases he : o.etag = etag
    · rw [if_neg (not_not_intro he), if_pos he]
      rfl
    · rw [if_pos he, if_neg he]
      rfl

/-- A PUT whose body has been read keeps to the outline. -/
theorem putObject_follows (filename : String) (ifMatch : Option String) (icalData : String) :
    (requestOutline env).Follows RequestEnds
      ⟨.upsert calendarId (putUid filename icalData) icalData (fieldsOf icalData),
        Stage.ofIfMatch ifMatch, none, none⟩
      (putObject calendarId filename ifMatch icalData) := by
  cases ifMatch with
  | none => exact putReply_follows _ _ _
  | some etag =>
    unfold Stage.ofIfMatch
    by_cases hstar : etag = "*"
    · subst hstar
      exact putReply_follows _ _ _
    · rw [putObject_ifMatch filename hstar]
      simp only [hstar, if_false]
      refine ⟨Phase.Sends.check etag rfl, fun w _ => ?_⟩
      have ha : w.answer (.selectObjectByUid calendarId (putUid filename icalData)) =
        .ok (w.db.objectByUid calendarId (putUid filename icalData)) := rfl
      rw [exec_sql, ha]
      cases w.db.objectByUid calendarId (putUid filename icalData) with
      | none => exact fun _ => PutEnds.rejected _ rfl rfl
      | some o =>
        show (requestOutline env).Follows _ ⟨_, if o.etag = etag then .ready else .rejected, _, _⟩
          (if o.etag = etag then _ else _)
        by_cases he : o.etag = etag
        · rw [if_pos he, if_pos he]
          exact putReply_follows _ _ _
        · rw [if_neg he, if_neg he]
          exact fun _ => PutEnds.rejected _ rfl rfl

/-- PUT keeps to the outline. -/
theorem put_follows (r : PutRequest) :
    (requestOutline env).Follows RequestEnds ((ObjectRequest.put r).start calendarId)
      ((ObjectRequest.put r).handler calendarId) := by
  rw [ObjectRequest.handler_put]
  exact putObject_follows r.filename r.ifMatch r.icalData

/-- DELETE keeps to the outline. -/
theorem deleteRequest_follows (filename : String) :
    (requestOutline env).Follows RequestEnds ((ObjectRequest.delete filename).start calendarId)
      ((ObjectRequest.delete filename).handler calendarId) := by
  refine Outline.follows_bind (fun ph r hr hd => absurd ?_ hd) (follows_write delete_follows)
  unfold Phase.IsDelete
  rw [hr.1]
  rfl

theorem requestOutline_covers (w : World) (qs : List ObjectRequest) :
    (requestOutline env).Covers (qs.map (ObjectRequest.start calendarId)) (requestPool w calendarId qs) := by
  refine Outline.covers_start _ (by simp) fun i ph p hph hp => ?_
  rw [List.getElem?_map, Option.map_eq_some_iff] at hph hp
  obtain ⟨q, hq, rfl⟩ := hph
  obtain ⟨q', hq', rfl⟩ := hp
  obtain rfl := Option.some.inj (hq.symm.trans hq')
  cases q with
  | put r => exact put_follows r
  | delete filename => exact deleteRequest_follows filename

theorem requestPhases_start (w : World) (qs : List ObjectRequest) :
    requestPhases calendarId qs (requestPool w calendarId qs) = qs.map (ObjectRequest.start calendarId) :=
  (requestOutline countingEnv).phases_start (by simp)

/-- An invariant of the requests' operations, taken where `G` allows, holds after every such
    schedule. `L` is a fact about a request's phase and history. -/
theorem requests_inv {I : World → List Phase → Prop} {L : Phase → List (Event Op Op.Resp) → Prop}
    {G : Pool World Op Op.Resp Reply → Nat → Prop} {qs : List ObjectRequest}
    (hknows : ∀ w phs (i : Nat) ph, I w phs → phs[i]? = some ph → OwnRow ph w)
    (hstep : ∀ p (i : Nat) ph t o, I p.state (requestPhases calendarId qs p) →
      (requestPhases calendarId qs p)[i]? = some ph → p.threads[i]? = some t →
      t.next? = some o → ph.Sends o → G p i →
      I (exec env o p.state).2
        ((requestPhases calendarId qs p).set i (ph.next o (exec env o p.state).1)))
    (hhist : ∀ ph o r hist, Phase.Sends ph o → L ph hist → L (ph.next o r) (⟨o, r⟩ :: hist))
    {p : Pool World Op Op.Resp Reply}
    (hc : (requestOutline env).Covers (qs.map (ObjectRequest.start calendarId)) p)
    (hI : I p.state (requestPhases calendarId qs p))
    (hL : ∀ (i : Nat) ph t, (requestPhases calendarId qs p)[i]? = some ph →
      p.threads[i]? = some t → L ph t.hist)
    (sched : List Nat) (hG : Pool.Along (exec env) G p sched) :
    (requestOutline env).Covers (qs.map (ObjectRequest.start calendarId))
      (p.exec (exec env) sched) ∧
    I (p.exec (exec env) sched).state (requestPhases calendarId qs (p.exec (exec env) sched)) ∧
    ∀ (i : Nat) ph t, (requestPhases calendarId qs (p.exec (exec env) sched))[i]? = some ph →
      (p.exec (exec env) sched).threads[i]? = some t → L ph t.hist :=
  (requestOutline env).exec_inv_hist (qs.map (ObjectRequest.start calendarId)) I L G hknows hstep
    hhist sched p hc hI hL hG

/-- A request keeps its write. -/
theorem requestPhases_write {qs : List ObjectRequest} {p : Pool World Op Op.Resp Reply} {i : Nat}
    {ph : Phase} {q : ObjectRequest} (hph : (requestPhases calendarId qs p)[i]? = some ph)
    (hq : qs[i]? = some q) : ph.write = (q.start calendarId).write := by
  obtain ⟨ph₀, t, h0, -, rfl⟩ := Outline.Covers.thread (O := requestOutline countingEnv) hph
  rw [List.getElem?_map, hq] at h0
  obtain rfl := Option.some.inj h0
  unfold Outline.phaseAfter
  induction t.hist with
  | nil => rfl
  | cons e hist ih => exact (Phase.next_write ..).trans ih

/-- A thread that has not started has no history. -/
theorem requestPool_hist {w : World} {qs : List ObjectRequest} {i : Nat}
    {t : Thread Op Op.Resp Reply} (ht : (requestPool w calendarId qs).threads[i]? = some t) :
    t.hist = [] := by
  unfold requestPool Pool.start at ht
  rw [List.getElem?_map, Option.map_eq_some_iff] at ht
  obtain ⟨q, -, rfl⟩ := ht
  rfl

theorem requestPhases_lt {qs : List ObjectRequest} {p : Pool World Op Op.Resp Reply} {i : Nat}
    {ph : Phase} (hph : (requestPhases calendarId qs p)[i]? = some ph) : i < qs.length := by
  have := (List.getElem?_eq_some_iff.mp hph).1
  unfold requestPhases callPhases at this
  rw [List.length_zipWith, List.length_map] at this
  exact lt_of_lt_of_le this (min_le_left _ _)

end

end CaldavMcp
