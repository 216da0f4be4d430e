/-
  Permission levels on the CalDAV side.

  `Respects` is what the levels mean for one request: an object of a calendar changes only for
  a user who may write, and a calendar changes by PROPPATCH or goes only for its owner.

  The server checks for A permission (`verify_calendar_access`), not for its level. `Allowed`
  is the condition, on the request and the state before it, under which that does no harm: a
  reader's PUT has to fail its own checks, a reader's DELETE has to find nothing, and whoever
  does not own the calendar must neither delete it nor change a property. The two are
  equivalent, on every route and for every method (`respects_iff_allowed`).
-/
import CaldavMcp.Caldav.Outcomes

namespace CaldavMcp

open Program

/-- A request by this user, from one state of the tables to the next, respects the permission
    levels. Objects that go with their whole calendar are not meant by `objects`. -/
structure Respects (request : Request) (user : User) (t t' : Tables) : Prop where
  objects : ∀ calendarId uid, t'.objectByUid calendarId uid ≠ t.objectByUid calendarId uid →
    calendarId ∈ t'.calendarIds → t.permissionOf calendarId user.id = some .readWrite
  row : request.method = "PROPPATCH" → ∀ calendarId,
    t'.calendarById calendarId ≠ t.calendarById calendarId → t.Owns user.id calendarId
  deleted : ∀ calendarId ∈ t.calendarIds, calendarId ∉ t'.calendarIds →
    t.Owns user.id calendarId

/-- What a reader must not do to an object. -/
def ObjectAllowed (t : Tables) (request : Request) (user : User)
    (calendarId filename : String) : Prop :=
  t.permissionOf calendarId user.id = some .read →
    (request.method = "PUT" →
      ∀ icalData, ¬ PutStores t calendarId filename request icalData) ∧
    (request.method = "DELETE" → t.objectByUid calendarId (filename.trimEnds ".ics") = none)

/-- What someone who does not own a calendar must not do to it. -/
def CollectionAllowed (lib : Lib) (t : Tables) (request : Request) (user : User)
    (calendarId : String) : Prop :=
  (t.permissionOf calendarId user.id).isSome → ¬ t.Owns user.id calendarId →
    request.method ≠ "DELETE" ∧
    (request.method = "PROPPATCH" → ∀ r, t.calendarById calendarId = some r →
      (propPatchOf lib request).apply r = r)

/-- The branch that goes wrong is not taken. -/
def Allowed (lib : Lib) (t : Tables) (request : Request) (user : User) : Route → Prop
  | .emailObject _ calendarId filename | .object _ calendarId filename =>
    ObjectAllowed t request user calendarId filename
  | .emailCollection _ calendarId | .calendarCollection _ calendarId =>
    CollectionAllowed lib t request user calendarId
  | _ => True

/-! ## What a change means for the levels -/

section

variable {env : Env} {lib : Lib} {w w' : World} {t t' : Tables} {request : Request} {user : User}
  {calendarId uid : String}

theorem Respects.refl (request : Request) (user : User) (t : Tables) :
    Respects request user t t :=
  ⟨fun _ _ h => absurd rfl h, fun _ _ h => absurd rfl h, fun _ h h' => absurd h h'⟩

/-- A write that changes its object respects the levels exactly when the user may write. -/
theorem respects_effect {type : ChangeType} {m n : Nat} (hm : request.method ≠ "PROPPATCH")
    (he : ObjectWrite.Effect env w w' calendarId uid type m n)
    (hne : w'.db.objectByUid calendarId uid ≠ w.db.objectByUid calendarId uid) :
    Respects request user w.db.toTables w'.db.toTables ↔
      w.db.permissionOf calendarId user.id = some .readWrite := by
  have hids : w'.db.calendarIds = w.db.calendarIds := by
    unfold Tables.calendarIds
    rw [he.calendars, List.map_map]
    refine List.map_congr_left fun r _ => ?_
    simp only [Function.comp_apply]
    split <;> rfl
  constructor
  · intro h
    exact h.objects calendarId uid hne (by rw [hids]; exact he.calendar)
  · intro hp
    refine ⟨fun c u hcu _ => ?_, fun h => absurd h hm, fun c hc hc' => ?_⟩
    · by_cases hk : c = calendarId ∧ u = uid
      · rw [hk.1]
        exact hp
      · exact absurd (he.others c u hk) hcu
    · rw [hids] at hc'
      exact absurd hc hc'

/-- Deleting a calendar respects the levels exactly when the user owns it. -/
theorem respects_deleteCalendar (hm : request.method ≠ "PROPPATCH")
    (hc : calendarId ∈ t.calendarIds) :
    Respects request user t (t.after (.deleteCalendar calendarId)) ↔
      t.Owns user.id calendarId := by
  have hids : ∀ c, c ∈ (t.after (.deleteCalendar calendarId)).calendarIds ↔
      c ≠ calendarId ∧ c ∈ t.calendarIds := by
    intro c
    rw [Tables.mem_calendarIds, Tables.mem_calendarIds, Tables.calendarById_deleteCalendar]
    split
    · rename_i h
      simp [h]
    · rename_i h
      simp [h]
  constructor
  · intro h
    exact h.deleted calendarId hc fun h' => ((hids calendarId).mp h').1 rfl
  · intro ho
    refine ⟨fun c u hcu hc' => ?_, fun h => absurd h hm, fun c hc hc' => ?_⟩
    · have hsame := Tables.sameCalendar_deleteCalendar t ((hids c).mp hc').1
      exact absurd (hsame.objectByUid u) hcu
    · by_cases h : c = calendarId
      · rw [h]
        exact ho
      · exact absurd ((hids c).mpr ⟨h, hc⟩) hc'

theorem PropPatch.statement_row (p : PropPatch) {r : Calendar}
    (hr : t.calendarById calendarId = some r) (id : String) :
    (t.after (p.statement r)).calendarById id =
      if id = calendarId then some (p.apply r) else t.calendarById id := by
  have hid : r.id = calendarId := Tables.calendarById_id hr
  unfold PropPatch.statement
  rw [calendarById_updateCalendar]
  split
  · rename_i h
    rw [h, hr, Option.map_some, if_pos rfl]
    rfl
  · rename_i h
    cases hc : t.calendarById id with
    | none => rfl
    | some c =>
      have hcid : c.id = id := Tables.calendarById_id hc
      rw [Option.map_some, if_neg]
      rw [hcid, hid]
      exact h

/-- A PROPPATCH respects the levels exactly when the user owns the calendar or nothing
    changes. -/
theorem respects_proppatch (hm : request.method = "PROPPATCH") (p : PropPatch) {r : Calendar}
    (hr : t.calendarById calendarId = some r) :
    Respects request user t (t.after (p.statement r)) ↔
      (¬ t.Owns user.id calendarId → p.apply r = r) := by
  have hrow := p.statement_row hr
  have hids : ∀ c, c ∈ (t.after (p.statement r)).calendarIds ↔ c ∈ t.calendarIds := by
    intro c
    rw [Tables.mem_calendarIds, Tables.mem_calendarIds, hrow]
    split
    · rename_i h
      rw [h, hr]
      simp
    · exact Iff.rfl
  constructor
  · intro h ho
    by_contra hne
    refine ho (h.row hm calendarId ?_)
    rw [hrow, if_pos rfl, hr]
    exact fun h' => hne (Option.some.inj h')
  · intro h
    refine ⟨fun c u hcu _ => absurd rfl hcu, fun _ c hc => ?_,
      fun c hc hc' => absurd ((hids c).mpr hc) hc'⟩
    rw [hrow] at hc
    split at hc
    · rename_i hcid
      rw [hcid]
      by_contra ho
      rw [h ho, hcid, hr] at hc
      exact hc rfl
    · exact absurd rfl hc

/-- A new calendar respects the levels. -/
theorem respects_create (hm : request.method ≠ "PROPPATCH") (r : Calendar) :
    Respects request user t { t with calendars := t.calendars ++ [r] } := by
  refine ⟨fun _ _ h => absurd rfl h, fun h => absurd h hm, fun c hc hc' => absurd ?_ hc'⟩
  unfold Tables.calendarIds at hc ⊢
  rw [List.map_append]
  exact List.mem_append_left _ hc

end

/-! ## The methods -/

section

variable {env : Env} {lib : Lib} {w : World} {request : Request} {user : User}
  {calendarId filename : String}

/-- Only readers are refused something: for a writer, or someone without a permission, the
    condition on objects is void. -/
theorem objectAllowed_of_ne_read (h : w.db.permissionOf calendarId user.id ≠ some .read) :
    ObjectAllowed w.db.toTables request user calendarId filename :=
  fun h' => absurd h' h

theorem respects_put (hinj : Function.Injective env.uuid) (hs : Synced env w)
    (hm : request.method = "PUT") (hc : calendarId ∈ w.db.calendarIds) :
    Respects request user w.db.toTables
        ((handlePut calendarId filename request).run (exec env) w).2.db.toTables ↔
      ((∃ icalData, PutStores w.db.toTables calendarId filename request icalData) →
        w.db.permissionOf calendarId user.id = some .readWrite) := by
  by_cases hst : ∃ icalData, PutStores w.db.toTables calendarId filename request icalData
  · obtain ⟨icalData, hst'⟩ := hst
    obtain ⟨o, w', hrun, hstep, hrow, hetag, -⟩ :=
      hs.upsert hinj hc (putUid filename icalData) icalData (fieldsOf icalData)
    obtain ⟨type, m, n, he⟩ := hstep.effect
    rw [handlePut_stores hst', hrun]
    have hne : w'.db.objectByUid calendarId (putUid filename icalData) ≠
        w.db.objectByUid calendarId (putUid filename icalData) := by
      rw [hrow]
      intro heq
      exact hs.etag_fresh hinj (List.mem_of_find?_eq_some heq.symm) hetag
    rw [respects_effect (by rw [hm]; decide) he hne]
    exact ⟨fun h _ => h, fun h => h ⟨icalData, hst'⟩⟩
  · rw [handlePut_refused (not_exists.mp hst)]
    exact ⟨fun _ h => absurd h hst, fun _ => Respects.refl ..⟩

theorem respects_delete (hm : request.method = "DELETE") (uid : String) :
    Respects request user w.db.toTables
        ((deleteObject calendarId uid).run.run (exec env) w).2.db.toTables ↔
      ((w.db.objectByUid calendarId uid).isSome →
        w.db.permissionOf calendarId user.id = some .readWrite) := by
  cases ho : w.db.objectByUid calendarId uid with
  | none =>
    have hsame : ((deleteObject calendarId uid).run.run (exec env) w).2.db.toTables =
        w.db.toTables := by
      rw [delete_exec_missing ho]
      exact Tables.after_deleteObject_none ho
    rw [hsame]
    exact ⟨fun _ => nofun, fun _ => Respects.refl ..⟩
  | some o =>
    have hstep : ObjectWrite.Step env w (.delete calendarId uid) _ := .deleted calendarId uid o ho
    obtain ⟨type, m, n, he⟩ := hstep.effect
    have hne : (((w.after (.deleteObject calendarId uid)).draw 1).logged env calendarId uid .deleted
        (syncTokenOf (env.uuid w.drawn))).db.objectByUid calendarId uid ≠
        w.db.objectByUid calendarId uid := by
      have hc : calendarId ∈ ((w.after (.deleteObject calendarId uid)).draw 1).db.calendarIds :=
        w.db.ok.calendar_of_object ho
      rw [World.logged_objectByUid env _ hc, World.draw_db, World.after_tables,
        Tables.objectByUid_deleteObject, if_pos ⟨rfl, rfl⟩, ho]
      exact nofun
    rw [delete_exec_found ho, respects_effect (by rw [hm]; decide) he hne]
    exact ⟨fun h _ => h, fun h => h rfl⟩

/-- **Objects.** -/
theorem respects_object_iff (hinj : Function.Injective env.uuid) (hs : Synced env w) :
    Respects request user w.db.toTables
        ((objectFor user calendarId filename request).run (exec env) w).2.db.toTables ↔
      ObjectAllowed w.db.toTables request user calendarId filename := by
  rw [objectFor_run]
  cases hp : w.db.permissionOf calendarId user.id with
  | none =>
    exact ⟨fun _ => objectAllowed_of_ne_read (by rw [hp]; exact nofun),
      fun _ => Respects.refl ..⟩
  | some p =>
    have hc : calendarId ∈ w.db.calendarIds :=
      w.db.ok.calendar_of_permission (by rw [hp]; rfl)
    rw [if_pos (by rfl)]
    unfold objectMethods ObjectAllowed
    rw [hp]
    split
    · rename_i hm
      rw [run_reads (only_handleGet ..)]
      refine ⟨fun _ _ => ⟨fun h => ?_, fun h => ?_⟩, fun _ => Respects.refl ..⟩
      · rw [hm] at h; exact absurd h (by decide)
      · rw [hm] at h; exact absurd h (by decide)
    · split
      · rename_i hm
        rw [respects_put hinj hs hm hc, hp]
        have hdel : request.method ≠ "DELETE" := by rw [hm]; decide
        cases p with
        | read => simp [hm]
        | readWrite => simp
      · split
        · rename_i hm
          rw [handleDeleteObject_run, respects_delete hm, hp]
          cases p with
          | read => simp [hm]
          | readWrite => simp
        · rename_i hput hdel
          exact ⟨fun _ _ => ⟨fun h => absurd h hput, fun h => absurd h hdel⟩,
            fun _ => Respects.refl ..⟩

/-- **Collections.** -/
theorem respects_collection_iff {hrefCtx : Option HrefContext} {username : String} :
    Respects request user w.db.toTables
        ((collectionFor lib user hrefCtx username calendarId request).run (exec env)
          w).2.db.toTables ↔
      CollectionAllowed lib w.db.toTables request user calendarId := by
  by_cases hmk : request.method = "MKCALENDAR"
  · have hm : request.method ≠ "PROPPATCH" := by rw [hmk]; decide
    have hallowed : CollectionAllowed lib w.db.toTables request user calendarId :=
      fun _ _ => ⟨by rw [hmk]; decide, fun h => absurd h hm⟩
    refine iff_of_true ?_ hallowed
    unfold collectionFor collectionMethods
    rw [if_neg (not_not.mpr hmk), if_neg (by rw [hmk]; decide), if_neg (by rw [hmk]; decide),
      if_pos hmk]
    rcases handleMkcalendar_cases env lib w user username calendarId request with
      ht | ⟨r, -, -, -, ht⟩
    · rw [ht]
      exact Respects.refl ..
    · rw [ht]
      exact respects_create hm r
  · rw [collectionFor_run hmk]
    cases hp : w.db.permissionOf calendarId user.id with
    | none =>
      refine ⟨fun _ h => ?_, fun _ => Respects.refl ..⟩
      rw [hp] at h
      cases h
    | some p =>
      have hsome : (w.db.permissionOf calendarId user.id).isSome := by rw [hp]; rfl
      have hc : calendarId ∈ w.db.calendarIds := w.db.ok.calendar_of_permission hsome
      have hread : ∀ {method : Action Reply}, method.Only Op.Reads →
          request.method ≠ "DELETE" → request.method ≠ "PROPPATCH" →
          (Respects request user w.db.toTables (method.run (exec env) w).2.db.toTables ↔
            CollectionAllowed lib w.db.toTables request user calendarId) := by
        intro method honly hdel hpatch
        rw [run_reads honly]
        exact ⟨fun _ _ _ => ⟨hdel, fun h => absurd h hpatch⟩, fun _ => Respects.refl ..⟩
      rw [if_pos (by rfl)]
      unfold collectionMethods
      split
      · rename_i hm
        exact hread (only_handlePropfindCalendar ..) (by rw [hm]; decide) (by rw [hm]; decide)
      · split
        · rename_i hm
          exact hread (only_handleReport ..) (by rw [hm]; decide) (by rw [hm]; decide)
        · split
          · rename_i hm
            obtain ⟨r, hr⟩ := Option.isSome_iff_exists.mp (Tables.mem_calendarIds.mp hc)
            rw [handleProppatch_run env lib user hrefCtx request hr, World.after_tables,
              respects_proppatch hm _ hr]
            unfold CollectionAllowed
            rw [hr]
            simp [hm, hsome]
          · split
            · rename_i hpatch hm
              rw [handleDeleteCalendar_run, World.after_tables,
                respects_deleteCalendar hpatch hc]
              unfold CollectionAllowed
              simp [hm, hsome]
            · rename_i hpatch hdel
              exact hread trivial hdel hpatch

end

/-- OPTIONS is allowed to everyone. -/
theorem allowed_options {lib : Lib} {t : Tables} {request : Request} {user : User}
    (hm : request.method = "OPTIONS") (route : Route) : Allowed lib t request user route := by
  have hobject : ∀ calendarId filename, ObjectAllowed t request user calendarId filename := by
    refine fun calendarId filename _ => ⟨fun h => ?_, fun h => ?_⟩
    · rw [hm] at h; exact absurd h (by decide)
    · rw [hm] at h; exact absurd h (by decide)
  have hcollection : ∀ calendarId, CollectionAllowed lib t request user calendarId := by
    refine fun calendarId _ _ => ⟨by rw [hm]; decide, fun h => ?_⟩
    rw [hm] at h; exact absurd h (by decide)
  cases route with
  | emailObject email calendarId filename => exact hobject calendarId filename
  | object username calendarId filename => exact hobject calendarId filename
  | emailCollection email calendarId => exact hcollection _
  | calendarCollection username calendarId => exact hcollection _
  | _ => exact trivial

/-- Alice's calendar `work` holds an object, and bob has a read share of it. -/
def guestWorld : World :=
  ((ObjectWrite.upsert "work" "lunch" "at noon" ⟨"VEVENT", none, none, none⟩).call.exec countingEnv
    ((shareCalendar "work" (countingEnv.uuid 3) .read).exec countingEnv
      ((createUser sampleLib "bob" none "secret").exec countingEnv foundedWorld).2).2).2

theorem guestWorld_reachable : Reachable countingEnv sampleLib guestWorld :=
  .call (.write _) (.call (.shareCalendar ..) (.call (.createUser ..) foundedWorld_reachable))

def bob : User :=
  ⟨countingEnv.uuid 3, "bob", none, "$argon2id$v=19$m=19456,t=2,p=1$c2FsdHNhbHQ$aGFzaGhhc2g"⟩

/-- A request without headers and body. -/
def bareRequest (method : String) : Request := ⟨method, [], ByteArray.empty⟩

/-- Without credentials, bob is whom his path names. -/
theorem bob_resolves (method : String) : Resolves countingEnv sampleLib guestWorld
    (.object "bob" "work" "lunch.ics") (bareRequest method) bob := rfl

end CaldavMcp
