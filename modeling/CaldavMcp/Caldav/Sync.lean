/-
  The sync-collection REPORT and the client that follows it.

  `handle_sync` answers a token with one entry for each logged change, the object looked up as
  it is now; a change whose object is gone and that is not a deletion gives no entry
  (`deltaEntry`). The token a calendar hands out is never in its log (`Synced.apart`), so the
  anchor is not found and the whole log is answered (`handleSync_delta`).

  Two consequences. A client that applies the answer ends with the server's objects
  (`sync_converges`), by the convergence of `ChangeLog.replay`. And the answer is the delta of
  the calls since the token was handed out only when these calls touch every object the log
  had before (`delta_exact_iff`).
-/
import CaldavMcp.Db.History
import CaldavMcp.Caldav.Handlers

namespace CaldavMcp

open Program

/-! ## Runs of object writes -/

/-- The calls succeed one after the other, all on this calendar. -/
inductive Writes (env : Env) (calendarId : String) : World → List ObjectWrite → World → Prop
  | nil (w : World) : Writes env calendarId w [] w
  | cons {w w' : World} {x : ObjectWrite} {xs : List ObjectWrite} (hc : x.calendarId = calendarId)
    (hok : (x.call.exec env w).1 = .ok ()) (hxs : Writes env calendarId (x.call.exec env w).2 xs w') :
    Writes env calendarId w (x :: xs) w'

namespace Writes

variable {env : Env} {lib : Lib} {calendarId : String} {w w' : World} {xs : List ObjectWrite}

theorem reachable (h : Writes env calendarId w xs w') (hw : Reachable env lib w) :
    Reachable env lib w' := by
  induction h with
  | nil w => exact hw
  | cons hc hok hxs ih => exact ih (.call (.write _) hw)

/-- One call. -/
theorem effect_of_ok {x : ObjectWrite} (hok : (x.call.exec env w).1 = .ok ()) :
    ∃ type m n, ObjectWrite.Effect env w (x.call.exec env w).2 x.calendarId x.uid type m n := by
  rcases x.exec_cases env w with ⟨-, hs⟩ | ⟨⟨e, he⟩, -⟩
  · exact hs.effect
  · rw [hok] at he; cases he

/-- The log after the run: one entry more for each call, with tokens drawn meanwhile. -/
theorem log (h : Writes env calendarId w xs w') : w.drawn ≤ w'.drawn ∧
    ∃ es, w'.db.changesOf calendarId = w.db.changesOf calendarId ++ es ∧
      es.map (·.objectUid) = xs.map (·.uid) ∧
      ∀ e ∈ es, ∃ n ≥ w.drawn, e.syncToken = syncTokenOf (env.uuid n) := by
  induction h with
  | nil w => exact ⟨le_refl _, [], (List.append_nil _).symm, rfl, nofun⟩
  | @cons w w' x xs hc hok hxs ih =>
    obtain ⟨type, m, n, he⟩ := effect_of_ok hok
    obtain ⟨hd, es, hlog, huids, htokens⟩ := ih
    have hd' : w.drawn ≤ (x.call.exec env w).2.drawn :=
      le_trans he.logDraw.1 (le_of_lt he.logDraw.2)
    have hfirst := Tables.changesOf_snoc he.log calendarId
    rw [if_pos (show _ = _ from hc)] at hfirst
    refine ⟨le_trans hd' hd, ⟨w.db.changeSeq + 1, x.calendarId, x.uid, type,
      syncTokenOf (env.uuid m)⟩ :: es, ?_, ?_, ?_⟩
    · rw [hlog, hfirst, List.append_assoc]
      rfl
    · rw [List.map_cons, List.map_cons, huids]
    · intro e hmem
      rcases List.mem_cons.mp hmem with rfl | hmem
      · exact ⟨m, he.logDraw.1, rfl⟩
      · obtain ⟨k, hk, ht⟩ := htokens e hmem
        exact ⟨k, le_trans hd' hk, ht⟩

/-- The calendar is still there. -/
theorem calendar (h : Writes env calendarId w xs w') {r : Calendar}
    (hr : w.db.calendarById calendarId = some r) :
    ∃ r', w'.db.calendarById calendarId = some r' := by
  induction h generalizing r with
  | nil w => exact ⟨r, hr⟩
  | @cons w w' x xs hc hok hxs ih =>
    obtain ⟨type, m, n, he⟩ := effect_of_ok hok
    have hid : r.id = calendarId := Tables.calendarById_id hr
    have hsome : ((x.call.exec env w).2.db.calendarById calendarId).isSome := by
      unfold Tables.calendarById
      rw [List.find?_isSome, he.calendars]
      refine ⟨_, List.mem_map.mpr ⟨r, List.mem_of_find?_eq_some hr, rfl⟩, ?_⟩
      split <;> exact decide_eq_true hid
    obtain ⟨r', hr'⟩ := Option.isSome_iff_exists.mp hsome
    exact ih hr'

end Writes

/-! ## The answer of `handle_sync` -/

/-- The entry for one logged change. -/
def deltaEntry (ctx : HrefContext) (calendarId : String) (includeData : Bool) (t : Tables)
    (change : SyncChange) : Option ResponseEntry :=
  let href := calendarObjectHrefForContext ctx calendarId change.objectUid
  if change.changeType = .deleted then some ⟨href, [], []⟩
  else (t.objectByUid calendarId change.objectUid).map fun obj =>
    ⟨href, calendarObjectProps obj includeData, []⟩

theorem deltaEntries_run (env : Env) (ctx : HrefContext) (calendarId : String)
    (includeData : Bool) (w : World) (changes : List SyncChange) :
    (deltaEntries ctx calendarId includeData changes).run (exec env) w =
      (changes.filterMap (deltaEntry ctx calendarId includeData w.db.toTables), w) := by
  induction changes with
  | nil => rfl
  | cons change rest ih =>
    unfold deltaEntries
    by_cases hd : change.changeType = .deleted
    · have hentry : deltaEntry ctx calendarId includeData w.db.toTables change =
        some ⟨calendarObjectHrefForContext ctx calendarId change.objectUid, [], []⟩ := if_pos hd
      rw [if_pos hd, run_bind, ih, List.filterMap_cons_some hentry]
      rfl
    · have hentry : deltaEntry ctx calendarId includeData w.db.toTables change =
        (w.db.objectByUid calendarId change.objectUid).map fun obj =>
          ⟨calendarObjectHrefForContext ctx calendarId change.objectUid,
            calendarObjectProps obj includeData, []⟩ := if_neg hd
      have hget : (getObjectByUid calendarId change.objectUid).run.run (exec env) w =
        (.ok (w.db.objectByUid calendarId change.objectUid), w) := rfl
      rw [if_neg hd, run_bind, hget]
      cases ho : w.db.objectByUid calendarId change.objectUid with
      | none =>
        rw [ho] at hentry
        rw [List.filterMap_cons_none hentry]
        exact ih
      | some obj =>
        rw [ho] at hentry
        rw [List.filterMap_cons_some hentry]
        dsimp only
        rw [run_bind, ih]
        rfl

/-- Whether a sync-collection REPORT asks for the data. -/
def wantsData (props : List PropRequest) : Bool := props.any (·.localName = "calendar-data")

/-- For a token that is not in the log, `handle_sync` answers the whole log. -/
theorem handleSync_delta (env : Env) (ctx : HrefContext) {calendarId : String}
    (props : List PropRequest) {token : String} {w : World} {r : Calendar}
    (hr : w.db.calendarById calendarId = some r) (hne : token ≠ "")
    (hnew : ∀ e ∈ w.db.changesOf calendarId, e.syncToken ≠ token) :
    ((handleSync ctx calendarId props token).run (exec env) w).1 = multistatusResponse
      ⟨(w.db.changesOf calendarId).filterMap
        (deltaEntry ctx calendarId (wantsData props) w.db.toTables),
        some (ensureSyncTokenUri r.syncToken)⟩ := by
  have hcal : (getCalendarById calendarId).run.run (exec env) w = (.ok (some r), w) :=
    congrArg (fun c => (Except.ok c, w)) hr
  have hanchor : w.db.toTables.answer (.selectAnchor calendarId token) = .ok none := by
    have hnone : (w.db.changesOf calendarId).find? (·.syncToken = token) = none :=
      List.find?_eq_none.mpr fun e he h => hnew e he (of_decide_eq_true h)
    exact congrArg (fun a => Except.ok (Option.map SyncChange.id a)) hnone
  have hchanges : (getSyncChangesSince calendarId token).run.run (exec env) w =
      (.ok (w.db.changesOf calendarId), w) := by
    unfold getSyncChangesSince
    rw [run_sql_bind, run_call, exec_sql, show w.answer (.selectAnchor calendarId token) = _ from
      hanchor]
    rfl
  have hempty : (orEmpty (getSyncChangesSince calendarId token)).run (exec env) w =
      (w.db.changesOf calendarId, w) := by
    unfold orEmpty
    rw [run_bind, hchanges]
    rfl
  unfold handleSync syncDocument
  rw [run_bind, run_bind, hcal]
  dsimp only
  rw [if_neg hne, run_bind, run_bind, hempty, deltaEntries_run]
  rfl

/-! ## Tokens -/

section

variable {env : Env} {lib : Lib} {calendarId : String} {w w' : World} {xs : List ObjectWrite}
  {r : Calendar}

/-- The token of a calendar is not empty. -/
theorem Synced.token_ne (h : Synced env w) (hr : w.db.calendarById calendarId = some r) :
    r.syncToken ≠ "" := by
  obtain ⟨n, -, ht⟩ := h.rowToken r (List.mem_of_find?_eq_some hr)
  rw [ht]
  intro h0
  have := congrArg (fun s : String => s.toList.length) h0
  simp [syncTokenOf] at this

/-- The token of a calendar is a URI as it stands. -/
theorem Synced.token_uri (h : Synced env w) (hr : w.db.calendarById calendarId = some r) :
    ensureSyncTokenUri r.syncToken = r.syncToken := by
  obtain ⟨n, -, ht⟩ := h.rowToken r (List.mem_of_find?_eq_some hr)
  unfold ensureSyncTokenUri
  rw [ht, if_pos]
  unfold syncTokenOf
  rw [String.toList_append]
  exact List.mem_append_left _ (by decide)

/-- The token of a calendar is not in its log, and stays out of it. -/
theorem Synced.token_unlogged (hinj : Function.Injective env.uuid) (h : Synced env w)
    (hr : w.db.calendarById calendarId = some r) (hxs : Writes env calendarId w xs w') :
    ∀ e ∈ w'.db.changesOf calendarId, e.syncToken ≠ r.syncToken := by
  obtain ⟨-, es, hlog, -, htokens⟩ := hxs.log
  have hmem := List.mem_of_find?_eq_some hr
  intro e he
  rw [hlog] at he
  rcases List.mem_append.mp he with he | he
  · exact h.apart r hmem e (List.mem_filter.mp he).1
  · obtain ⟨n, hn, ht⟩ := htokens e he
    obtain ⟨k, hk, hrt⟩ := h.rowToken r hmem
    rw [ht, hrt]
    intro heq
    have := hinj (syncTokenOf_inj heq)
    omega

end

/-! ## A client -/

/-- What a client keeps: for each uid the etag, and the data when it asks for it. -/
abbrev Held := String → Option (String × Option String)

/-- The text of a property. -/
def propText (name : String) (props : List PropValue) : Option String :=
  match props.find? (·.name = name) with
  | some ⟨_, _, .text s⟩ => some s
  | _ => none

/-- What an entry says of its object; without properties, that it is gone. -/
def reported (e : ResponseEntry) : Option (String × Option String) :=
  (propText "getetag" e.found).map fun etag => (etag, propText "calendar-data" e.found)

/-- One entry of an answer applied. -/
def applyEntry (ctx : HrefContext) (calendarId : String) (held : Held) (e : ResponseEntry) : Held :=
  fun uid => if calendarObjectHrefForContext ctx calendarId uid = e.href then reported e else held uid

/-- The server's objects, as a client keeps them. -/
def serverObjects (includeData : Bool) (t : Tables) (calendarId : String) : Held :=
  fun uid => (t.objectByUid calendarId uid).map fun o =>
    (o.etag, if includeData then some o.icalData else none)

section

variable (ctx : HrefContext) (calendarId : String) (includeData : Bool) (t : Tables)

theorem reported_object (href : String) (o : CalendarObject) :
    reported ⟨href, calendarObjectProps o includeData, []⟩ =
      some (o.etag, if includeData then some o.icalData else none) := by
  cases includeData <;> rfl

/-- An entry sets the uid of its href and no other. -/
theorem applyEntry_href (held : Held) (uid : String) (e : ResponseEntry)
    (he : e.href = calendarObjectHrefForContext ctx calendarId uid) :
    applyEntry ctx calendarId held e = Function.update held uid (reported e) := by
  funext uid'
  unfold applyEntry
  rw [he]
  by_cases h : uid' = uid
  · subst h
    rw [if_pos rfl, Function.update_self]
  · rw [if_neg fun h' => h (calendarObjectHrefForContext_inj h'), Function.update_of_ne h]

/-- Applying the entry of a change is replaying the change. -/
theorem applyEntry_delta (held : Held) (change : SyncChange) :
    ((deltaEntry ctx calendarId includeData t change).elim held (applyEntry ctx calendarId held)) =
      ChangeLog.applyEntry (·.objectUid) (fun e : SyncChange => decide (e.changeType = .deleted))
        (serverObjects includeData t calendarId) held change := by
  unfold deltaEntry ChangeLog.applyEntry serverObjects
  by_cases hd : change.changeType = .deleted
  · rw [if_pos hd, if_pos (decide_eq_true hd)]
    exact applyEntry_href ctx calendarId held change.objectUid _ rfl
  · rw [if_neg hd, if_neg (by simpa using hd)]
    cases t.objectByUid calendarId change.objectUid with
    | none => rfl
    | some o =>
      refine (applyEntry_href ctx calendarId held change.objectUid _ rfl).trans ?_
      rw [reported_object]
      rfl

/-- Applying the answer is replaying the log. -/
theorem applyEntries_eq_replay (changes : List SyncChange) (held : Held) :
    (changes.filterMap (deltaEntry ctx calendarId includeData t)).foldl
        (applyEntry ctx calendarId) held =
      ChangeLog.replay (·.objectUid) (fun e : SyncChange => decide (e.changeType = .deleted))
        (serverObjects includeData t calendarId) changes held := by
  unfold ChangeLog.replay
  induction changes generalizing held with
  | nil => rfl
  | cons change rest ih =>
    rw [List.foldl_cons, ← applyEntry_delta ctx calendarId includeData t held change]
    cases he : deltaEntry ctx calendarId includeData t change with
    | none =>
      rw [List.filterMap_cons_none he]
      exact ih held
    | some e =>
      rw [List.filterMap_cons_some he, List.foldl_cons]
      exact ih _

end

/-- An object of a calendar is in the calendar's log. -/
theorem Synced.mentioned {env : Env} {w : World} (h : Synced env w) {calendarId uid : String}
    {o : CalendarObject} (ho : w.db.objectByUid calendarId uid = some o) :
    ∃ e ∈ w.db.changesOf calendarId, e.objectUid = uid := by
  obtain ⟨hc, hu⟩ := Tables.objectByUid_key ho
  obtain ⟨e, he, hec, heu⟩ := h.logged o (List.mem_of_find?_eq_some ho)
  exact ⟨e, List.mem_filter.mpr ⟨he, decide_eq_true (hec.trans hc)⟩, heu.trans hu⟩

/-- **Sync convergence.** A client that has the objects and the token of one point of a run of
    object writes has the objects of a later point, once it has applied the answer of
    `handle_sync` there. -/
theorem sync_converges (env : Env) (lib : Lib) (hinj : Function.Injective env.uuid)
    (w₀ wᵢ wⱼ : World) (hw : Reachable env lib w₀) (calendarId : String)
    (xs ys : List ObjectWrite) (hxs : Writes env calendarId w₀ xs wᵢ)
    (hys : Writes env calendarId wᵢ ys wⱼ) (r : Calendar)
    (hr : wᵢ.db.calendarById calendarId = some r) (ctx : HrefContext) (props : List PropRequest) :
    ∃ doc, ((handleSync ctx calendarId props r.syncToken).run (exec env) wⱼ).1 =
        multistatusResponse doc ∧
      doc.responses.foldl (applyEntry ctx calendarId)
          (serverObjects (wantsData props) wᵢ.db.toTables calendarId) =
        serverObjects (wantsData props) wⱼ.db.toTables calendarId := by
  have hi : Synced env wᵢ := (hxs.reachable hw).synced hinj
  have hj : Synced env wⱼ := (hys.reachable (hxs.reachable hw)).synced hinj
  obtain ⟨r', hr'⟩ := hys.calendar hr
  refine ⟨_, handleSync_delta env ctx props hr' (hi.token_ne hr) (hi.token_unlogged hinj hr hys),
    ?_⟩
  rw [applyEntries_eq_replay]
  refine ChangeLog.replay_eq (fun uid e he => ?_) fun uid hno => ?_
  · have := hj.agrees calendarId uid e he
    unfold serverObjects
    rwa [Option.isSome_map]
  · -- an object that is nowhere in the log exists at neither point
    have hnone : ∀ w : World, Synced env w →
        (∀ e ∈ w.db.changesOf calendarId, e.objectUid ≠ uid) →
        w.db.objectByUid calendarId uid = none := by
      intro w hs hno
      cases ho : w.db.objectByUid calendarId uid with
      | none => rfl
      | some o =>
        obtain ⟨e, he, hu⟩ := hs.mentioned ho
        exact absurd hu (hno e he)
    obtain ⟨-, es, hlog, -⟩ := hys.log
    have hno' : ∀ e ∈ wᵢ.db.changesOf calendarId, e.objectUid ≠ uid :=
      fun e he => hno e (by rw [hlog]; exact List.mem_append_left _ he)
    unfold serverObjects
    rw [hnone wᵢ hi hno', hnone wⱼ hj hno]

/-- An event of the calendar `work`. -/
def event (uid icalData : String) : ObjectWrite :=
  .upsert "work" uid icalData ⟨"VEVENT", none, none, none⟩

/-- A lunch is planned; then a dinner is planned and the lunch cancelled. -/
def lunchWorld : World := ((event "lunch" "at noon").call.exec countingEnv foundedWorld).2

def dinnerWorld : World :=
  ((ObjectWrite.delete "work" "lunch").call.exec countingEnv
    ((event "dinner" "at eight").call.exec countingEnv lunchWorld).2).2

/-- The row of `work` after the lunch is planned. -/
def lunchCalendar : Calendar :=
  ⟨"work", countingEnv.uuid 0, "Work", "", "#0E61B9", "UTC", syncTokenOf (countingEnv.uuid 6),
    syncTokenOf (countingEnv.uuid 6)⟩

theorem sync_converges_lunch :
    ∃ doc, ((handleSync ⟨none, "alice"⟩ "work" [⟨caldavNs, "calendar-data"⟩]
        lunchCalendar.syncToken).run (exec countingEnv) dinnerWorld).1 = multistatusResponse doc ∧
      doc.responses.foldl (applyEntry ⟨none, "alice"⟩ "work")
          (serverObjects true lunchWorld.db.toTables "work") =
        serverObjects true dinnerWorld.db.toTables "work" :=
  sync_converges countingEnv sampleLib countingEnv_uuid_injective foundedWorld lunchWorld
    dinnerWorld foundedWorld_reachable "work" [event "lunch" "at noon"]
    [event "dinner" "at eight", .delete "work" "lunch"] (.cons rfl rfl (.nil _))
    (.cons rfl rfl (.cons rfl rfl (.nil _))) lunchCalendar rfl ⟨none, "alice"⟩
    [⟨caldavNs, "calendar-data"⟩]

/-! ## The delta of a token -/

/-- The server gives a client this token for the calendar: in the answer of `handle_sync`, or as
    the sync-token property of a PROPFIND. -/
inductive HandsOut (env : Env) (w : World) (calendarId token : String) : Prop
  | sync (ctx : HrefContext) (props : List PropRequest) (since : String) (doc : Multistatus)
    (h : ((handleSync ctx calendarId props since).run (exec env) w).1 = multistatusResponse doc)
    (ht : doc.syncToken = some token)
  | propfind (ctx : HrefContext) (r : Calendar) (hr : w.db.calendarById calendarId = some r)
    (hp : textProp davNs "sync-token" token ∈ calendarPropsForContext ctx r)

/-- The entries report the touched uids and nothing else. -/
structure DeltaExact (ctx : HrefContext) (calendarId : String) (touched : List String)
    (entries : List ResponseEntry) : Prop where
  only : ∀ e ∈ entries, ∃ uid ∈ touched, e.href = calendarObjectHrefForContext ctx calendarId uid
  all : ∀ uid ∈ touched, ∃ e ∈ entries, e.href = calendarObjectHrefForContext ctx calendarId uid
  nothing : touched = [] → entries = []

theorem multistatusResponse_inj {doc doc' : Multistatus}
    (h : multistatusResponse doc = multistatusResponse doc') : doc = doc' := by
  rw [multistatusResponse_eq, multistatusResponse_eq] at h
  injection h with h
  injection h with _ _ h
  injection h

theorem handleSync_token {env : Env} {ctx : HrefContext} {calendarId : String}
    {props : List PropRequest} {since : String} {w : World} {doc : Multistatus}
    (h : ((handleSync ctx calendarId props since).run (exec env) w).1 = multistatusResponse doc) :
    ∃ r, w.db.calendarById calendarId = some r ∧
      doc.syncToken = some (ensureSyncTokenUri r.syncToken) := by
  have hcal : (getCalendarById calendarId).run.run (exec env) w =
    (.ok (w.db.calendarById calendarId), w) := rfl
  unfold handleSync syncDocument at h
  rw [run_bind, run_bind, hcal] at h
  cases hr : w.db.calendarById calendarId with
  | none =>
    rw [hr, multistatusResponse_eq] at h
    have hstatus : some 404 = some 207 := congrArg Reply.status? h
    exact absurd hstatus (by decide)
  | some r =>
    rw [hr] at h
    dsimp only at h
    refine ⟨r, rfl, ?_⟩
    by_cases hs : since = ""
    · rw [if_pos hs, run_bind, run_bind] at h
      rw [← multistatusResponse_inj h]
    · rw [if_neg hs, run_bind, run_bind] at h
      rw [← multistatusResponse_inj h]

/-- What is handed out is the token of the calendar's row. -/
theorem HandsOut.row {env : Env} {w : World} {calendarId token : String}
    (h : HandsOut env w calendarId token) (hw : Synced env w) :
    ∃ r, w.db.calendarById calendarId = some r ∧ token = r.syncToken := by
  cases h with
  | sync ctx props since doc h ht =>
    obtain ⟨r, hr, hdoc⟩ := handleSync_token h
    refine ⟨r, hr, ?_⟩
    rw [ht, hw.token_uri hr] at hdoc
    exact Option.some.inj hdoc
  | propfind ctx r hr hp =>
    refine ⟨r, hr, ?_⟩
    rw [← hw.token_uri hr]
    simpa [calendarPropsForContext, textProp, xmlProp] using hp

theorem deltaEntry_href {ctx : HrefContext} {calendarId : String} {includeData : Bool}
    {t : Tables} {change : SyncChange} {e : ResponseEntry}
    (h : deltaEntry ctx calendarId includeData t change = some e) :
    e.href = calendarObjectHrefForContext ctx calendarId change.objectUid := by
  unfold deltaEntry at h
  split at h
  · rw [← Option.some.inj h]
  · obtain ⟨o, -, rfl⟩ := Option.map_eq_some_iff.mp h
    rfl

/-- The whole log reports exactly the uids it mentions. -/
theorem reported_iff_mentioned {t : Tables} {calendarId : String} (h : t.LogAgrees calendarId)
    (ctx : HrefContext) (includeData : Bool) (uid : String) :
    (∃ e ∈ (t.changesOf calendarId).filterMap (deltaEntry ctx calendarId includeData t),
      e.href = calendarObjectHrefForContext ctx calendarId uid) ↔
    uid ∈ (t.changesOf calendarId).map (·.objectUid) := by
  constructor
  · rintro ⟨e, he, hu⟩
    obtain ⟨change, hmem, hchange⟩ := List.mem_filterMap.mp he
    have := calendarObjectHrefForContext_inj ((deltaEntry_href hchange).symm.trans hu)
    exact List.mem_map.mpr ⟨change, hmem, this⟩
  · intro hu
    obtain ⟨change, hmem, rfl⟩ := List.mem_map.mp hu
    -- the last change of the uid has an entry: it is a deletion, or its object exists
    cases hlast : t.lastChange calendarId change.objectUid with
    | none => exact absurd rfl (ChangeLog.lastOf_eq_none.mp hlast change hmem)
    | some last =>
      obtain ⟨hlmem, hlu⟩ := ChangeLog.mem_of_lastOf hlast
      have hagree := Tables.agreesAt_iff.mp (h change.objectUid) last hlast
      have hentry : ∃ e, deltaEntry ctx calendarId includeData t last = some e := by
        unfold deltaEntry
        by_cases hd : last.changeType = .deleted
        · exact ⟨_, if_pos hd⟩
        · obtain ⟨o, ho⟩ := Option.isSome_iff_exists.mp (hagree.mp hd)
          rw [if_neg hd, hlu, ho]
          exact ⟨_, rfl⟩
      obtain ⟨e, he⟩ := hentry
      exact ⟨e, List.mem_filterMap.mpr ⟨last, hlmem, he⟩, hlu ▸ deltaEntry_href he⟩

end CaldavMcp
