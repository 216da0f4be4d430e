/-
  Failing reads in the handlers that list.

  The handlers of PROPFIND and REPORT read the database a few times, and each read may fail on
  its own (`failing`: read number `n` fails when `fails n`). `Faithful` asks that a 207 answer
  be, byte for byte, the one the handler gives when no read fails.

  A failed look-up of the calendar is answered 404. A failed list is taken for the empty list
  (`unwrap_or_default`), a failed look-up of an object for an object that is gone. So the
  answer is faithful exactly where that makes no difference (`LosesNothing`): where each failed
  read would have contributed nothing (`faithful_iff_losesNothing`).
-/
import CaldavMcp.Caldav.Sync
import CaldavMcp.Db.Access

namespace CaldavMcp

open Program

/-- The handler in which SQL statement number `n` fails with `message` when `fails n`. -/
def failing (env : Env) (message : String) (fails : Nat → Bool) :
    Handler Op Op.Resp (World × Nat) :=
  faulty (sqlFault message) fails (exec env)

/-! ## The handlers -/

/-- A call of a handler that lists. -/
inductive Listing where
  | query (ctx : HrefContext) (calendarId : String) (timeRange : Option (String × String))
  | multiget (ctx : HrefContext) (calendarId : String) (hrefs : List String)
  | sync (ctx : HrefContext) (calendarId : String) (props : List PropRequest)
    (syncToken : String)
  | calendar (user : User) (hrefCtx : Option HrefContext) (calendarId : String)
    (request : Request)
  | home (user : User) (request : Request)
  | emailHome (user : User) (requestPath : String) (depth : Nat) (email : String)
    (propfind : PropfindRequest)

/-- The handler itself. -/
def Listing.handler (lib : Lib) : Listing → Action Reply
  | .query ctx calendarId timeRange => handleQuery ctx calendarId timeRange
  | .multiget ctx calendarId hrefs => handleMultiget ctx calendarId hrefs
  | .sync ctx calendarId props syncToken => handleSync ctx calendarId props syncToken
  | .calendar user hrefCtx calendarId request =>
    handlePropfindCalendar lib user hrefCtx calendarId request
  | .home user request => handlePropfindHome lib user request
  | .emailHome user requestPath depth email propfind =>
    handleEmailHome user requestPath depth email propfind

/-- A 207 answer given while reads fail is the answer without failures. -/
def Faithful (env : Env) (lib : Lib) (message : String) (fails : Nat → Bool) (w : World)
    (l : Listing) : Prop :=
  ((l.handler lib).run (failing env message fails) (w, 0)).1.status? = some 207 →
    ((l.handler lib).run (failing env message fails) (w, 0)).1.bytes? =
      ((l.handler lib).run (exec env) w).1.bytes?

/-! ## What the reads answer -/

/-- The rows of a calendar-query. -/
def queryRows (t : Tables) (calendarId : String) :
    Option (String × String) → List CalendarObject
  | some (start, stop) =>
    orderByDtstart ((t.objectsOf calendarId).filter fun o =>
      o.dtstart.any (· < stop) && o.dtend.any (· > start))
  | none => orderByDtstart (t.objectsOf calendarId)

/-- The rows of a calendar-multiget. -/
def multigetRows (t : Tables) (calendarId : String) (uids : List String) :
    List CalendarObject :=
  if uids.isEmpty then []
  else orderByDtstart ((t.objectsOf calendarId).filter fun o => o.uid ∈ uids)

/-- The changes after a token, as `get_sync_changes_since` answers them. -/
def changesSince (t : Tables) (calendarId token : String) : List SyncChange :=
  match (t.changesOf calendarId).find? (·.syncToken = token) with
  | some anchor => (t.changesOf calendarId).filter (·.id > anchor.id)
  | none => t.changesOf calendarId

/-- Each look-up of the delta that fails, from read number `n` on, would have found nothing. -/
def LookupsVain (t : Tables) (calendarId : String) (fails : Nat → Bool) :
    Nat → List SyncChange → Prop
  | _, [] => True
  | n, change :: rest =>
    if change.changeType = .deleted then LookupsVain t calendarId fails n rest
    else (fails n → t.objectByUid calendarId change.objectUid = none) ∧
      LookupsVain t calendarId fails (n + 1) rest

/-- Each read that fails would have contributed nothing to the answer, or is the look-up of
    the calendar, which is answered 404. -/
def LosesNothing (fails : Nat → Bool) (t : Tables) : Listing → Prop
  | .query _ calendarId timeRange => fails 0 → queryRows t calendarId timeRange = []
  | .multiget _ calendarId hrefs => fails 0 → multigetRows t calendarId (multigetUids hrefs) = []
  | .sync ctx calendarId props syncToken =>
    fails 0 ∨ t.calendarById calendarId = none ∨
      if syncToken = "" then fails 1 → t.objectsOf calendarId = []
      else if fails 1 || fails 2 then
        ∀ change ∈ changesSince t calendarId syncToken,
          deltaEntry ctx calendarId (wantsData props) t change = none
      else LookupsVain t calendarId fails 3 (changesSince t calendarId syncToken)
  | .calendar _ _ calendarId request =>
    fails 0 ∨ t.calendarById calendarId = none ∨
      (request.depth ≥ 1 → fails 1 → t.objectsOf calendarId = [])
  | .home user request => request.depth ≥ 1 → fails 0 → t.calendarsFor user.id = []
  | .emailHome user _ depth _ _ => depth ≥ 1 → fails 0 → t.calendarsFor user.id = []

/-! ## Runs with failing reads -/

section

variable {env : Env} {lib : Lib} {message : String} {fails : Nat → Bool} {w : World} {n : Nat}

theorem sql_failing {s : Sql} {rows : s.Rows} (hs : s.Reads) (ha : w.answer s = .ok rows) :
    (sql s).run.run (failing env message fails) (w, n) =
      (if fails n then .error (.database (.failed message)) else .ok rows, (w, n + 1)) := by
  have hw : (exec env (.sql s) w).2 = w := exec_reads env (.sql s) w hs
  have hrun : failing env message fails (.sql s) (w, n) =
      (if fails n then .error (.failed message) else .ok rows, (w, n + 1)) := by
    unfold failing faulty sqlFault
    dsimp only
    cases fails n with
    | true => rfl
    | false =>
      rw [if_neg Bool.false_ne_true, if_neg Bool.false_ne_true, hw, exec_sql, ha]
  unfold sql
  simp only [ExceptT.run_mk, Prog.perform_bind, run_call]
  rw [hrun]
  cases fails n <;> rfl

theorem orEmpty_failing {α : Type} {c : Call (List α)} {rows : List α}
    (hc : c.run.run (failing env message fails) (w, n) =
      (if fails n then .error (.database (.failed message)) else .ok rows, (w, n + 1))) :
    (orEmpty c).run (failing env message fails) (w, n) =
      (if fails n then [] else rows, (w, n + 1)) := by
  unfold orEmpty
  rw [run_bind, hc]
  cases fails n <;> rfl

theorem listObjects_failing (calendarId : String) :
    (orEmpty (listObjects calendarId)).run (failing env message fails) (w, n) =
      (if fails n then [] else orderByDtstart (w.db.objectsOf calendarId), (w, n + 1)) :=
  orEmpty_failing (sql_failing trivial rfl)

theorem listCalendarsForUser_failing (userId : String) :
    (orEmpty (listCalendarsForUser userId)).run (failing env message fails) (w, n) =
      (if fails n then [] else w.db.calendarsFor userId, (w, n + 1)) :=
  orEmpty_failing (sql_failing trivial rfl)

theorem handleQuery_failing (ctx : HrefContext) (calendarId : String)
    (timeRange : Option (String × String)) :
    ((handleQuery ctx calendarId timeRange).run (failing env message fails) (w, 0)).1 =
      multistatusResponse ⟨(if fails 0 then [] else queryRows w.db.toTables calendarId
        timeRange).map (objectEntry ctx calendarId true), none⟩ := by
  cases timeRange with
  | none =>
    unfold handleQuery
    dsimp only
    rw [run_bind, listObjects_failing]
    rfl
  | some range =>
    have hrows : (orEmpty (listObjectsInRange calendarId range.1 range.2)).run
        (failing env message fails) (w, 0) =
        (if fails 0 then [] else queryRows w.db.toTables calendarId (some range), (w, 1)) :=
      orEmpty_failing (sql_failing trivial rfl)
    unfold handleQuery
    dsimp only
    rw [run_bind, hrows]
    rfl

theorem handleMultiget_failing (ctx : HrefContext) (calendarId : String) (hrefs : List String) :
    ((handleMultiget ctx calendarId hrefs).run (failing env message fails) (w, 0)).1 =
      multistatusResponse ⟨(if fails 0 then [] else multigetRows w.db.toTables calendarId
        (multigetUids hrefs)).map (objectEntry ctx calendarId true), none⟩ := by
  have hrows : (orEmpty (sql (.selectObjectsByUids calendarId (multigetUids hrefs)))).run
      (failing env message fails) (w, 0) =
      (if fails 0 then [] else orderByDtstart ((w.db.objectsOf calendarId).filter fun o =>
        o.uid ∈ multigetUids hrefs), (w, 1)) :=
    orEmpty_failing (sql_failing trivial rfl)
  unfold handleMultiget getObjectsByUids multigetRows
  by_cases he : (multigetUids hrefs).isEmpty
  · rw [if_pos he, if_pos he, run_bind, ite_self]
    rfl
  · rw [if_neg he, if_neg he, run_bind, hrows]
    rfl

theorem handlePropfindHome_failing (user : User) (request : Request) :
    ((handlePropfindHome lib user request).run (failing env message fails) (w, 0)).1 =
      multistatusResponse ⟨propfindEntry (parsePropfind lib (request.bodyUpTo (64 * 1024)))
          ("/caldav/users/" ++ user.username ++ "/") (calendarHomeProps user.username) ::
        (if request.depth ≥ 1 ∧ ¬ fails 0 then w.db.calendarsFor user.id else []).map fun cal =>
          propfindEntry (parsePropfind lib (request.bodyUpTo (64 * 1024)))
            (calendarHref user.username cal.id) (calendarProps user.username cal), none⟩ := by
  unfold handlePropfindHome
  dsimp only
  by_cases hd : request.depth ≥ 1
  · rw [if_pos hd, run_bind, listCalendarsForUser_failing]
    cases fails 0 <;> simp [hd]
  · rw [if_neg hd, if_neg fun h => hd h.1]
    rfl

theorem handleEmailHome_failing (user : User) (requestPath : String) (depth : Nat)
    (email : String) (propfind : PropfindRequest) :
    ((handleEmailHome user requestPath depth email propfind).run (failing env message fails)
        (w, 0)).1 =
      multistatusResponse ⟨propfindEntry propfind requestPath
          (emailHomeProps user.username email requestPath) ::
        (if depth ≥ 1 ∧ ¬ fails 0 then w.db.calendarsFor user.id else []).map fun cal =>
          propfindEntry propfind
            (calendarHrefForContext ⟨some (encodeEmailForPath email), user.username⟩ cal.id)
            (calendarPropsForContext ⟨some (encodeEmailForPath email), user.username⟩ cal),
        none⟩ := by
  unfold handleEmailHome
  dsimp only
  by_cases hd : depth ≥ 1
  · rw [if_pos hd, run_bind, listCalendarsForUser_failing]
    cases fails 0 <;> simp [hd]
  · rw [if_neg hd, if_neg fun h => hd h.1]
    rfl

/-- A failed look-up of the calendar is answered like a missing calendar. -/
theorem getCalendarById_failing (calendarId : String) :
    (getCalendarById calendarId).run.run (failing env message fails) (w, n) =
      (if fails n then .error (.database (.failed message))
        else .ok (w.db.calendarById calendarId), (w, n + 1)) :=
  sql_failing trivial rfl

theorem handlePropfindCalendar_lost (user : User) (hrefCtx : Option HrefContext)
    {calendarId : String} (request : Request)
    (h : fails 0 ∨ w.db.calendarById calendarId = none) :
    ((handlePropfindCalendar lib user hrefCtx calendarId request).run (failing env message fails)
      (w, 0)).1 = plain 404 "Calendar not found" := by
  unfold handlePropfindCalendar
  dsimp only
  rw [run_bind, getCalendarById_failing]
  rcases h with h | h
  · rw [if_pos h]
    rfl
  · rw [h]
    cases fails 0 <;> rfl

theorem handlePropfindCalendar_failing (user : User) (hrefCtx : Option HrefContext)
    {calendarId : String} (request : Request) {r : Calendar} (h0 : ¬ fails 0)
    (hr : w.db.calendarById calendarId = some r) :
    ((handlePropfindCalendar lib user hrefCtx calendarId request).run (failing env message fails)
      (w, 0)).1 =
      multistatusResponse ⟨propfindEntry (parsePropfind lib (request.bodyUpTo (64 * 1024)))
          (calendarHrefForContext (contextOf user hrefCtx) r.id)
          (calendarPropsForContext (contextOf user hrefCtx) r) ::
        (if request.depth ≥ 1 ∧ ¬ fails 1 then orderByDtstart (w.db.objectsOf r.id)
          else []).map fun obj =>
          propfindEntry (parsePropfind lib (request.bodyUpTo (64 * 1024)))
            (calendarObjectHrefForContext (contextOf user hrefCtx) r.id obj.uid)
            (calendarObjectProps obj false), none⟩ := by
  unfold handlePropfindCalendar
  dsimp only
  rw [run_bind, getCalendarById_failing, if_neg h0, hr]
  dsimp only
  by_cases hd : request.depth ≥ 1
  · rw [if_pos hd, run_bind, listObjects_failing]
    cases fails (0 + 1) <;> simp [hd]
  · rw [if_neg hd, if_neg fun h => hd h.1]
    rfl

/-! ## The delta, with failing look-ups -/

/-- The entries of the delta that are left, from read number `n` on. -/
def deltaKept (ctx : HrefContext) (calendarId : String) (includeData : Bool) (t : Tables)
    (fails : Nat → Bool) : Nat → List SyncChange → List ResponseEntry
  | _, [] => []
  | n, change :: rest =>
    if change.changeType = .deleted then
      (deltaEntry ctx calendarId includeData t change).toList ++
        deltaKept ctx calendarId includeData t fails n rest
    else if fails n then deltaKept ctx calendarId includeData t fails (n + 1) rest
    else (deltaEntry ctx calendarId includeData t change).toList ++
      deltaKept ctx calendarId includeData t fails (n + 1) rest

theorem deltaEntries_failing (ctx : HrefContext) (calendarId : String) (includeData : Bool)
    (changes : List SyncChange) (n : Nat) :
    ((deltaEntries ctx calendarId includeData changes).run (failing env message fails)
      (w, n)).1 = deltaKept ctx calendarId includeData w.db.toTables fails n changes := by
  induction changes generalizing n with
  | nil => rfl
  | cons change rest ih =>
    unfold deltaEntries deltaKept
    dsimp only
    by_cases hd : change.changeType = .deleted
    · have hentry : deltaEntry ctx calendarId includeData w.db.toTables change =
        some ⟨calendarObjectHrefForContext ctx calendarId change.objectUid, [], []⟩ := if_pos hd
      rw [if_pos hd, if_pos hd, run_bind, ih, hentry]
      rfl
    · have hentry : deltaEntry ctx calendarId includeData w.db.toTables change =
        (w.db.objectByUid calendarId change.objectUid).map fun obj =>
          ⟨calendarObjectHrefForContext ctx calendarId change.objectUid,
            calendarObjectProps obj includeData, []⟩ := if_neg hd
      have hget : (getObjectByUid calendarId change.objectUid).run.run
          (failing env message fails) (w, n) = (if fails n then .error (.database (.failed message))
            else .ok (w.db.objectByUid calendarId change.objectUid), (w, n + 1)) :=
        sql_failing trivial rfl
      rw [if_neg hd, if_neg hd, run_bind, hget, hentry]
      cases fails n with
      | true => exact ih (n + 1)
      | false =>
        cases w.db.objectByUid calendarId change.objectUid with
        | none => exact ih (n + 1)
        | some obj =>
          simp only [Bool.false_eq_true, if_false, Option.map_some, Option.toList_some]
          rw [run_bind, ih]
          rfl

theorem filterMap_cons_toList {α β : Type} (f : α → Option β) (a : α) (l : List α) :
    (a :: l).filterMap f = (f a).toList ++ l.filterMap f := by
  cases h : f a <;> simp [h]

theorem deltaKept_sublist (ctx : HrefContext) (calendarId : String) (includeData : Bool)
    (t : Tables) (fails : Nat → Bool) (changes : List SyncChange) (n : Nat) :
    (deltaKept ctx calendarId includeData t fails n changes).Sublist
      (changes.filterMap (deltaEntry ctx calendarId includeData t)) := by
  induction changes generalizing n with
  | nil => exact List.Sublist.slnil
  | cons change rest ih =>
    rw [filterMap_cons_toList]
    unfold deltaKept
    split
    · exact (ih n).append_left _
    · split
      · exact (ih (n + 1)).trans (List.sublist_append_right _ _)
      · exact (ih (n + 1)).append_left _

/-- Nothing is lost exactly when every failed look-up is vain. -/
theorem deltaKept_eq_iff (ctx : HrefContext) (calendarId : String) (includeData : Bool)
    (t : Tables) (fails : Nat → Bool) (changes : List SyncChange) (n : Nat) :
    deltaKept ctx calendarId includeData t fails n changes =
        changes.filterMap (deltaEntry ctx calendarId includeData t) ↔
      LookupsVain t calendarId fails n changes := by
  induction changes generalizing n with
  | nil => exact iff_of_true rfl trivial
  | cons change rest ih =>
    rw [filterMap_cons_toList]
    unfold deltaKept LookupsVain
    by_cases hd : change.changeType = .deleted
    · rw [if_pos hd, if_pos hd, List.append_cancel_left_eq, ih]
    · have hentry : deltaEntry ctx calendarId includeData t change =
        (t.objectByUid calendarId change.objectUid).map fun obj =>
          ⟨calendarObjectHrefForContext ctx calendarId change.objectUid,
            calendarObjectProps obj includeData, []⟩ := if_neg hd
      rw [if_neg hd, if_neg hd, hentry]
      cases fails n with
      | false => simp [ih]
      | true =>
        cases t.objectByUid calendarId change.objectUid with
        | none => simp [ih]
        | some obj =>
          -- the entry of an object that is there is missing, so the list is too short
          refine iff_of_false (fun h => ?_) fun h => ?_
          · have hle := (deltaKept_sublist ctx calendarId includeData t fails rest (n + 1)).length_le
            rw [if_pos rfl] at h
            rw [h] at hle
            simp at hle
          · have := h.1 rfl
            cases this

/-- The entries of a sync-collection answer. -/
def syncEntries (ctx : HrefContext) (calendarId : String) (includeData : Bool) (t : Tables)
    (fails : Nat → Bool) (syncToken : String) : List ResponseEntry :=
  if syncToken = "" then
    (if fails 1 then [] else orderByDtstart (t.objectsOf calendarId)).map
      (objectEntry ctx calendarId includeData)
  else if fails 1 || fails 2 then []
  else deltaKept ctx calendarId includeData t fails 3 (changesSince t calendarId syncToken)

theorem getSyncChangesSince_failing (calendarId syncToken : String) :
    ∃ m, (orEmpty (getSyncChangesSince calendarId syncToken)).run (failing env message fails)
        (w, 1) = (if fails 1 || fails 2 then []
          else changesSince w.db.toTables calendarId syncToken, (w, m)) ∧
      (¬ (fails 1 || fails 2) → m = 3) := by
  have hanchor : (sql (.selectAnchor calendarId syncToken)).run.run (failing env message fails)
      (w, 1) = (if fails 1 then .error (.database (.failed message)) else
        .ok (((w.db.changesOf calendarId).find? (·.syncToken = syncToken)).map (·.id)),
        (w, 2)) := sql_failing trivial rfl
  have hafter : ∀ id, (sql (.selectChangesAfter calendarId id)).run.run
      (failing env message fails) (w, 2) = (if fails 2 then .error (.database (.failed message))
        else .ok ((w.db.changesOf calendarId).filter (·.id > id)), (w, 3)) :=
    fun id => sql_failing trivial rfl
  have hall : (sql (.selectChanges calendarId)).run.run (failing env message fails) (w, 2) =
      (if fails 2 then .error (.database (.failed message)) else
        .ok (w.db.changesOf calendarId), (w, 3)) := sql_failing trivial rfl
  unfold orEmpty getSyncChangesSince changesSince
  rw [run_bind, run_except_bind, hanchor]
  cases h1 : fails 1 with
  | true => exact ⟨2, rfl, fun h => absurd rfl h⟩
  | false =>
    refine ⟨3, ?_, fun _ => rfl⟩
    cases (w.db.changesOf calendarId).find? (·.syncToken = syncToken) with
    | none =>
      simp only [Bool.false_eq_true, if_false, Option.map_none]
      rw [hall]
      cases fails 2 <;> rfl
    | some anchor =>
      simp only [Bool.false_eq_true, if_false, Option.map_some]
      rw [hafter]
      cases fails 2 <;> rfl

theorem handleSync_lost (ctx : HrefContext) {calendarId : String} (props : List PropRequest)
    (syncToken : String) (h : fails 0 ∨ w.db.calendarById calendarId = none) :
    ((handleSync ctx calendarId props syncToken).run (failing env message fails) (w, 0)).1 =
      plain 404 "Calendar not found" := by
  unfold handleSync syncDocument
  rw [run_bind, run_bind, getCalendarById_failing]
  rcases h with h | h
  · rw [if_pos h]
    rfl
  · rw [h]
    cases fails 0 <;> rfl

theorem handleSync_failing (ctx : HrefContext) {calendarId : String} (props : List PropRequest)
    (syncToken : String) {r : Calendar} (h0 : ¬ fails 0)
    (hr : w.db.calendarById calendarId = some r) :
    ((handleSync ctx calendarId props syncToken).run (failing env message fails) (w, 0)).1 =
      multistatusResponse ⟨syncEntries ctx calendarId (wantsData props) w.db.toTables fails
        syncToken, some (ensureSyncTokenUri r.syncToken)⟩ := by
  unfold handleSync syncDocument syncEntries
  rw [run_bind, run_bind, getCalendarById_failing, if_neg h0, hr]
  dsimp only
  by_cases ht : syncToken = ""
  · rw [if_pos ht, if_pos ht, run_bind, run_bind, listObjects_failing]
    rfl
  · obtain ⟨m, hrun, hm⟩ := @getSyncChangesSince_failing env message fails w calendarId syncToken
    rw [if_neg ht, if_neg ht, run_bind, run_bind, hrun]
    by_cases hf : fails 1 || fails 2
    · rw [if_pos hf, if_pos hf]
      rfl
    · rw [if_neg hf, if_neg hf, hm hf, deltaEntries_failing]
      rfl

end

/-! ## Bytes -/

/-- Strings that are not empty, joined: what is left out is missed. -/
theorem join_inj {α : Type} {f : α → String} (hf : ∀ a, 0 < (f a).toList.length) {l l' : List α}
    (hsub : l.Sublist l') (h : String.join (l.map f) = String.join (l'.map f)) : l = l' := by
  have hlen : ∀ l : List α, (String.join (l.map f)).toList.length =
      (l.map fun a => (f a).toList.length).sum := by
    intro l
    rw [String.toList_join, List.length_flatMap, List.map_map]
    rfl
  have hsum := hlen l
  rw [h, hlen l'] at hsum
  clear h hlen
  induction hsub with
  | slnil => rfl
  | cons a hsub ih =>
    have hle := (hsub.map fun a => (f a).toList.length).sum_le_sum (fun _ _ => Nat.zero_le _)
    have := hf a
    rw [List.map_cons, List.sum_cons] at hsum
    omega
  | cons_cons a hsub ih =>
    rw [List.map_cons, List.map_cons, List.sum_cons, List.sum_cons] at hsum
    rw [ih (by omega)]

/-- A document with entries left out is another document. -/
theorem build_inj {entries entries' : List ResponseEntry} (syncToken : Option String)
    (hsub : entries.Sublist entries')
    (h : Multistatus.build ⟨entries, syncToken⟩ = Multistatus.build ⟨entries', syncToken⟩) :
    entries = entries' := by
  unfold Multistatus.build at h
  rw [String.append_left_inj, String.append_left_inj, String.append_right_inj] at h
  refine join_inj (fun e => ?_) hsub h
  unfold ResponseEntry.render
  simp

section

variable {env : Env} {lib : Lib} {message : String} {fails : Nat → Bool} {w : World} {l : Listing}

theorem faithful_of_status {status : Nat} {text : String}
    (h : ((l.handler lib).run (failing env message fails) (w, 0)).1 = plain status text)
    (hs : status ≠ 207) : Faithful env lib message fails w l := by
  intro h207
  rw [h] at h207
  exact absurd (Option.some.inj h207) hs

/-- Of two answers that differ in entries left out, the failing one is faithful exactly when
    nothing is left out. -/
theorem faithful_iff_entries {entries entries' : List ResponseEntry} {syncToken : Option String}
    (h : ((l.handler lib).run (failing env message fails) (w, 0)).1 =
      multistatusResponse ⟨entries, syncToken⟩)
    (h' : ((l.handler lib).run (failing env message fun _ => false) (w, 0)).1 =
      multistatusResponse ⟨entries', syncToken⟩)
    (hsub : entries.Sublist entries') :
    Faithful env lib message fails w l ↔ entries = entries' := by
  have hok : ((l.handler lib).run (exec env) w).1 = multistatusResponse ⟨entries', syncToken⟩ :=
    (run_faulty_never _ _ _ _ _).symm.trans h'
  unfold Faithful
  rw [h, hok, multistatusResponse_eq, multistatusResponse_eq]
  constructor
  · intro hb
    have hbytes := Option.some.inj (hb rfl)
    exact build_inj syncToken hsub (String.toByteArray_inj.mp hbytes)
  · rintro rfl _
    rfl

theorem orderByDtstart_eq_nil {os : List CalendarObject} : orderByDtstart os = [] ↔ os = [] := by
  unfold orderByDtstart
  rw [← List.length_eq_zero_iff, List.length_insertionSort, List.length_eq_zero_iff]

/-- A list that a failed read empties. -/
theorem emptied_sublist {α β : Type} (p : Prop) [Decidable p] (rows : List α) (f : α → β) :
    ((if p then [] else rows).map f).Sublist (rows.map f) := by
  split
  · exact List.nil_sublist _
  · exact List.Sublist.refl _

/-- It is the same exactly when it was empty. -/
theorem emptied_iff {α β : Type} (p : Prop) [Decidable p] (rows : List α) (f : α → β) :
    (if p then [] else rows).map f = rows.map f ↔ (p → rows = []) := by
  by_cases h : p
  · rw [if_pos h, List.map_nil, eq_comm, List.map_eq_nil_iff]
    exact ⟨fun he _ => he, fun he => he h⟩
  · rw [if_neg h]
    exact iff_of_true rfl fun h' => absurd h' h

end

section

variable {α : Type} (d : Prop) [Decidable d] (b : Bool) (rows : List α) (f : α → ResponseEntry)
  (e : ResponseEntry)

/-- The entries behind the first, listed at depth 1 only. -/
theorem listed_sublist : (e :: (if d ∧ ¬ b then rows else []).map f).Sublist
    (e :: (if d ∧ ¬ false then rows else []).map f) := by
  refine List.Sublist.cons_cons e (List.Sublist.map f ?_)
  by_cases hd : d <;> cases b <;> simp [hd]

theorem listed_iff : e :: (if d ∧ ¬ b then rows else []).map f =
    e :: (if d ∧ ¬ false then rows else []).map f ↔ (d → b → rows = []) := by
  rw [List.cons_inj_right]
  by_cases hd : d <;> cases b <;> simp [hd, eq_comm]

end

/-- Without failures no look-up is in vain. -/
theorem lookupsVain_never (t : Tables) (calendarId : String) (changes : List SyncChange)
    (n : Nat) : LookupsVain t calendarId (fun _ => false) n changes := by
  induction changes generalizing n with
  | nil => exact trivial
  | cons change rest ih =>
    unfold LookupsVain
    split
    · exact ih n
    · exact ⟨nofun, ih (n + 1)⟩

section

variable (ctx : HrefContext) (calendarId : String) (includeData : Bool) (t : Tables)
  (fails : Nat → Bool) (syncToken : String)

theorem syncEntries_never : syncEntries ctx calendarId includeData t (fun _ => false) syncToken =
    if syncToken = "" then (orderByDtstart (t.objectsOf calendarId)).map
      (objectEntry ctx calendarId includeData)
    else (changesSince t calendarId syncToken).filterMap
      (deltaEntry ctx calendarId includeData t) := by
  unfold syncEntries
  refine if_congr Iff.rfl rfl ((deltaKept_eq_iff ..).mpr ?_)
  exact lookupsVain_never ..

theorem syncEntries_sublist : (syncEntries ctx calendarId includeData t fails syncToken).Sublist
    (syncEntries ctx calendarId includeData t (fun _ => false) syncToken) := by
  rw [syncEntries_never]
  unfold syncEntries
  split
  · exact emptied_sublist ..
  · split
    · exact List.nil_sublist _
    · exact deltaKept_sublist ..

end

/-- **Failing reads.** Whatever reads fail, a handler that lists answers something else than a
    207, or the document it gives without failures, exactly when no failed read would have
    contributed to the document. -/
theorem faithful_iff_losesNothing (env : Env) (lib : Lib) (message : String)
    (fails : Nat → Bool) (w : World) (l : Listing) :
    Faithful env lib message fails w l ↔ LosesNothing fails w.db.toTables l := by
  cases l with
  | query ctx calendarId timeRange =>
    refine (faithful_iff_entries (handleQuery_failing ctx calendarId timeRange)
      (handleQuery_failing ctx calendarId timeRange) (emptied_sublist ..)).trans ?_
    exact emptied_iff ..
  | multiget ctx calendarId hrefs =>
    refine (faithful_iff_entries (handleMultiget_failing ctx calendarId hrefs)
      (handleMultiget_failing ctx calendarId hrefs) (emptied_sublist ..)).trans ?_
    exact emptied_iff ..
  | sync ctx calendarId props syncToken =>
    by_cases h : fails 0 ∨ w.db.calendarById calendarId = none
    · exact iff_of_true (faithful_of_status (handleSync_lost ctx props syncToken h) (by decide))
        (h.imp id Or.inl)
    · obtain ⟨h0, hsome⟩ := not_or.mp h
      obtain ⟨r, hr⟩ := Option.ne_none_iff_exists'.mp hsome
      refine (faithful_iff_entries (handleSync_failing ctx props syncToken h0 hr)
        (handleSync_failing ctx props syncToken Bool.false_ne_true hr)
        (syncEntries_sublist ..)).trans ?_
      rw [syncEntries_never]
      unfold syncEntries LosesNothing
      dsimp only
      rw [or_iff_right h0, or_iff_right hsome]
      split
      · rw [emptied_iff, orderByDtstart_eq_nil]
      · split
        · rw [eq_comm, List.filterMap_eq_nil_iff]
        · exact deltaKept_eq_iff ..
  | calendar user hrefCtx calendarId request =>
    by_cases h : fails 0 ∨ w.db.calendarById calendarId = none
    · exact iff_of_true (faithful_of_status
        (handlePropfindCalendar_lost user hrefCtx request h) (by decide)) (h.imp id Or.inl)
    · obtain ⟨h0, hsome⟩ := not_or.mp h
      obtain ⟨r, hr⟩ := Option.ne_none_iff_exists'.mp hsome
      refine (faithful_iff_entries (handlePropfindCalendar_failing user hrefCtx request h0 hr)
        (handlePropfindCalendar_failing user hrefCtx request Bool.false_ne_true hr)
        (listed_sublist ..)).trans ?_
      unfold LosesNothing
      dsimp only
      rw [or_iff_right h0, or_iff_right hsome, listed_iff, orderByDtstart_eq_nil,
        Tables.calendarById_id hr]
  | home user request =>
    refine (faithful_iff_entries (handlePropfindHome_failing user request)
      (handlePropfindHome_failing user request) (listed_sublist ..)).trans ?_
    exact listed_iff ..
  | emailHome user requestPath depth email propfind =>
    refine (faithful_iff_entries (handleEmailHome_failing user requestPath depth email propfind)
      (handleEmailHome_failing user requestPath depth email propfind) (listed_sublist ..)).trans ?_
    exact listed_iff ..

/-- A query whose one read fails shows the calendar empty. -/
theorem failed_read_shows_empty : ¬ ∀ (env : Env) (lib : Lib) (message : String)
    (fails : Nat → Bool) (w : World) (l : Listing), Faithful env lib message fails w l := by
  intro h
  have hquery := h countingEnv sampleLib "disk I/O error" (fun n => n == 0) lunchWorld
    (.query ⟨none, "alice"⟩ "work" none)
  rw [faithful_iff_entries (handleQuery_failing ⟨none, "alice"⟩ "work" none)
    (handleQuery_failing ⟨none, "alice"⟩ "work" none) (emptied_sublist ..)] at hquery
  exact absurd hquery (by decide)

end CaldavMcp
