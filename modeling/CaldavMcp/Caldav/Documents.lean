/-
  The multistatus documents of the server.

  `DavCall` is a PROPFIND, PROPPATCH or REPORT that has reached its handler, `document` the
  multistatus document of the answer, as a function of the state (`document_eq`): the other
  modules about documents argue about it and no longer about runs.

  The first such result is on statuses. An entry with neither found nor missing properties is
  written without any `D:status`. PROPFIND never makes one; a PROPPATCH that sets none of the
  known properties does, and so does the delta of a sync-collection for every deletion
  (`carriesStatus_iff`).
-/
import CaldavMcp.Caldav.Failures
import CaldavMcp.Caldav.Outcomes
import CaldavMcp.Caldav.Credentials

namespace CaldavMcp

open Program

/-- The multistatus document of a 207 answer. -/
def Reply.document? : Reply → Option Multistatus
  | .response ⟨207, _, .multistatus doc⟩ => some doc
  | _ => none

/-- A call of a handler that answers with a multistatus document. -/
inductive DavCall where
  | discovery (href : String) (request : Request)
  | home (user : User) (request : Request)
  | emailHome (user : User) (email : String) (request : Request)
  | calendar (user : User) (hrefCtx : Option HrefContext) (calendarId : String)
    (request : Request)
  | proppatch (user : User) (hrefCtx : Option HrefContext) (calendarId : String)
    (request : Request)
  | report (ctx : HrefContext) (calendarId : String) (body : ReportRequest)

/-- The handler of a parsed REPORT. -/
def reportHandler (ctx : HrefContext) (calendarId : String) : ReportRequest → Action Reply
  | .calendarMultiget _ hrefs => handleMultiget ctx calendarId hrefs
  | .calendarQuery _ timeRange => handleQuery ctx calendarId timeRange
  | .syncCollection props syncToken => handleSync ctx calendarId props syncToken

/-- The href of an email home, and the request path its properties name. -/
def emailHomeHref (email : String) : String :=
  "/calendar/dav/" ++ encodeEmailForPath email ++ "/user/"

/-- The body of a PROPFIND request, parsed. -/
def propfindOf (lib : Lib) (request : Request) : PropfindRequest :=
  parsePropfind lib (request.bodyUpTo (64 * 1024))

/-- The handler itself. -/
def DavCall.handler (lib : Lib) : DavCall → Action Reply
  | .discovery href request => discoveryAnswer lib href request
  | .home user request => handlePropfindHome lib user request
  | .emailHome user email request =>
    handleEmailHome user (emailHomeHref email) request.depth email (propfindOf lib request)
  | .calendar user hrefCtx calendarId request =>
    handlePropfindCalendar lib user hrefCtx calendarId request
  | .proppatch user hrefCtx calendarId request =>
    handleProppatch lib user hrefCtx calendarId request
  | .report ctx calendarId body => reportHandler ctx calendarId body

/-- A REPORT is parsed, answered by its handler, and the answer buffered. -/
theorem handleReport_eq {lib : Lib} {user : User} {hrefCtx : Option HrefContext}
    {calendarId : String} {request : Request} {report : ReportRequest}
    (h : parseReport lib (request.bodyUpTo (256 * 1024)) = some report) :
    handleReport lib user hrefCtx calendarId request =
      (reportHandler (contextOf user hrefCtx) calendarId report >>= fun reply =>
        pure (reply.buffered (512 * 1024))) := by
  unfold handleReport
  rw [h]
  cases report <;> rfl

theorem document?_multistatusResponse (doc : Multistatus) :
    (multistatusResponse doc).document? = some doc := by
  rw [multistatusResponse_eq]
  rfl

/-! ## The document as a function of the state -/

/-- The properties of the discovery paths. -/
def discoveryProps (env : Env) (lib : Lib) (w : World) (request : Request) : List PropValue :=
  match ((inlineAuth lib request.authHeader).run (exec env) w).1 with
  | some user => rootProps user.username
  | none => rootPropsUnauthenticated

/-- The entries of a sync-collection answer when no read fails. -/
def syncAnswer (ctx : HrefContext) (calendarId : String) (includeData : Bool) (t : Tables)
    (syncToken : String) : List ResponseEntry :=
  if syncToken = "" then (orderByDtstart (t.objectsOf calendarId)).map
    (objectEntry ctx calendarId includeData)
  else (changesSince t calendarId syncToken).filterMap (deltaEntry ctx calendarId includeData t)

/-- The document of a REPORT answer. -/
def reportDocument (t : Tables) (ctx : HrefContext) (calendarId : String) :
    ReportRequest → Option Multistatus
  | .calendarMultiget _ hrefs =>
    some ⟨(multigetRows t calendarId (multigetUids hrefs)).map
      (objectEntry ctx calendarId true), none⟩
  | .calendarQuery _ timeRange =>
    some ⟨(queryRows t calendarId timeRange).map (objectEntry ctx calendarId true), none⟩
  | .syncCollection props syncToken =>
    (t.calendarById calendarId).map fun r =>
      ⟨syncAnswer ctx calendarId (wantsData props) t syncToken,
        some (ensureSyncTokenUri r.syncToken)⟩

/-- The document of an answer; none when the answer is not a 207. -/
def DavCall.document (env : Env) (lib : Lib) (w : World) : DavCall → Option Multistatus
  | .discovery href request => some ⟨[⟨href, discoveryProps env lib w request, []⟩], none⟩
  | .home user request =>
    some ⟨propfindEntry (propfindOf lib request) ("/caldav/users/" ++ user.username ++ "/")
        (calendarHomeProps user.username) ::
      (if request.depth ≥ 1 then w.db.calendarsFor user.id else []).map fun cal =>
        propfindEntry (propfindOf lib request) (calendarHref user.username cal.id)
          (calendarProps user.username cal), none⟩
  | .emailHome user email request =>
    some ⟨propfindEntry (propfindOf lib request) (emailHomeHref email)
        (emailHomeProps user.username email (emailHomeHref email)) ::
      (if request.depth ≥ 1 then w.db.calendarsFor user.id else []).map fun cal =>
        propfindEntry (propfindOf lib request)
          (calendarHrefForContext ⟨some (encodeEmailForPath email), user.username⟩ cal.id)
          (calendarPropsForContext ⟨some (encodeEmailForPath email), user.username⟩ cal), none⟩
  | .calendar user hrefCtx calendarId request =>
    (w.db.calendarById calendarId).map fun r =>
      ⟨propfindEntry (propfindOf lib request)
          (calendarHrefForContext (contextOf user hrefCtx) r.id)
          (calendarPropsForContext (contextOf user hrefCtx) r) ::
        (if request.depth ≥ 1 then orderByDtstart (w.db.objectsOf r.id) else []).map fun obj =>
          propfindEntry (propfindOf lib request)
            (calendarObjectHrefForContext (contextOf user hrefCtx) r.id obj.uid)
            (calendarObjectProps obj false), none⟩
  | .proppatch user hrefCtx calendarId request =>
    (w.db.calendarById calendarId).map fun r =>
      ⟨[⟨calendarHrefForContext (contextOf user hrefCtx) r.id,
        (propPatchOf lib request).found, []⟩], none⟩
  | .report ctx calendarId body => reportDocument w.db.toTables ctx calendarId body

section

variable {env : Env} {lib : Lib} {w : World}

/-- A run without failures is the failing run in which no read fails. -/
theorem run_never (p : Action Reply) :
    (p.run (exec env) w).1 = (p.run (failing env "" fun _ => false) (w, 0)).1 :=
  (run_faulty_never ..).symm

theorem reportHandler_document (ctx : HrefContext) (calendarId : String)
    (report : ReportRequest) :
    ((reportHandler ctx calendarId report).run (exec env) w).1.document? =
      reportDocument w.db.toTables ctx calendarId report := by
  rw [run_never]
  cases report with
  | calendarMultiget props hrefs =>
    refine (congrArg Reply.document? (handleMultiget_failing ctx calendarId hrefs)).trans ?_
    exact document?_multistatusResponse _
  | calendarQuery props timeRange =>
    refine (congrArg Reply.document? (handleQuery_failing ctx calendarId timeRange)).trans ?_
    exact document?_multistatusResponse _
  | syncCollection props syncToken =>
    unfold reportDocument
    dsimp only
    cases hr : w.db.calendarById calendarId with
    | none =>
      exact congrArg Reply.document? (handleSync_lost ctx props syncToken (Or.inr hr))
    | some r =>
      refine (congrArg Reply.document?
        (handleSync_failing ctx props syncToken Bool.false_ne_true hr)).trans ?_
      rw [document?_multistatusResponse, syncEntries_never]
      rfl

theorem handleProppatch_document (user : User) (hrefCtx : Option HrefContext)
    (calendarId : String) (request : Request) :
    ((handleProppatch lib user hrefCtx calendarId request).run (exec env) w).1.document? =
      (w.db.calendarById calendarId).map fun r =>
        ⟨[⟨calendarHrefForContext (contextOf user hrefCtx) r.id,
          (propPatchOf lib request).found, []⟩], none⟩ := by
  have hget : (getCalendarById calendarId).run.run (exec env) w =
    (.ok (w.db.calendarById calendarId), w) := rfl
  cases hr : w.db.calendarById calendarId with
  | none =>
    unfold handleProppatch
    rw [run_bind, hget, hr]
    rfl
  | some r =>
    rw [handleProppatch_run env lib user hrefCtx request hr]
    unfold buildResponse
    rw [if_pos (by decide)]
    cases hrefCtx <;> rfl

/-- The answer's document is the one `document` computes. -/
theorem DavCall.document_eq (q : DavCall) :
    ((q.handler lib).run (exec env) w).1.document? = q.document env lib w := by
  cases q with
  | discovery href request =>
    unfold DavCall.handler DavCall.document discoveryAnswer discoveryProps
    dsimp only
    rw [run_bind]
    cases ((inlineAuth lib request.authHeader).run (exec env) w).1 with
    | none => exact document?_multistatusResponse _
    | some user => exact document?_multistatusResponse _
  | home user request =>
    rw [run_never]
    refine (congrArg Reply.document? (handlePropfindHome_failing user request)).trans ?_
    rw [document?_multistatusResponse]
    simp [DavCall.document, propfindOf]
  | emailHome user email request =>
    rw [run_never]
    refine (congrArg Reply.document? (handleEmailHome_failing user (emailHomeHref email)
      request.depth email (propfindOf lib request))).trans ?_
    rw [document?_multistatusResponse]
    simp [DavCall.document]
  | calendar user hrefCtx calendarId request =>
    rw [run_never]
    unfold DavCall.document
    dsimp only
    cases hr : w.db.calendarById calendarId with
    | none =>
      exact congrArg Reply.document?
        (handlePropfindCalendar_lost user hrefCtx request (Or.inr hr))
    | some r =>
      refine (congrArg Reply.document?
        (handlePropfindCalendar_failing user hrefCtx request Bool.false_ne_true hr)).trans ?_
      rw [document?_multistatusResponse]
      simp [propfindOf]
  | proppatch user hrefCtx calendarId request =>
    exact handleProppatch_document user hrefCtx calendarId request
  | report ctx calendarId body => exact reportHandler_document ctx calendarId body

end

/-! ## Statuses -/

/-- The propstats an entry is written with: its properties, rendered, and their status. -/
def ResponseEntry.propstats (r : ResponseEntry) : List (List String × String) :=
  [(r.found.map PropValue.render, "HTTP/1.1 200 OK"),
    (r.notFound.map fun name => "<" ++ name ++ "/>", "HTTP/1.1 404 Not Found")].filter
      fun propstat => !propstat.1.isEmpty

/-- The statuses of an entry. -/
def ResponseEntry.statuses (r : ResponseEntry) : List String := r.propstats.map (·.2)

/-- The text of an entry is its href and its propstats. -/
theorem ResponseEntry.render_eq (r : ResponseEntry) : r.render =
    "<D:response>" ++ textElement "D:href" r.href ++
      String.join (r.propstats.map fun propstat => renderPropstat propstat.1 propstat.2) ++
      "</D:response>" := by
  obtain ⟨href, found, notFound⟩ := r
  cases found <;> cases notFound <;>
    simp [ResponseEntry.render, ResponseEntry.propstats, renderPropstat, String.append_assoc]

theorem ResponseEntry.statuses_eq_nil (r : ResponseEntry) :
    r.statuses = [] ↔ r.found = [] ∧ r.notFound = [] := by
  obtain ⟨href, found, notFound⟩ := r
  cases found <;> cases notFound <;> simp [ResponseEntry.statuses, ResponseEntry.propstats]

/-- What is asked of a document on statuses: every response carries one, and a response for
    an object that is no longer in the synchronised calendar carries 404. -/
structure CarriesStatus (t : Tables) (q : DavCall) (doc : Multistatus) : Prop where
  every : ∀ r ∈ doc.responses, r.statuses ≠ []
  gone : ∀ ctx calendarId props syncToken,
    q = .report ctx calendarId (.syncCollection props syncToken) →
    ∀ uid, t.objectByUid calendarId uid = none → ∀ r ∈ doc.responses,
      r.href = calendarObjectHrefForContext ctx calendarId uid →
      "HTTP/1.1 404 Not Found" ∈ r.statuses

/-- The body sets a property that PROPPATCH knows. -/
def PropPatch.SetsSomething (p : PropPatch) : Prop :=
  p.name ≠ none ∨ p.description ≠ none ∨ p.color ≠ none

/-- A PROPPATCH sets a known property; no deletion is logged after the token of a sync. -/
def DavCall.LeavesNoneBare (lib : Lib) (t : Tables) : DavCall → Prop
  | .proppatch _ _ calendarId request =>
    t.calendarById calendarId = none ∨ (propPatchOf lib request).SetsSomething
  | .report _ calendarId (.syncCollection _ syncToken) =>
    t.calendarById calendarId = none ∨ syncToken = "" ∨
      ∀ change ∈ changesSince t calendarId syncToken, change.changeType ≠ .deleted
  | _ => True

theorem PropPatch.found_eq_nil (p : PropPatch) : p.found = [] ↔ ¬ p.SetsSomething := by
  obtain ⟨name, description, color⟩ := p
  cases name <;> cases description <;> cases color <;>
    simp [PropPatch.found, PropPatch.SetsSomething]

/-! ### PROPFIND -/

/-- A parsed PROPFIND asks for something. -/
theorem parsePropfindFrom_props {ctx : NsContext} {inProp : Bool} {props : List PropRequest}
    {events : List XmlEvent} {requested : List PropRequest}
    (h : parsePropfindFrom ctx inProp props events = .props requested) : requested ≠ [] := by
  induction events generalizing ctx inProp props with
  | nil =>
    unfold parsePropfindFrom at h
    split at h
    · cases h
    · rename_i hne
      rw [← PropfindRequest.props.inj h]
      simpa using hne
  | cons e rest ih =>
    cases e with
    | start name attributes | empty name attributes =>
      unfold parsePropfindFrom at h
      dsimp only at h
      split at h
      · cases h
      · split at h
        · cases h
        · split at h
          · exact ih h
          · split at h
            · exact ih h
            · exact ih h
    | error => cases h
    | stop name => exact ih h
    | text t => exact ih h
    | other => exact ih h

theorem propfindOf_props {lib : Lib} {request : Request} {requested : List PropRequest}
    (h : propfindOf lib request = .props requested) : requested ≠ [] := by
  unfold propfindOf parsePropfind at h
  split at h
  · cases h
  · exact parsePropfindFrom_props h

/-- Each entry of a PROPFIND answer has a found or a missing property. -/
theorem propfindEntry_statuses {propfind : PropfindRequest} {href : String}
    {available : List PropValue} (ha : available ≠ [])
    (hp : ∀ requested, propfind = .props requested → requested ≠ []) :
    (propfindEntry propfind href available).statuses ≠ [] := by
  intro h
  obtain ⟨hfound, hmissing⟩ := (ResponseEntry.statuses_eq_nil _).mp h
  unfold propfindEntry at hfound hmissing
  cases propfind with
  | allProp => exact ha hfound
  | propName => exact ha (List.map_eq_nil_iff.mp hfound)
  | props requested =>
    unfold filterProps at hfound hmissing
    dsimp only at hfound hmissing
    rw [hfound] at hmissing
    refine hp requested rfl ?_
    simpa using hmissing

/-! ### The answers -/

theorem objectEntry_statuses (ctx : HrefContext) (calendarId : String) (includeData : Bool)
    (obj : CalendarObject) : (objectEntry ctx calendarId includeData obj).statuses ≠ [] := by
  intro h
  obtain ⟨hfound, -⟩ := (ResponseEntry.statuses_eq_nil _).mp h
  cases hfound

/-- A delta has a status for every change exactly when no change is a deletion. -/
theorem delta_statuses_iff (ctx : HrefContext) (calendarId : String) (includeData : Bool)
    (t : Tables) (changes : List SyncChange) :
    (∀ r ∈ changes.filterMap (deltaEntry ctx calendarId includeData t), r.statuses ≠ []) ↔
      ∀ change ∈ changes, change.changeType ≠ .deleted := by
  constructor
  · intro h change hmem hdel
    refine h ⟨calendarObjectHrefForContext ctx calendarId change.objectUid, [], []⟩ ?_ ?_
    · exact List.mem_filterMap.mpr ⟨change, hmem, if_pos hdel⟩
    · exact (ResponseEntry.statuses_eq_nil _).mpr ⟨rfl, rfl⟩
  · intro h r hr
    obtain ⟨change, hmem, he⟩ := List.mem_filterMap.mp hr
    unfold deltaEntry at he
    rw [if_neg (h change hmem)] at he
    obtain ⟨obj, -, rfl⟩ := Option.map_eq_some_iff.mp he
    exact objectEntry_statuses ctx calendarId includeData obj

/-- The entries of a sync that reports no deletion are of objects that are there. -/
theorem syncAnswer_present {ctx : HrefContext} {calendarId : String} {includeData : Bool}
    {t : Tables} {syncToken : String}
    (h : syncToken = "" ∨ ∀ change ∈ changesSince t calendarId syncToken,
      change.changeType ≠ .deleted)
    {r : ResponseEntry} (hr : r ∈ syncAnswer ctx calendarId includeData t syncToken) :
    ∃ uid, r.href = calendarObjectHrefForContext ctx calendarId uid ∧
      t.objectByUid calendarId uid ≠ none := by
  unfold syncAnswer at hr
  by_cases htoken : syncToken = ""
  · rw [if_pos htoken] at hr
    obtain ⟨obj, hobj, rfl⟩ := List.mem_map.mp hr
    have hobj' : obj ∈ t.objectsOf calendarId := (List.perm_insertionSort _ _).mem_iff.mp hobj
    refine ⟨obj.uid, rfl, fun hnone => ?_⟩
    obtain ⟨hmem, hcal⟩ := List.mem_filter.mp hobj'
    have hall := List.find?_eq_none.mp hnone obj hmem
    simp_all
  · rw [if_neg htoken] at hr
    obtain ⟨change, hmem, he⟩ := List.mem_filterMap.mp hr
    refine ⟨change.objectUid, deltaEntry_href he, fun hnone => ?_⟩
    unfold deltaEntry at he
    rw [if_neg (h.resolve_left htoken change hmem), hnone] at he
    cases he

/-- The properties a handler chooses from are never none at all. -/
theorem discoveryProps_ne_nil (env : Env) (lib : Lib) (w : World) (request : Request) :
    discoveryProps env lib w request ≠ [] := by
  unfold discoveryProps
  split
  · exact List.cons_ne_nil _ _
  · exact List.cons_ne_nil _ _

/-- An answer that is no sync has nothing to report as gone. -/
theorem carriesStatus_of_every {t : Tables} {q : DavCall} {answer : Option Multistatus}
    (hq : ∀ ctx calendarId props syncToken,
      q ≠ .report ctx calendarId (.syncCollection props syncToken))
    (h : ∀ doc, answer = some doc → ∀ r ∈ doc.responses, r.statuses ≠ []) :
    ∀ doc, answer = some doc → CarriesStatus t q doc :=
  fun doc hdoc => ⟨h doc hdoc, fun _ _ _ _ heq => absurd heq (hq _ _ _ _)⟩

/-- The first entry and the listed ones of a PROPFIND answer. -/
theorem propfind_statuses {α : Type} {lib : Lib} {request : Request} {first : ResponseEntry}
    {rows : List α} {href : α → String} {available : α → List PropValue}
    (hfirst : first.statuses ≠ []) (ha : ∀ a, available a ≠ []) :
    ∀ r ∈ first :: rows.map (fun a =>
      propfindEntry (propfindOf lib request) (href a) (available a)), r.statuses ≠ [] := by
  intro r hr
  rcases List.mem_cons.mp hr with rfl | hr
  · exact hfirst
  · obtain ⟨a, -, rfl⟩ := List.mem_map.mp hr
    exact propfindEntry_statuses (ha a) fun _ => propfindOf_props

theorem carriesStatus_proppatch (env : Env) (lib : Lib) (w : World) (user : User)
    (hrefCtx : Option HrefContext) (calendarId : String) (request : Request) :
    (∀ doc, (DavCall.proppatch user hrefCtx calendarId request).document env lib w = some doc →
      CarriesStatus w.db.toTables (.proppatch user hrefCtx calendarId request) doc) ↔
      w.db.calendarById calendarId = none ∨ (propPatchOf lib request).SetsSomething := by
  unfold DavCall.document
  dsimp only
  cases w.db.calendarById calendarId with
  | none => exact iff_of_true nofun (Or.inl rfl)
  | some r =>
    have hfound := (propPatchOf lib request).found_eq_nil
    constructor
    · intro h
      refine Or.inr (of_not_not fun hnot => ?_)
      have hbare := (h _ rfl).every _ (List.mem_singleton_self _)
      exact hbare ((ResponseEntry.statuses_eq_nil _).mpr ⟨hfound.mpr hnot, rfl⟩)
    · intro h
      have hsets := h.resolve_left nofun
      refine carriesStatus_of_every nofun fun doc hdoc e he hnil => ?_
      rw [← Option.some.inj hdoc] at he
      rw [List.mem_singleton.mp he] at hnil
      exact hfound.mp ((ResponseEntry.statuses_eq_nil _).mp hnil).1 hsets

theorem carriesStatus_sync (t : Tables) (ctx : HrefContext) (calendarId : String)
    (props : List PropRequest) (syncToken : String) :
    (∀ doc, reportDocument t ctx calendarId (.syncCollection props syncToken) = some doc →
      CarriesStatus t (.report ctx calendarId (.syncCollection props syncToken)) doc) ↔
      t.calendarById calendarId = none ∨ syncToken = "" ∨
        ∀ change ∈ changesSince t calendarId syncToken, change.changeType ≠ .deleted := by
  unfold reportDocument
  dsimp only
  cases t.calendarById calendarId with
  | none => exact iff_of_true nofun (Or.inl rfl)
  | some row =>
    rw [or_iff_right (show ¬ some row = none from nofun)]
    constructor
    · intro h
      by_cases htoken : syncToken = ""
      · exact Or.inl htoken
      · refine Or.inr ?_
        have hevery := (h _ rfl).every
        unfold syncAnswer at hevery
        rw [if_neg htoken] at hevery
        exact (delta_statuses_iff ..).mp hevery
    · rintro h doc hdoc
      rw [← Option.some.inj hdoc]
      refine ⟨fun r hr => ?_, ?_⟩
      · unfold syncAnswer at hr
        by_cases htoken : syncToken = ""
        · rw [if_pos htoken] at hr
          obtain ⟨obj, -, rfl⟩ := List.mem_map.mp hr
          exact objectEntry_statuses ctx calendarId _ obj
        · rw [if_neg htoken] at hr
          exact (delta_statuses_iff ..).mpr (h.resolve_left htoken) r hr
      · rintro _ _ _ _ heq uid hgone r hr hhref
        obtain ⟨rfl, rfl, hsync⟩ := DavCall.report.inj heq
        obtain ⟨rfl, rfl⟩ := ReportRequest.syncCollection.inj hsync
        obtain ⟨uid', hhref', hthere⟩ := syncAnswer_present h hr
        rw [calendarObjectHrefForContext_inj (hhref.symm.trans hhref')] at hgone
        exact absurd hgone hthere

/-- **Statuses.** Whatever the state and the request, every response of the document carries
    a status, 404 for an object that is gone, exactly when the request is not a PROPPATCH of
    an existing calendar that sets nothing known, nor a sync with a deletion to report. -/
theorem carriesStatus_iff (env : Env) (lib : Lib) (w : World) (q : DavCall) :
    (∀ doc, ((q.handler lib).run (exec env) w).1.document? = some doc →
      CarriesStatus w.db.toTables q doc) ↔ q.LeavesNoneBare lib w.db.toTables := by
  rw [DavCall.document_eq]
  cases q with
  | discovery href request =>
    refine iff_of_true (carriesStatus_of_every nofun fun doc hdoc r hr hnil => ?_) trivial
    rw [← Option.some.inj hdoc] at hr
    rw [List.mem_singleton.mp hr] at hnil
    exact discoveryProps_ne_nil env lib w request ((ResponseEntry.statuses_eq_nil _).mp hnil).1
  | home user request =>
    refine iff_of_true (carriesStatus_of_every nofun fun doc hdoc => ?_) trivial
    rw [← Option.some.inj hdoc]
    refine propfind_statuses (propfindEntry_statuses ?_ fun _ => propfindOf_props) fun cal => ?_
    · exact List.cons_ne_nil _ _
    · exact List.cons_ne_nil _ _
  | emailHome user email request =>
    refine iff_of_true (carriesStatus_of_every nofun fun doc hdoc => ?_) trivial
    rw [← Option.some.inj hdoc]
    refine propfind_statuses (propfindEntry_statuses ?_ fun _ => propfindOf_props) fun cal => ?_
    · exact List.cons_ne_nil _ _
    · exact List.cons_ne_nil _ _
  | calendar user hrefCtx calendarId request =>
    refine iff_of_true (carriesStatus_of_every nofun fun doc hdoc => ?_) trivial
    obtain ⟨row, -, rfl⟩ := Option.map_eq_some_iff.mp hdoc
    refine propfind_statuses (propfindEntry_statuses ?_ fun _ => propfindOf_props) fun obj => ?_
    · exact List.cons_ne_nil _ _
    · exact List.cons_ne_nil _ _
  | proppatch user hrefCtx calendarId request => exact carriesStatus_proppatch ..
  | report ctx calendarId body =>
    cases body with
    | calendarMultiget props hrefs =>
      refine iff_of_true (carriesStatus_of_every nofun fun doc hdoc r hr => ?_) trivial
      rw [← Option.some.inj hdoc] at hr
      obtain ⟨obj, -, rfl⟩ := List.mem_map.mp hr
      exact objectEntry_statuses ctx calendarId true obj
    | calendarQuery props timeRange =>
      refine iff_of_true (carriesStatus_of_every nofun fun doc hdoc r hr => ?_) trivial
      rw [← Option.some.inj hdoc] at hr
      obtain ⟨obj, -, rfl⟩ := List.mem_map.mp hr
      exact objectEntry_statuses ctx calendarId true obj
    | syncCollection props syncToken => exact carriesStatus_sync ..

/-- The lunch was planned, the client took the token, the lunch was cancelled: the answer for
    the token names the lunch without a status. -/
theorem deletion_without_status : ¬ ∀ (env : Env) (lib : Lib) (w : World) (q : DavCall)
    (doc : Multistatus), ((q.handler lib).run (exec env) w).1.document? = some doc →
    CarriesStatus w.db.toTables q doc := by
  intro h
  have hanswer : (((DavCall.report ⟨none, "alice"⟩ "work"
      (.syncCollection [] lunchCalendar.syncToken)).handler sampleLib).run (exec countingEnv)
        dinnerWorld).1.document? = some ⟨_, _⟩ := DavCall.document_eq _
  have hbare := (h countingEnv sampleLib dinnerWorld _ _ hanswer).every
    ⟨"/caldav/users/alice/work/lunch.ics", [], []⟩ (by decide)
  exact hbare rfl

end CaldavMcp
