/-
  What a request asks of the store, and what it does of it.

  `ServerRequest.ask` reads a request of either port as one of a few things a client may want of a
  store. `Ask.Done` says which actions do it. A PUT looks, creates or replaces, and looks again,
  and it may have looked before for its If-Match. An event of a tool has a text that depends on
  the time and on a new uid. In simple mode a calendar may have been made before anything else.

  `Performs` is what holds of any request that has been answered: a success has done it, a refusal
  has changed nothing, and an answer that shows an object shows what a look has found. Whatever the
  answer, no more has changed than in doing it. Here it is proved of the CalDAV port
  (`performs_handle`).
-/
import CaldavMcp.Db.Actions
import CaldavMcp.Server

namespace CaldavMcp

open Program

/-! ## Asks -/

/-- What a client wants of the store. -/
inductive Ask where
  | nothing
  | get (calendarId uid : String)
  | put (calendarId uid data : String)
  | update (calendarId uid : String) (data : String → String)
  | add (calendarId : String) (data : String → String → String)
  | addToFirst (data : String → String → String)
  | remove (calendarId uid : String)
  | removeFromFirst (uid : String)
  | first
  | make (calendarId : String)
  | makeNew
  | drop (calendarId : String)

/-- What a CalDAV request wants. -/
def Route.ask (route : Route) (request : Request) : Ask :=
  match route.target? with
  | some (calendarId, some filename) =>
    if request.method = "GET" then .get calendarId (filename.trimEnds ".ics")
    else if request.method = "PUT" then
      match String.fromUTF8? request.body with
      | some icalData => .put calendarId (putUid filename icalData) icalData
      | none => .nothing
    else if request.method = "DELETE" then .remove calendarId (filename.trimEnds ".ics")
    else .nothing
  | some (calendarId, none) =>
    if request.method = "MKCALENDAR" then .make calendarId
    else if request.method = "DELETE" then .drop calendarId
    else .nothing
  | none => .nothing

/-- The text of an event, by the time and its uid. -/
def eventText (args : Json) (title start stop now uid : String) : String :=
  buildVevent now uid title start stop (args.str? "description") (args.str? "location")
    (args.str? "timezone")

def deleteCalendarAsk (args : Json) : Ask :=
  match args.str? "calendar_id" with
  | some calendarId => .drop calendarId
  | none => .nothing

def createEventAsk (args : Json) : Ask :=
  match args.str? "calendar_id", args.str? "title", args.str? "start", args.str? "end" with
  | some calendarId, some title, some start, some stop =>
    .add calendarId (eventText args title start stop)
  | _, _, _, _ => .nothing

def getEventAsk (args : Json) : Ask :=
  match args.str? "calendar_id", args.str? "event_uid" with
  | some calendarId, some uid => .get calendarId uid
  | _, _ => .nothing

def updateEventAsk (args : Json) : Ask :=
  match args.str? "calendar_id", args.str? "event_uid", args.str? "title", args.str? "start",
    args.str? "end" with
  | some calendarId, some uid, some title, some start, some stop =>
    .update calendarId uid fun now => eventText args title start stop now uid
  | _, _, _, _, _ => .nothing

def deleteEventAsk (args : Json) : Ask :=
  match args.str? "calendar_id", args.str? "event_uid" with
  | some calendarId, some uid => .remove calendarId uid
  | _, _ => .nothing

/-- What a tool call wants in full mode. -/
def fullAsk (toolName : String) (args : Json) : Ask :=
  if toolName = "list_calendars" then .nothing
  else if toolName = "get_calendar" then .nothing
  else if toolName = "create_calendar" then .makeNew
  else if toolName = "delete_calendar" then deleteCalendarAsk args
  else if toolName = "create_event" then createEventAsk args
  else if toolName = "get_event" then getEventAsk args
  else if toolName = "update_event" then updateEventAsk args
  else if toolName = "delete_event" then deleteEventAsk args
  else .nothing

def handleAddAsk (args : Json) : Ask :=
  match args.str? "title", args.str? "start", args.str? "end" with
  | some title, some start, some stop => .addToFirst (eventText args title start stop)
  | _, _, _ => .nothing

def handleDeleteAsk (args : Json) : Ask :=
  match args.str? "event_uid" with
  | some uid => .removeFromFirst uid
  | none => .nothing

/-- What a tool call wants in simple mode. -/
def simpleAsk (toolName : String) (args : Json) : Ask :=
  if toolName = "add_event" then handleAddAsk args
  else if toolName = "delete_event" then handleDeleteAsk args
  else if toolName = "list_events" then .first
  else .nothing

/-- What a request wants. The commands want accounts only. -/
def ServerRequest.ask : ServerRequest → Ask
  | .dav route request => route.ask request
  | .tool _ toolName args toolMode =>
    if toolMode = "simple" then simpleAsk toolName args else fullAsk toolName args
  | .cmdCreateUser .. | .cmdResetPassword .. => .nothing

/-! ## Answers -/

namespace ServerAnswer

/-- The request has been done. -/
def Succeeded : ServerAnswer → Prop
  | dav reply => reply.Success
  | tool result => result.isOk
  | user result => result.isOk
  | done result => result.isOk

/-- The request has been refused: the client is told that it is at fault. -/
def Refused : ServerAnswer → Prop
  | dav reply => ∃ status, reply.status? = some status ∧ 400 ≤ status ∧ status < 500
  | _ => False

/-- The status of a response. -/
def status? : ServerAnswer → Option Nat
  | dav reply => reply.status?
  | _ => none

/-- What the answer says that there is under the uid asked for. -/
def found? : ServerAnswer → Option (Option String)
  | dav (.response ⟨200, _, .text data⟩) => some (some data)
  | dav (.response ⟨404, _, _⟩) => some none
  | tool (.ok json) => (json.str? "ical_data").map some
  | tool (.error message) => if message = "Event not found" then some none else none
  | _ => none

/-- The uid of the event that a tool has made. -/
def eventUid? : ServerAnswer → Option String
  | tool (.ok json) => json.str? "uid"
  | _ => none

end ServerAnswer

/-- A calendar has been made, or none. -/
def MayHaveMade (calendarId : String) (actions : List StoreAction) : Prop :=
  actions = [] ∨ actions = [.makeCalendar calendarId]

/-- The actions that do what is wanted. -/
inductive Ask.Done : Ask → ServerAnswer → List StoreAction → Prop
  | nothing (answer : ServerAnswer) (looks : List StoreAction) (hlooks : changes looks = []) :
      Done .nothing answer looks
  | get (calendarId uid : String) (answer : ServerAnswer) (looks : List StoreAction)
      (hlooks : changes looks = []) : Done (.get calendarId uid) answer looks
  | put (calendarId uid data : String) (answer : ServerAnswer) (looks : List StoreAction)
      (hlooks : changes looks = []) (old : Option String) (seen : String) :
      Done (.put calendarId uid data) answer
        (looks ++ upserted calendarId uid data old (some seen))
  | update (calendarId uid : String) (data : String → String) (answer : ServerAnswer)
      (looks : List StoreAction) (hlooks : changes looks = []) (now : String)
      (old : Option String) (seen : String) :
      Done (.update calendarId uid data) answer
        (looks ++ upserted calendarId uid (data now) old (some seen))
  | add (calendarId : String) (data : String → String → String) (answer : ServerAnswer)
      (now uid : String) (huid : answer.eventUid? = some uid) (old : Option String)
      (seen : String) :
      Done (.add calendarId data) answer (upserted calendarId uid (data now uid) old (some seen))
  | addToFirst (data : String → String → String) (answer : ServerAnswer)
      (made : List StoreAction) (calendarId : String) (hmade : MayHaveMade calendarId made)
      (now uid : String) (huid : answer.eventUid? = some uid) (old : Option String)
      (seen : String) :
      Done (.addToFirst data) answer
        (made ++ upserted calendarId uid (data now uid) old (some seen))
  | remove (calendarId uid : String) (answer : ServerAnswer) :
      Done (.remove calendarId uid) answer [.remove calendarId uid]
  | removeFromFirst (uid : String) (answer : ServerAnswer) (made : List StoreAction)
      (calendarId : String) (hmade : MayHaveMade calendarId made) :
      Done (.removeFromFirst uid) answer (made ++ [.remove calendarId uid])
  | first (answer : ServerAnswer) (made : List StoreAction) (calendarId : String)
      (hmade : MayHaveMade calendarId made) : Done .first answer made
  | make (calendarId : String) (answer : ServerAnswer) :
      Done (.make calendarId) answer [.makeCalendar calendarId]
  | makeNew (answer : ServerAnswer) (calendarId : String) :
      Done .makeNew answer [.makeCalendar calendarId]
  | drop (calendarId : String) (answer : ServerAnswer) :
      Done (.drop calendarId) answer [.dropCalendar calendarId]

/-- An action that belongs to doing it. -/
def Ask.Allows (ask : Ask) (action : StoreAction) : Prop :=
  ¬ action.Changes ∨ ∃ answer whole, ask.Done answer whole ∧ action ∈ whole

/-- What has been done when a request is answered. -/
structure Performs (ask : Ask) (answer : ServerAnswer) (actions : List StoreAction) : Prop where
  done : answer.Succeeded → ask.Done answer actions
  partly : ∃ answer' whole, ask.Done answer' whole ∧ changes actions <+: changes whole
  refused : answer.Refused → changes actions = []
  shown : ∀ found, answer.found? = some found → ∀ calendarId uid, ask = .get calendarId uid →
    actions = [.look calendarId uid found]

section

variable {ask : Ask} {answer : ServerAnswer} {actions : List StoreAction}

/-- Whatever is wanted could be done. -/
theorem Ask.done_exists (ask : Ask) : ∃ answer whole, ask.Done answer whole := by
  have hnamed : (ServerAnswer.tool (.ok (.object [("uid", .string "")]))).eventUid? = some "" := rfl
  cases ask with
  | nothing => exact ⟨.tool (.error ""), _, .nothing _ [] rfl⟩
  | get calendarId uid => exact ⟨.tool (.error ""), _, .get calendarId uid _ [] rfl⟩
  | put calendarId uid data => exact ⟨.tool (.error ""), _, .put calendarId uid data _ [] rfl none ""⟩
  | update calendarId uid data =>
    exact ⟨.tool (.error ""), _, .update calendarId uid data _ [] rfl "" none ""⟩
  | add calendarId data => exact ⟨_, _, .add calendarId data _ "" "" hnamed none ""⟩
  | addToFirst data =>
    exact ⟨_, _, .addToFirst data _ [] "" (Or.inl rfl) "" "" hnamed none ""⟩
  | remove calendarId uid => exact ⟨.tool (.error ""), _, .remove calendarId uid _⟩
  | removeFromFirst uid =>
    exact ⟨.tool (.error ""), _, .removeFromFirst uid _ [] "" (Or.inl rfl)⟩
  | first => exact ⟨.tool (.error ""), _, .first _ [] "" (Or.inl rfl)⟩
  | make calendarId => exact ⟨.tool (.error ""), _, .make calendarId _⟩
  | makeNew => exact ⟨.tool (.error ""), _, .makeNew _ ""⟩
  | drop calendarId => exact ⟨.tool (.error ""), _, .drop calendarId _⟩

/-- A request that has changed nothing and does not succeed. -/
theorem Performs.of_failed (hfailed : ¬ answer.Succeeded) (hactions : changes actions = [])
    (hshown : answer.found? = none ∨ ∀ calendarId uid, ask ≠ .get calendarId uid) :
    Performs ask answer actions := by
  obtain ⟨answer', whole, hdone⟩ := ask.done_exists
  refine ⟨fun h => absurd h hfailed, ⟨answer', whole, hdone, ?_⟩, fun _ => hactions, ?_⟩
  · rw [hactions]
    exact List.nil_prefix
  · intro found h calendarId uid heq
    obtain hnone | hne := hshown
    · rw [hnone] at h
      cases h
    · exact absurd heq (hne calendarId uid)

/-- A request that wanted nothing and has changed nothing. -/
theorem Performs.of_nothing (hactions : changes actions = []) :
    Performs .nothing answer actions :=
  ⟨fun _ => .nothing answer actions hactions,
    ⟨answer, actions, .nothing answer actions hactions, List.prefix_rfl⟩, fun _ => hactions,
    fun _ _ _ _ heq => nomatch heq⟩

/-- A request that has done what was wanted. -/
theorem Performs.of_done (hdone : ask.Done answer actions) (hrefused : ¬ answer.Refused)
    (hshown : ∀ calendarId uid, ask ≠ .get calendarId uid) : Performs ask answer actions :=
  ⟨fun _ => hdone, ⟨answer, actions, hdone, List.prefix_rfl⟩, fun h => absurd h hrefused,
    fun _ _ calendarId uid heq => absurd heq (hshown calendarId uid)⟩

/-- A request that has broken off on its way. -/
theorem Performs.of_broken {answer' : ServerAnswer} {whole : List StoreAction}
    (hdone : ask.Done answer' whole) (hpart : changes actions <+: changes whole)
    (hfailed : ¬ answer.Succeeded) (hrefused : ¬ answer.Refused)
    (hshown : ∀ calendarId uid, ask ≠ .get calendarId uid) : Performs ask answer actions :=
  ⟨fun h => absurd h hfailed, ⟨answer', whole, hdone, hpart⟩, fun h => absurd h hrefused,
    fun _ _ calendarId uid heq => absurd heq (hshown calendarId uid)⟩

theorem Ask.Done.allows {whole : List StoreAction} {action : StoreAction}
    (hdone : ask.Done answer whole) (h : action ∈ whole) : ask.Allows action :=
  Or.inr ⟨answer, whole, hdone, h⟩

theorem Ask.allows_look (calendarId uid : String) (found : Option String) :
    ask.Allows (.look calendarId uid found) := Or.inl id

end

/-! ## The CalDAV port -/

/-- The program does what is wanted, and answers so. -/
abbrev Serves (ask : Ask) (hist : List (Event Op Op.Resp)) (p : Action Reply) : Prop :=
  Takes ask.Allows (fun reply actions => Performs ask (.dav reply) actions) hist p

theorem succeeded_of_status {answer : ServerAnswer} {s : Nat} (h : answer.status? = some s)
    (hstatus : 200 ≤ s ∧ s < 300) : answer.Succeeded := by
  cases answer with
  | dav reply => exact ⟨s, h, hstatus⟩
  | _ => cases h

theorem not_succeeded {reply : Reply} {s : Nat} (h : reply.status? = some s)
    (hstatus : 300 ≤ s) : ¬ (ServerAnswer.dav reply).Succeeded := by
  rintro ⟨status', h', -, hlt⟩
  rw [h] at h'
  obtain rfl := Option.some.inj h'
  omega

theorem not_refused {reply : Reply} {s : Nat} (h : reply.status? = some s)
    (hstatus : s < 400 ∨ 500 ≤ s) : ¬ (ServerAnswer.dav reply).Refused := by
  rintro ⟨status', h', hge, hlt⟩
  rw [h] at h'
  obtain rfl := Option.some.inj h'
  omega

theorem status_response {status : Nat} {headers : List (String × String)} {body : Body}
    {reply : Reply} (h : buildResponse status headers body = reply) :
    reply = .panicked ∨ reply.status? = some status := by
  subst h
  unfold buildResponse
  split
  · exact Or.inr rfl
  · exact Or.inl rfl

section

variable {ask : Ask} {hist : List (Event Op Op.Resp)} {lib : Lib} {request : Request} {user : User}
  {calendarId filename : String}

theorem changes_of_append {looks : List StoreAction} (hactions : actionsOf hist = [])
    (hlooks : changes looks = []) : changes (actionsOf hist ++ looks) = [] := by
  rw [hactions, List.nil_append, hlooks]

/-- A program that changes nothing, where nothing is wanted. -/
theorem serves_nothing {p : Action Reply} (hp : p.Only Op.Still) (hactions : actionsOf hist = []) :
    Serves .nothing hist p := by
  refine (takes_still hp Ask.allows_look).mono fun hist' reply h => .of_nothing ?_
  obtain ⟨looks, h, hlooks⟩ := h
  rw [h]
  exact changes_of_append hactions hlooks

/-- A request that is stopped before its method. -/
theorem serves_stopped {reply : Reply} {s : Nat} (h : reply.status? = some s)
    (hstatus : 300 ≤ s) (hfound : (ServerAnswer.dav reply).found? = none)
    (hactions : actionsOf hist = []) : Serves ask hist (.ret reply) :=
  .of_failed (not_succeeded h hstatus) (by rw [hactions]; rfl) (Or.inl hfound)

/-- GET shows what its one look has found. -/
theorem serves_handleGet (hactions : actionsOf hist = []) :
    Serves (.get calendarId (filename.trimEnds ".ics")) hist (handleGet calendarId filename) := by
  refine ⟨marks_look fun _ => Ask.allows_look _ _ _, fun r _ => ?_⟩
  have hlooked : ∀ found, actionsOf (⟨.sql (.selectObjectByUid calendarId
      (filename.trimEnds ".ics")), .ok found⟩ :: hist) =
      [.look calendarId (filename.trimEnds ".ics") (found.map (·.icalData))] := by
    intro found
    rw [actionsOf_cons, hactions]
    rfl
  have hget : ∀ (reply : Reply) (found : Option CalendarObject),
      (∀ f, (ServerAnswer.dav reply).found? = some f → f = found.map (·.icalData)) →
      Performs (.get calendarId (filename.trimEnds ".ics")) (.dav reply)
        (actionsOf (⟨.sql (.selectObjectByUid calendarId (filename.trimEnds ".ics")), .ok found⟩ ::
          hist)) := by
    intro reply found hfound
    rw [hlooked]
    refine ⟨fun _ => .get _ _ _ _ rfl, ⟨.dav reply, _, .get _ _ _ [] rfl, List.nil_prefix⟩,
      fun _ => rfl, ?_⟩
    intro f hf calendarId' uid heq
    cases heq
    rw [hfound f hf]
  rcases r with e | (_ | obj)
  · refine serves_stopped (s := 500) rfl (by decide) rfl ?_
    exact (List.append_nil _).trans hactions
  · refine hget _ none fun f hf => ?_
    cases hf
    rfl
  · refine hget _ (some obj) fun f hf => ?_
    unfold buildResponse at hf
    split at hf
    · cases hf
      rfl
    · cases hf

/-- The If-Match check looks, and refuses with 412 or fails with 500. -/
theorem takes_checkIfMatch (ifMatch : Option String) (uid : String) :
    Takes ask.Allows (fun refusal actions =>
      (∃ looks, actions = actionsOf hist ++ looks ∧ changes looks = []) ∧
      ∀ reply, refusal = some reply → reply.status? = some 412 ∨ reply.status? = some 500) hist
      (checkIfMatch ifMatch calendarId uid) := by
  refine Prog.Justified.and (takes_still ((only_matchCheck ..).mono Op.Reads.still)
    Ask.allows_look) ?_
  unfold checkIfMatch
  cases ifMatch with
  | none => exact fun _ h => nomatch h
  | some expectedEtag =>
    dsimp only
    split
    · exact fun _ h => nomatch h
    · have hread : (getObjectByUid calendarId uid).run.Only Op.Still := only_sql trivial
      refine justified_bind (takes_still hread Ask.allows_look) fun _ r _ => ?_
      rcases r with e | (_ | existing)
      · exact fun reply h => Or.inr (Option.some.inj h ▸ rfl)
      · exact fun reply h => Or.inl (Option.some.inj h ▸ rfl)
      · dsimp only
        split
        · exact fun reply h => Or.inl (Option.some.inj h ▸ rfl)
        · exact fun _ h => nomatch h

theorem serves_handlePut {icalData : String} (hbody : String.fromUTF8? request.body = some icalData)
    (hactions : actionsOf hist = []) :
    Serves (.put calendarId (putUid filename icalData) icalData) hist
      (handlePut calendarId filename request) := by
  have hne : ∀ calendarId' uid,
      Ask.put calendarId (putUid filename icalData) icalData ≠ .get calendarId' uid := nofun
  have hallows : ∀ old : Option String, Ask.Allows
      (.put calendarId (putUid filename icalData) icalData)
      (if old = none then .create calendarId (putUid filename icalData) icalData
        else .replace calendarId (putUid filename icalData) icalData) := fun old =>
    (Ask.Done.put _ _ _ (.tool (.error "")) [] rfl old "").allows
      (List.mem_cons_of_mem _ List.mem_cons_self)
  unfold handlePut
  split
  · rw [hbody]
    refine justified_bind (takes_checkIfMatch _ _) fun hist₁ refusal h₁ => ?_
    obtain ⟨⟨looks, hlooked, hlooks⟩, hrefusal⟩ := h₁
    rw [hactions, List.nil_append] at hlooked
    cases refusal with
    | some reply =>
      refine .of_failed ?_ (by rw [hlooked]; exact hlooks) (Or.inr hne)
      obtain h | h := hrefusal reply rfl
      · exact not_succeeded h (by decide)
      · exact not_succeeded h (by decide)
    | none =>
      refine justified_bind (takes_upsertObject (fun _ => Ask.allows_look _ _ _) (hallows none)
        (hallows (some "")) _ hlooked) fun hist₂ result houtcome => ?_
      show Performs _ _ (actionsOf hist₂)
      cases result with
      | error e =>
        obtain ⟨old, seen, part, hpart, heq⟩ := houtcome
        refine .of_broken (.put _ _ _ (.tool (.error "")) looks hlooks old "") ?_
          (not_succeeded (s := 500) rfl (by decide)) (not_refused (s := 500) rfl (by decide))
          hne
        rw [heq, changes_append, changes_append, hlooks, changes_upserted]
        exact changes_upserted calendarId _ _ old seen ▸ changes_prefix hpart
      | ok stored =>
        obtain ⟨obj, isNew⟩ := stored
        obtain ⟨-, old, -, heq⟩ := houtcome
        rw [heq]
        refine .of_done (.put _ _ _ _ looks hlooks old obj.icalData) ?_ hne
        obtain h | h := status_response (rfl : _ = putReply (.ok (obj, isNew)))
        · rw [h]
          exact fun ⟨_, h, _⟩ => nomatch h
        · refine not_refused h (Or.inl ?_)
          split <;> decide
  · exact serves_stopped (s := 400) rfl (by decide) rfl hactions

theorem serves_handleDeleteObject (hactions : actionsOf hist = []) :
    Serves (.remove calendarId (filename.trimEnds ".ics")) hist
      (handleDeleteObject calendarId filename) := by
  have hne : ∀ calendarId' uid,
      Ask.remove calendarId (filename.trimEnds ".ics") ≠ .get calendarId' uid := nofun
  have hdone := Ask.Done.remove calendarId (filename.trimEnds ".ics") (.tool (.error ""))
  refine justified_bind (takes_deleteObject (Ask.allows_look _ _ _)
    (hdone.allows List.mem_cons_self) hactions) fun hist₁ result houtcome => ?_
  show Performs _ _ (actionsOf hist₁)
  rcases result with e | ⟨⟨⟩⟩
  · have hbroken : actionsOf hist₁ = [] ++ [] ∨
        actionsOf hist₁ = [] ++ [.remove calendarId (filename.trimEnds ".ics")] →
        Performs (.remove calendarId (filename.trimEnds ".ics"))
          (.dav (plain 500 "Internal error")) (actionsOf hist₁) := by
      intro h
      refine .of_broken hdone ?_ (not_succeeded (s := 500) rfl (by decide))
        (not_refused (s := 500) rfl (by decide)) hne
      obtain h | h := h
      · rw [h]
        exact List.nil_prefix
      · rw [h]
        exact List.prefix_rfl
    cases e with
    | notFound message =>
      refine .of_failed (not_succeeded (s := 404) rfl (by decide)) ?_ (Or.inr hne)
      have houtcome : actionsOf hist₁ = [] ++ [_] := houtcome
      rw [houtcome]
      rfl
    | _ => exact hbroken houtcome
  · have houtcome : actionsOf hist₁ = [] ++ [_] := houtcome
    rw [houtcome]
    exact .of_done (.remove _ _ _) (not_refused (s := 204) rfl (by decide)) hne

theorem serves_handleDeleteCalendar (hactions : actionsOf hist = []) :
    Serves (.drop calendarId) hist (handleDeleteCalendar calendarId) := by
  have hne : ∀ calendarId' uid, Ask.drop calendarId ≠ .get calendarId' uid := nofun
  have hdone := Ask.Done.drop calendarId (.tool (.error ""))
  refine justified_bind (takes_deleteCalendar (hdone.allows List.mem_cons_self) hactions)
    fun hist₁ result houtcome => ?_
  show Performs _ _ (actionsOf hist₁)
  rcases result with e | ⟨⟨⟩⟩
  · have houtcome : actionsOf hist₁ = [] := houtcome
    have hchanges : changes (actionsOf hist₁) = [] := by
      rw [houtcome]
      rfl
    cases e with
    | notFound message =>
      exact .of_failed (not_succeeded (s := 404) rfl (by decide)) hchanges (Or.inr hne)
    | _ => exact .of_failed (not_succeeded (s := 500) rfl (by decide)) hchanges (Or.inr hne)
  · have houtcome : actionsOf hist₁ = [] ++ [_] := houtcome
    rw [houtcome]
    exact .of_done (.drop _ _) (not_refused (s := 204) rfl (by decide)) hne

theorem serves_handleMkcalendar (username : String) (hactions : actionsOf hist = []) :
    Serves (.make calendarId) hist (handleMkcalendar lib user username calendarId request) := by
  have hne : ∀ calendarId' uid, Ask.make calendarId ≠ .get calendarId' uid := nofun
  have hdone := Ask.Done.make calendarId (.tool (.error ""))
  -- the two arms of the match on the outcome are one continuation here
  have hcreate : ∀ (hist' : List (Event Op Op.Resp)) (name color : String)
      (k : Except AppError Calendar → Action Reply), actionsOf hist' = [] →
      (∀ cal, k (.ok cal) = .ret (plain 201 "Calendar created")) →
      (∀ e, k (.error e) = .ret (plain 500 "Failed to create calendar")) →
      Serves (.make calendarId) hist'
        ((createCalendarWithId calendarId user.id name "" color "UTC").run >>= k) := by
    intro hist' name color k hactions' hok herror
    refine justified_bind (takes_createCalendarWithId (hdone.allows List.mem_cons_self) hactions' ..)
      fun hist₁ result houtcome => ?_
    cases result with
    | ok cal =>
      rw [hok]
      show Performs _ _ (actionsOf hist₁)
      have houtcome : _ ∧ actionsOf hist₁ = [] ++ [_] := houtcome
      rw [houtcome.2]
      exact .of_done (.make _ _) (not_refused (s := 201) rfl (by decide)) hne
    | error e =>
      rw [herror]
      refine .of_broken hdone ?_ (not_succeeded (s := 500) rfl (by decide))
        (not_refused (s := 500) rfl (by decide)) hne
      obtain h | h : actionsOf hist₁ = [] ∨ actionsOf hist₁ = [] ++ [_] := houtcome
      · rw [h]
        exact List.nil_prefix
      · rw [h]
        exact List.prefix_rfl
  unfold handleMkcalendar
  split
  · exact serves_stopped (s := 403) rfl (by decide) rfl hactions
  · have hread : (getCalendarById calendarId).run.Only Op.Silent := only_sql trivial
    refine justified_bind (takes_silent hread) fun hist₁ found h₁ => ?_
    have hnone : actionsOf hist₁ = [] := h₁.trans hactions
    rcases found with e | (_ | cal)
    · exact hcreate hist₁ _ _ _ hnone (fun _ => rfl) fun _ => rfl
    · exact hcreate hist₁ _ _ _ hnone (fun _ => rfl) fun _ => rfl
    · exact serves_stopped (s := 405) rfl (by decide) rfl hnone

theorem only_handleProppatch_still (hrefCtx : Option HrefContext) :
    (handleProppatch lib user hrefCtx calendarId request).Only Op.Still := by
  unfold handleProppatch
  refine only_bind (only_sql trivial) fun found => ?_
  rcases found with e | (_ | cal)
  · exact trivial
  · exact trivial
  · refine only_bind (only_updateCalendar (fun _ => trivial) (fun _ _ _ _ _ => trivial) ..) fun r => ?_
    cases r <;> exact trivial

/-- What the methods of a collection want. -/
theorem ask_collection {route : Route} (htarget : route.target? = some (calendarId, none)) :
    route.ask request = if request.method = "MKCALENDAR" then .make calendarId
      else if request.method = "DELETE" then .drop calendarId else .nothing := by
  unfold Route.ask
  rw [htarget]

theorem serves_collectionMethods (hrefCtx : Option HrefContext) (username : String)
    (hactions : actionsOf hist = []) :
    Serves (if request.method = "MKCALENDAR" then .make calendarId
      else if request.method = "DELETE" then .drop calendarId else .nothing) hist
      (collectionMethods lib user hrefCtx username calendarId request) := by
  unfold collectionMethods
  by_cases hpropfind : request.method = "PROPFIND"
  · rw [if_pos hpropfind, if_neg (by rw [hpropfind]; decide), if_neg (by rw [hpropfind]; decide)]
    exact serves_nothing ((only_handlePropfindCalendar ..).mono Op.Reads.still) hactions
  · rw [if_neg hpropfind]
    by_cases hreport : request.method = "REPORT"
    · rw [if_pos hreport, if_neg (by rw [hreport]; decide), if_neg (by rw [hreport]; decide)]
      exact serves_nothing ((only_handleReport ..).mono Op.Reads.still) hactions
    · rw [if_neg hreport]
      by_cases hmake : request.method = "MKCALENDAR"
      · rw [if_pos hmake, if_pos hmake]
        exact serves_handleMkcalendar username hactions
      · rw [if_neg hmake, if_neg hmake]
        by_cases hpatch : request.method = "PROPPATCH"
        · rw [if_pos hpatch, if_neg (by rw [hpatch]; decide)]
          exact serves_nothing (only_handleProppatch_still hrefCtx) hactions
        · rw [if_neg hpatch]
          split
          · exact serves_handleDeleteCalendar hactions
          · exact serves_nothing trivial hactions

theorem serves_objectMethods {route : Route}
    (htarget : route.target? = some (calendarId, some filename)) (hactions : actionsOf hist = []) :
    Serves (route.ask request) hist (objectMethods calendarId filename request) := by
  unfold objectMethods Route.ask
  rw [htarget]
  dsimp only
  split
  · exact serves_handleGet hactions
  · split
    · cases hbody : String.fromUTF8? request.body with
      | some icalData => exact serves_handlePut hbody hactions
      | none =>
        have hstill : (handlePut calendarId filename request).Only Op.Still := by
          unfold handlePut
          rw [hbody]
          split <;> exact trivial
        exact serves_nothing hstill hactions
    · split
      · exact serves_handleDeleteObject hactions
      · exact serves_nothing trivial hactions

/-- The check of the access goes before. -/
theorem serves_verified {p : Action Reply} (hactions : actionsOf hist = [])
    (hp : ∀ hist', actionsOf hist' = [] → Serves ask hist' p) :
    Serves ask hist (do
      if ← verifyCalendarAccess user calendarId then p else return accessDenied) := by
  have hverify : (verifyCalendarAccess user calendarId).Only Op.Silent := by
    refine only_bind (only_sql trivial) fun r => ?_
    cases r <;> exact trivial
  refine justified_bind (takes_silent hverify) fun hist₁ passed h₁ => ?_
  split
  · exact hp hist₁ (h₁.trans hactions)
  · exact serves_stopped (s := 403) rfl (by decide) rfl (h₁.trans hactions)

theorem serves_collectionFor {route : Route} (htarget : route.target? = some (calendarId, none))
    (hrefCtx : Option HrefContext) (username : String) (hactions : actionsOf hist = []) :
    Serves (route.ask request) hist
      (collectionFor lib user hrefCtx username calendarId request) := by
  have hchecked : ∀ ask : Ask, (∀ hist', actionsOf hist' = [] → Serves ask hist'
      (collectionMethods lib user hrefCtx username calendarId request)) →
      Serves ask hist (collectionFor lib user hrefCtx username calendarId request) := by
    intro ask hmethods
    unfold collectionFor
    split
    · exact serves_verified hactions hmethods
    · exact hmethods hist hactions
  rw [ask_collection htarget]
  exact hchecked _ fun hist' h => serves_collectionMethods hrefCtx username h

theorem ask_options {route : Route} (hm : request.method = "OPTIONS") :
    route.ask request = .nothing := by
  unfold Route.ask
  rw [hm]
  split <;> rfl

/-- **A CalDAV request does what it asks for.** -/
theorem performs_handle (lib : Lib) (route : Route) (request : Request) :
    Serves (route.ask request) [] (handle lib route request) := by
  by_cases hr : route.NeedsUser
  · rw [handle_eq_withUser hr]
    unfold withUser
    split
    · rename_i hm
      rw [ask_options hm]
      exact serves_nothing trivial rfl
    · have hauth : (routeUser lib route request).Only _ :=
        (only_routeUser route request).mono Op.LooksUpUser.silent
      refine justified_bind (takes_silent hauth) fun hist₁ found h₁ => ?_
      cases found with
      | none => exact serves_stopped (s := 401) rfl (by decide) rfl h₁
      | some user =>
        cases route with
        | emailCollection | calendarCollection => exact serves_collectionFor rfl _ _ h₁
        | emailObject | object =>
          exact serves_verified h₁ fun hist' h => serves_objectMethods rfl h
        | calendarHome username =>
          exact serves_nothing ((only_serve_home lib request user username).mono Op.Reads.still) h₁
        | _ => exact hr.elim
  · have hnothing : route.ask request = .nothing := by
      cases route with
      | emailCollection | calendarCollection | emailObject | object | calendarHome =>
        exact absurd trivial hr
      | _ => rfl
    rw [hnothing]
    exact serves_nothing ((only_discovery request hr).mono Op.Reads.still) rfl

end

end CaldavMcp
