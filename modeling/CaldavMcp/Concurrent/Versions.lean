/-
  One etag, one version.

  Every request stores at most one object row, with an etag that it has drawn (`storesOnce_program`),
  and no two requests draw the same one. `EtagsOwned` says so of a pool: each stored etag is its
  thread's own, and each row has the etag of a thread that has stored it. So a statement that stores
  a row never stores an etag that was stored before (`EtagsOwned.fresh`).

  Every row of a run is therefore known by its etag, at whatever two moments it is read
  (`etag_identifies_version`). A client sees rows by GET and by `get_event`, and what these show is
  a row that they have read (`ShowsRow`). So an etag is a strong validator for clients too, over
  all objects, calendars and both ports (`same_etag_same_data`).
-/
import CaldavMcp.Server

namespace CaldavMcp

open Program

/-! ## The invariant -/

/-- Some request has stored this etag. -/
def Taken (p : ServerPool) (etag : String) : Prop :=
  ∃ (i : Nat) (t : ServerThread), p.threads[i]? = some t ∧ ∃ e ∈ t.hist, e.1.etag? = some etag

/-- The request has drawn this value. -/
def Drew (t : ServerThread) (v : String) : Prop := ⟨.newV4, v⟩ ∈ t.hist

/-- The etags stored in a run that began with an empty database. -/
structure EtagsOwned (env : Env) (p : ServerPool) : Prop where
  rest : ∀ (i : Nat) (t : ServerThread), p.threads[i]? = some t →
    t.rest.Justified KeyedAnswer StoresOnce (fun _ _ => True) t.hist
  drew : ∀ (i : Nat) (t : ServerThread), p.threads[i]? = some t → ∀ v, Drew t v →
    ∃ n < p.state.drawn, v = env.uuid n
  apart : ∀ (i j : Nat) (t t' : ServerThread), p.threads[i]? = some t →
    p.threads[j]? = some t' → ∀ v, Drew t v → Drew t' v → i = j
  stored : ∀ (i : Nat) (t : ServerThread), p.threads[i]? = some t → ∀ e ∈ t.hist,
    ∀ etag ∈ e.1.etag?, ∃ v, Drew t v ∧ etag = etagOf v
  rows : ∀ o ∈ p.state.db.calendarObjects, Taken p o.etag
  unique : ∀ o ∈ p.state.db.calendarObjects, ∀ o' ∈ p.state.db.calendarObjects,
    o.etag = o'.etag → o = o'

/-- The etag of this row is taken, and no other row has it. -/
structure TakenBy (o : CalendarObject) (p : ServerPool) : Prop where
  taken : Taken p o.etag
  only : ∀ o' ∈ p.state.db.calendarObjects, o'.etag = o.etag → o' = o

section

variable {env : Env} {p : ServerPool} {i j : Nat} {t : ServerThread} {o : Op} {k : o.Resp → Action ServerAnswer}

theorem drawn_le_exec (env : Env) (o : Op) (w : World) : w.drawn ≤ (exec env o w).2.drawn := by
  cases o with
  | sql s => exact le_refl _
  | newV4 | nowV7 | salt | utcNow => exact Nat.le_succ _

/-- A row that is stored has an etag that nobody has stored before. -/
theorem EtagsOwned.fresh (hp : EtagsOwned env p) (ht : p.threads[j]? = some t)
    (hr : t.rest = .call o k) {etag : String} (ho : o.etag? = some etag) : ¬ Taken p etag := by
  rintro ⟨i, t', ht', e, he, hetag⟩
  have hjust := hp.rest j t ht
  rw [hr] at hjust
  obtain ⟨hnone, v, hv, rfl⟩ := hjust.1 etag ho
  obtain ⟨v', hv', heq⟩ := hp.stored i t' ht' e he _ hetag
  obtain rfl := etagOf_inj heq
  obtain rfl := hp.apart i j t' t ht' ht v hv' hv
  rw [ht] at ht'
  obtain rfl := Option.some.inj ht'
  rw [hnone e he] at hetag
  cases hetag

/-- What has been stored stays so. -/
theorem Taken.call {etag : String} (h : Taken p etag) {r : o.Resp} {w : World}
    {q : Action ServerAnswer} (ht : p.threads[j]? = some t) :
    Taken ⟨w, p.threads.set j ⟨⟨o, r⟩ :: t.hist, q⟩⟩ etag := by
  obtain ⟨i, t', ht', e, he, hetag⟩ := h
  have hj := (List.getElem?_eq_some_iff.mp ht).1
  by_cases hij : j = i
  · subst hij
    rw [ht] at ht'
    obtain rfl := Option.some.inj ht'
    exact ⟨j, _, List.getElem?_set_self hj, e, List.mem_cons_of_mem _ he, hetag⟩
  · exact ⟨i, t', (List.getElem?_set_ne hij).trans ht', e, he, hetag⟩

/-- A step stores its own etag. -/
theorem taken_call {etag : String} (ho : o.etag? = some etag) {r : o.Resp} {w : World}
    {q : Action ServerAnswer} (ht : p.threads[j]? = some t) :
    Taken ⟨w, p.threads.set j ⟨⟨o, r⟩ :: t.hist, q⟩⟩ etag :=
  ⟨j, _, List.getElem?_set_self (List.getElem?_eq_some_iff.mp ht).1, _, List.mem_cons_self, ho⟩

/-- A row after an operation: it was there, or it has the etag of the operation; and the
    operation makes one such row. -/
theorem objects_exec (env : Env) (o : Op) (w : World) {r : CalendarObject}
    (hr : r ∈ (exec env o w).2.db.calendarObjects) :
    r ∈ w.db.calendarObjects ∨ o.etag? = some r.etag := by
  obtain hr | rfl | ⟨etag, icalData, fields, r', -, rfl, rfl⟩ := mem_objects_exec hr
  · exact Or.inl hr
  · exact Or.inr rfl
  · exact Or.inr rfl

/-- Two rows that are not from before an operation are one. -/
theorem objects_exec_unique (env : Env) (o : Op) (w : World) {r r' : CalendarObject}
    (hr : r ∈ (exec env o w).2.db.calendarObjects) (hr' : r' ∈ (exec env o w).2.db.calendarObjects)
    (hnew : r ∉ w.db.calendarObjects) (hnew' : r' ∉ w.db.calendarObjects) : r = r' := by
  have hkey : ∀ x ∈ (exec env o w).2.db.calendarObjects,
      ∀ x' ∈ (exec env o w).2.db.calendarObjects,
      x.calendarId = x'.calendarId → x.uid = x'.uid → x = x' := by
    intro x hx x' hx' hc hu
    have hx₁ := (exec env o w).2.db.ok.objectByUid_of_mem hx
    have hx₂ := (exec env o w).2.db.ok.objectByUid_of_mem hx'
    rw [hc, hu, hx₂] at hx₁
    exact (Option.some.inj hx₁).symm
  obtain h | rfl | ⟨etag, icalData, fields, x, -, rfl, rfl⟩ := mem_objects_exec hr
  · exact absurd h hnew
  · obtain h | h | ⟨etag, icalData, fields, x', -, h, -⟩ := mem_objects_exec hr'
    · exact absurd h hnew'
    · cases h
      rfl
    · cases h
  · obtain h | h | ⟨etag', icalData', fields', x', -, h, rfl⟩ := mem_objects_exec hr'
    · exact absurd h hnew'
    · cases h
    · refine hkey _ hr _ hr' ?_ ?_
      · injection h with h
        injection h
      · injection h with h
        injection h

/-- **One step.** -/
theorem EtagsOwned.call (hinj : Function.Injective env.uuid) (hp : EtagsOwned env p)
    (ht : p.threads[j]? = some t) (hr : t.rest = .call o k) :
    EtagsOwned env ⟨(exec env o p.state).2,
      p.threads.set j ⟨⟨o, (exec env o p.state).1⟩ :: t.hist, k (exec env o p.state).1⟩⟩ := by
  have hjust := hp.rest j t ht
  rw [hr] at hjust
  have hdrawn := drawn_le_exec env o p.state
  -- a value that is drawn is new
  have hnew : ∀ v, Drew ⟨⟨o, (exec env o p.state).1⟩ :: t.hist, k (exec env o p.state).1⟩ v →
      Drew t v ∨ v = env.uuid p.state.drawn ∧ p.state.drawn < (exec env o p.state).2.drawn := by
    intro v hv
    obtain hv | hv := List.mem_cons.mp hv
    · cases hv
      exact Or.inr ⟨rfl, Nat.lt_succ_self _⟩
    · exact Or.inl hv
  have hfresh : ∀ (i : Nat) (t' : ServerThread), p.threads[i]? = some t' →
      ¬ Drew t' (env.uuid p.state.drawn) := by
    intro i t' ht' hv
    obtain ⟨n, hn, heq⟩ := hp.drew i t' ht' _ hv
    have := hinj heq
    omega
  refine ⟨?_, ?_, ?_, ?_, ?_, ?_⟩
  · intro i t' ht'
    obtain ⟨rfl, rfl⟩ | ⟨-, ht'⟩ := getElem?_set_cases ht'
    · exact hjust.2 _ (keyedAnswer_exec env o p.state)
    · exact hp.rest i t' ht'
  · intro i t' ht' v hv
    obtain ⟨rfl, rfl⟩ | ⟨-, ht'⟩ := getElem?_set_cases ht'
    · obtain hv | ⟨rfl, hlt⟩ := hnew v hv
      · obtain ⟨n, hn, hv⟩ := hp.drew i t ht v hv
        exact ⟨n, lt_of_lt_of_le hn hdrawn, hv⟩
      · exact ⟨_, hlt, rfl⟩
    · obtain ⟨n, hn, hv⟩ := hp.drew i t' ht' v hv
      exact ⟨n, lt_of_lt_of_le hn hdrawn, hv⟩
  · intro i i' t₁ t₂ h₁ h₂ v hv₁ hv₂
    obtain ⟨rfl, rfl⟩ | ⟨hi, ht₁⟩ := getElem?_set_cases h₁
    · obtain ⟨rfl, rfl⟩ | ⟨hi', ht₂⟩ := getElem?_set_cases h₂
      · rfl
      · obtain hv₁ | ⟨rfl, -⟩ := hnew v hv₁
        · exact hp.apart i i' t t₂ ht ht₂ v hv₁ hv₂
        · exact absurd hv₂ (hfresh i' t₂ ht₂)
    · obtain ⟨rfl, rfl⟩ | ⟨hi', ht₂⟩ := getElem?_set_cases h₂
      · obtain hv₂ | ⟨rfl, -⟩ := hnew v hv₂
        · exact hp.apart i i' t₁ t ht₁ ht v hv₁ hv₂
        · exact absurd hv₁ (hfresh i t₁ ht₁)
      · exact hp.apart i i' t₁ t₂ ht₁ ht₂ v hv₁ hv₂
  · intro i t' ht' e he etag hetag
    obtain ⟨rfl, rfl⟩ | ⟨-, ht'⟩ := getElem?_set_cases ht'
    · obtain rfl | he := List.mem_cons.mp he
      · obtain ⟨-, v, hv, heq⟩ := hjust.1 etag hetag
        exact ⟨v, List.mem_cons_of_mem _ hv, heq⟩
      · obtain ⟨v, hv, heq⟩ := hp.stored i t ht e he etag hetag
        exact ⟨v, List.mem_cons_of_mem _ hv, heq⟩
    · exact hp.stored i t' ht' e he etag hetag
  · intro x hx
    obtain hx | hetag := objects_exec env o p.state hx
    · exact (hp.rows x hx).call ht
    · exact taken_call hetag ht
  · intro x hx x' hx' heq
    by_cases hold : x ∈ p.state.db.calendarObjects
    · by_cases hold' : x' ∈ p.state.db.calendarObjects
      · exact hp.unique x hold x' hold' heq
      · have hetag := (objects_exec env o p.state hx').resolve_left hold'
        rw [← heq] at hetag
        exact absurd (hp.rows x hold) (hp.fresh ht hr hetag)
    · by_cases hold' : x' ∈ p.state.db.calendarObjects
      · have hetag := (objects_exec env o p.state hx).resolve_left hold
        rw [heq] at hetag
        exact absurd (hp.rows x' hold') (hp.fresh ht hr hetag)
      · exact objects_exec_unique env o p.state hx hx' hold hold'

/-- A row stays the only one with its etag. -/
theorem TakenBy.call {row : CalendarObject} (hp : EtagsOwned env p) (hrow : TakenBy row p)
    (ht : p.threads[j]? = some t) (hr : t.rest = .call o k) :
    TakenBy row ⟨(exec env o p.state).2,
      p.threads.set j ⟨⟨o, (exec env o p.state).1⟩ :: t.hist, k (exec env o p.state).1⟩⟩ := by
  refine ⟨hrow.taken.call ht, fun x hx heq => ?_⟩
  obtain hx | hetag := objects_exec env o p.state hx
  · exact hrow.only x hx heq
  · rw [heq] at hetag
    exact absurd hrow.taken (hp.fresh ht hr hetag)

/-- **A run.** -/
theorem EtagsOwned.exec (hinj : Function.Injective env.uuid) (hp : EtagsOwned env p)
    (sched : List Nat) : EtagsOwned env (p.exec (CaldavMcp.exec env) sched) := by
  refine Pool.exec_keeps (G := fun _ _ => True) (I := EtagsOwned env) ?_ sched p hp
    (Pool.Along.of_forall (fun _ _ _ => trivial) _)
  intro q i hq _
  obtain hs | ⟨t, o, k, ht, hr, hs⟩ := Pool.step_cases (CaldavMcp.exec env) q i
  · rw [hs]
    exact hq
  · rw [hs]
    exact hq.call hinj ht hr

theorem TakenBy.exec (hinj : Function.Injective env.uuid) {row : CalendarObject}
    (hp : EtagsOwned env p) (hrow : TakenBy row p) (sched : List Nat) :
    TakenBy row (p.exec (CaldavMcp.exec env) sched) := by
  refine (Pool.exec_keeps (G := fun _ _ => True) (I := fun q => EtagsOwned env q ∧ TakenBy row q)
    ?_ sched p ⟨hp, hrow⟩ (Pool.Along.of_forall (fun _ _ _ => trivial) _)).2
  intro q i hq _
  obtain hs | ⟨t, o, k, ht, hr, hs⟩ := Pool.step_cases (CaldavMcp.exec env) q i
  · rw [hs]
    exact hq
  · rw [hs]
    exact ⟨hq.1.call hinj ht hr, hq.2.call hq.1 ht hr⟩

end

/-- Before the first request nothing is stored. -/
theorem etagsOwned_start (env : Env) (lib : Lib) (requests : List ServerRequest) :
    EtagsOwned env (serverPool lib ⟨Db.init, 0⟩ requests) := by
  have hhist : ∀ (i : Nat) (t : ServerThread), (serverPool lib ⟨Db.init, 0⟩ requests).threads[i]? = some t →
      t.hist = [] := by
    intro i t ht
    obtain ⟨request, -, rfl⟩ := serverPool_threads lib ⟨Db.init, 0⟩ ht
    rfl
  refine ⟨?_, ?_, ?_, ?_, nofun, nofun⟩
  · intro i t ht
    obtain ⟨request, -, rfl⟩ := serverPool_threads lib ⟨Db.init, 0⟩ ht
    exact storesOnce_program lib request
  · intro i t ht v hv
    unfold Drew at hv
    rw [hhist i t ht] at hv
    exact absurd hv List.not_mem_nil
  · intro i j t t' ht _ v hv
    unfold Drew at hv
    rw [hhist i t ht] at hv
    exact absurd hv List.not_mem_nil
  · intro i t ht e he
    rw [hhist i t ht] at he
    exact absurd he List.not_mem_nil

/-- Two rows with one etag, read at any two moments of a run, are the same row. -/
theorem etag_identifies_version {env : Env} (hinj : Function.Injective env.uuid) {lib : Lib}
    {requests : List ServerRequest} {before sched : List Nat} (hbefore : before <+: sched)
    {o o' : CalendarObject}
    (ho : o ∈
      ((serverPool lib ⟨Db.init, 0⟩ requests).exec (exec env) before).state.db.calendarObjects)
    (ho' : o' ∈
      ((serverPool lib ⟨Db.init, 0⟩ requests).exec (exec env) sched).state.db.calendarObjects)
    (he : o'.etag = o.etag) : o' = o := by
  obtain ⟨later, rfl⟩ := hbefore
  have hp := (etagsOwned_start env lib requests).exec hinj before
  have hrow : TakenBy o ((serverPool lib ⟨Db.init, 0⟩ requests).exec (exec env) before) :=
    ⟨hp.rows o ho, fun x hx heq => hp.unique x hx o ho heq⟩
  rw [Pool.exec_append] at ho'
  exact (hrow.exec hinj hp later).only o' ho' he

/-! ## What a client sees -/

/-- The requests that ask for one object: GET, and the tool `get_event`. -/
def ServerRequest.AsksObject : ServerRequest → Prop
  | .dav _ request => request.method = "GET"
  | .tool _ toolName _ toolMode => toolName = "get_event" ∧ toolMode ≠ "simple"
  | .cmdCreateUser .. | .cmdResetPassword .. => False

/-- The etag and the data of an object in an answer. -/
def ServerAnswer.version? : ServerAnswer → Option (String × String)
  | .dav (.response r) =>
    match r.headers.lookup "etag", r.body with
    | some etag, .text data => some (etag, data)
    | _, _ => none
  | .tool (.ok json) =>
    match json.str? "etag", json.str? "ical_data" with
    | some etag, some data => some (etag, data)
    | _, _ => none
  | _ => none

/-- What the answer shows of an object is what a row had that has been read. -/
def ShowsRow (hist : List (Event Op Op.Resp)) (a : ServerAnswer) : Prop :=
  ∀ version, a.version? = some version → ∃ calendarId uid o,
    (⟨.sql (.selectObjectByUid calendarId uid), .ok (some o)⟩ : Event Op Op.Resp) ∈ hist ∧
    version = (o.etag, o.icalData)

section

variable {lib : Lib} {request : Request} {user : User} {calendarId filename : String}
  {hist : List (Event Op Op.Resp)}

/-- Justified as a program that shows rows. -/
abbrev Shows (hist : List (Event Op Op.Resp)) (p : Action Reply) : Prop :=
  p.Justified KeyedAnswer (fun _ _ => True) (fun hist' reply => ShowsRow hist' (.dav reply)) hist

theorem showsRow_none {a : ServerAnswer} (h : a.version? = none) : ShowsRow hist a := by
  intro version hv
  rw [h] at hv
  cases hv

theorem version?_redirect (status : Nat) (location : String) (rest : List (String × String))
    (hrest : rest.lookup "etag" = none) (body : Body) :
    (ServerAnswer.dav (buildResponse status (("location", location) :: rest) body)).version? =
      none := by
  have hlookup : List.lookup "etag" (("location", location) :: rest) = none := hrest
  unfold buildResponse
  split
  · show (match List.lookup "etag" (("location", location) :: rest), body with
      | some etag, .text data => some (etag, data)
      | _, _ => none) = none
    rw [hlookup]
  · rfl

/-- After a program that shows nothing. -/
theorem shows_after {α : Type} {p : Action α} {f : α → Action Reply} (hp : p.Only Op.Reads)
    (hf : ∀ hist' a, Shows hist' (f a)) : Shows hist (p >>= f) :=
  justified_bind (justified_of_only hp fun _ _ _ _ => trivial) fun hist' a _ => hf hist' a

theorem shows_handleGet : Shows hist (handleGet calendarId filename) := by
  refine ⟨trivial, fun r _ => ?_⟩
  rcases r with e | (_ | o)
  · exact showsRow_none rfl
  · exact showsRow_none rfl
  · intro version hv
    refine ⟨calendarId, _, o, List.mem_cons_self, ?_⟩
    unfold buildResponse at hv
    split at hv
    · exact (Option.some.inj hv).symm
    · cases hv

theorem shows_serve (hm : request.method = "GET") (route : Route) :
    Shows hist (serve lib request user route) := by
  have hobject : ∀ calendarId filename, Shows hist (objectFor user calendarId filename request) := by
    intro calendarId filename
    refine shows_after (only_verifyCalendarAccess user calendarId) fun hist' passed => ?_
    split
    · unfold objectMethods
      rw [if_pos hm]
      exact shows_handleGet
    · exact showsRow_none rfl
  have hcollection : ∀ hrefCtx username calendarId,
      Shows hist (collectionFor lib user hrefCtx username calendarId request) := by
    intro hrefCtx username calendarId
    unfold collectionFor
    rw [if_pos (by rw [hm]; decide)]
    refine shows_after (only_verifyCalendarAccess user calendarId) fun hist' passed => ?_
    split
    · unfold collectionMethods
      rw [hm]
      exact showsRow_none rfl
    · exact showsRow_none rfl
  cases route with
  | emailCollection | calendarCollection => exact hcollection _ _ _
  | emailObject | object => exact hobject _ _
  | calendarHome username =>
    show Shows hist (if request.method = "PROPFIND" then _ else _)
    rw [hm]
    exact showsRow_none rfl
  | _ => exact showsRow_none rfl

theorem shows_handle (hm : request.method = "GET") (route : Route) :
    Shows [] (handle lib route request) := by
  by_cases hr : route.NeedsUser
  · rw [handle_eq_withUser hr]
    unfold withUser
    split
    · exact showsRow_none rfl
    · refine shows_after ((only_routeUser route request).mono Op.LooksUpUser.reads) ?_
      intro hist' found
      cases found with
      | none => exact showsRow_none rfl
      | some user => exact shows_serve hm route
  · have hredirect : ∀ location rest, rest.lookup "etag" = none →
        Shows [] (return buildResponse 301 (("location", location) :: rest) (.text "")) :=
      fun location rest hrest => showsRow_none (version?_redirect 301 location rest hrest _)
    have hne : request.method ≠ "OPTIONS" ∧ request.method ≠ "PROPFIND" := by
      rw [hm]
      decide
    cases route with
    | wellKnown =>
      show Shows [] (return handleWellKnown request)
      unfold handleWellKnown
      rw [if_neg hne.1]
      exact hredirect _ _ rfl
    | principal username =>
      show Shows [] (return handlePrincipalDiscovery username request)
      unfold handlePrincipalDiscovery
      rw [if_neg hne.1]
      exact hredirect _ _ rfl
    | serverRoot =>
      show Shows [] (handleServerRoot lib request)
      unfold handleServerRoot
      rw [if_neg hne.1, if_neg hne.2]
      exact hredirect _ _ rfl
    | caldavRoot | fallback =>
      show Shows [] (handleCaldavRoot lib request)
      unfold handleCaldavRoot
      rw [if_neg hne.1, if_neg hne.2]
      exact showsRow_none rfl
    | emailHome email =>
      show Shows [] (handleCaldavEmailDiscovery lib email request)
      unfold handleCaldavEmailDiscovery
      rw [if_neg hne.1, if_neg hne.2]
      exact showsRow_none rfl
    | _ => exact absurd trivial hr

/-- The answer of `get_event` shows the row it has read. -/
theorem shows_getEvent (userId : String) (args : Json) :
    (getEvent userId args).run.Justified KeyedAnswer (fun _ _ => True)
      (fun hist' result => ShowsRow hist' (.tool result)) hist := by
  unfold getEvent required
  cases args.str? "calendar_id" with
  | none => exact showsRow_none rfl
  | some calendarId =>
    cases args.str? "event_uid" with
    | none => exact showsRow_none rfl
    | some eventUid =>
      refine ⟨trivial, fun r _ => ?_⟩
      rcases r with e | (_ | o)
      · exact showsRow_none rfl
      · exact showsRow_none rfl
      · intro version hv
        exact ⟨calendarId, eventUid, o, List.mem_cons_self, (Option.some.inj hv).symm⟩

end

theorem shows_program (lib : Lib) {request : ServerRequest} (h : request.AsksObject) :
    (request.program lib).Justified KeyedAnswer (fun _ _ => True) ShowsRow [] := by
  cases request with
  | dav route request => exact justified_bind (shows_handle h route) fun _ _ hshows => hshows
  | tool userId toolName arguments toolMode =>
    obtain ⟨rfl, hmode⟩ := h
    have hdispatch : dispatch userId "get_event" arguments toolMode = getEvent userId arguments := by
      unfold dispatch
      rw [if_neg hmode]
      rfl
    show ((dispatch userId "get_event" arguments toolMode).run >>= _).Justified _ _ _ _
    rw [hdispatch]
    exact justified_bind (shows_getEvent userId arguments) fun _ _ hshows => hshows
  | cmdCreateUser | cmdResetPassword => exact h.elim

/-- **One etag, one version.** Whatever requests are sent to a new server, however they
    interleave: two answers of GET or of `get_event` that show the same etag show the same
    data, whatever objects they have been asked for and at whatever moments they have read them. -/
theorem same_etag_same_data (env : Env) (hinj : Function.Injective env.uuid) (lib : Lib)
    (requests : List ServerRequest) (sched : List Nat) (i j : Nat) (r r' : ServerRequest)
    (t t' : ServerThread) (a a' : ServerAnswer) (etag data data' : String)
    (hi : requests[i]? = some r) (hj : requests[j]? = some r')
    (hr : r.AsksObject) (hr' : r'.AsksObject)
    (ht : ((serverPool lib ⟨Db.init, 0⟩ requests).exec (exec env) sched).threads[i]? = some t)
    (ht' : ((serverPool lib ⟨Db.init, 0⟩ requests).exec (exec env) sched).threads[j]? = some t')
    (ha : t.result? = some a) (ha' : t'.result? = some a')
    (hv : a.version? = some (etag, data)) (hv' : a'.version? = some (etag, data')) :
    data = data' := by
  have seen : ∀ {k : Nat} {q : ServerRequest} {u : ServerThread} {b : ServerAnswer} {d : String},
      requests[k]? = some q → q.AsksObject →
      ((serverPool lib ⟨Db.init, 0⟩ requests).exec (exec env) sched).threads[k]? = some u →
      u.result? = some b → b.version? = some (etag, d) →
      ∃ before, before <+: sched ∧ ∃ o ∈
        ((serverPool lib ⟨Db.init, 0⟩ requests).exec (exec env) before).state.db.calendarObjects,
        o.etag = etag ∧ o.icalData = d := by
    intro k q u b d hk hq hu hb hd
    have hk' : (requests.map (·.program lib))[k]? = some (q.program lib) := by
      rw [List.getElem?_map, hk]
      rfl
    have hshows := Pool.result_justified (keyedAnswer_exec env) hk' (shows_program lib hq) sched hu hb
    obtain ⟨calendarId, uid, o, hevent, heq⟩ := hshows _ hd
    obtain ⟨before, hbefore, hanswer⟩ := Pool.seen_earlier sched hu hevent
    injection heq with hetag hdata
    exact ⟨before, hbefore, o, List.mem_of_find?_eq_some (Except.ok.inj hanswer).symm, hetag.symm,
      hdata.symm⟩
  obtain ⟨before, hbefore, o, ho, he, rfl⟩ := seen hi hr ht ha hv
  obtain ⟨before', hbefore', o', ho', he', rfl⟩ := seen hj hr' ht' ha' hv'
  -- one of the two moments comes first
  obtain hle | hle := List.prefix_or_prefix_of_prefix hbefore hbefore'
  · rw [etag_identifies_version hinj hle ho ho' (he'.trans he.symm)]
  · rw [etag_identifies_version hinj hle ho' ho (he.trans he'.symm)]

/-- Alice's first object, and a client of each port that asks for it. -/
def noonRequests : List ServerRequest :=
  [.cmdCreateUser "alice" "secret" none,
    .dav (.calendarCollection "alice" "work") ⟨"MKCALENDAR", [], ByteArray.empty⟩,
    .dav (.object "alice" "work" "noon.ics") ⟨"PUT", [], "at noon".toUTF8⟩,
    .dav (.object "alice" "work" "noon.ics") ⟨"GET", [], ByteArray.empty⟩,
    .tool "aa" "get_event"
      (.object [("calendar_id", .string "work"), ("event_uid", .string "noon")]) "full"]

/-- One after the other, but for the last two. -/
def noonRun : ServerPool :=
  (serverPool sampleLib ⟨Db.init, 0⟩ noonRequests).exec (exec countingEnv)
    [0, 0, 0, 0, 1, 1, 1, 1, 1, 2, 2, 2, 2, 2, 2, 2, 2, 2, 2, 2, 3, 4, 3, 3]

/-- What the client has been shown. -/
def noonShown (i : Nat) : Option (String × String) := (noonRun.answer? i).bind (·.version?)

theorem same_etag_same_data_noon : ∃ data data', noonShown 3 = some ("\"aaa\"", data) ∧
    noonShown 4 = some ("\"aaa\"", data') ∧ data = data' := by
  have h₃ : noonShown 3 = some ("\"aaa\"", "at noon") := by decide +kernel
  have h₄ : noonShown 4 = some ("\"aaa\"", "at noon") := by decide +kernel
  obtain ⟨t, a, ht, ha, hv⟩ := answer_cases h₃
  obtain ⟨t', a', ht', ha', hv'⟩ := answer_cases h₄
  exact ⟨_, _, h₃, h₄, same_etag_same_data countingEnv countingEnv_uuid_injective sampleLib
    noonRequests _ 3 4 _ _ t t' a a' _ _ _ rfl rfl rfl ⟨rfl, by decide⟩ ht ht' ha ha' hv hv'⟩

end CaldavMcp
