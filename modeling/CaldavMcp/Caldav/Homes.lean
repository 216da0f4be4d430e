/-
  Whose calendars a MKCALENDAR depends on.

  `handle_mkcalendar` looks for a calendar with the id of the path, whoever owns it, and the id
  is the key of the table. So the answer depends on the calendars of every user. The two-run
  statement compares two states with the same users and the same calendars of the sender:
  `Foreign` is what may differ between them.
-/
import CaldavMcp.Caldav.Credentials
import CaldavMcp.Caldav.Permissions
import CaldavMcp.Db.Accounts

namespace CaldavMcp

open Program

section

variable {env : Env} {lib : Lib} {w : World} {route : Route} {request : Request} {user : User}

/-! ## Users that are found have a row -/

theorem tryBasicAuth_mem {header : String}
    (h : ((tryBasicAuth lib header).run (exec env) w).1 = some user) : user ∈ w.db.users := by
  rw [tryBasicAuth_run] at h
  obtain ⟨⟨username, password⟩, -, h⟩ := Option.bind_eq_some_iff.mp h
  dsimp only at h
  rw [verifyUser_exec] at h
  cases hfound : (w.db.userByUsername username).or (w.db.userByEmail username) with
  | none =>
    rw [hfound] at h
    cases h
  | some found =>
    rw [hfound] at h
    dsimp only at h
    have hmem : found ∈ w.db.users := by
      rcases Option.or_eq_some_iff.mp hfound with h' | ⟨-, h'⟩
      · exact List.mem_of_find?_eq_some h'
      · exact List.mem_of_find?_eq_some h'
    cases hv : verifyPassword lib password found.passwordHash with
    | error e =>
      rw [hv] at h
      cases h
    | ok valid =>
      rw [hv] at h
      cases valid with
      | false => cases h
      | true =>
        rw [← Option.some.inj h]
        exact hmem

theorem authOr_mem {authHeader : Option String} {lookup : Call (Option User)}
    (hlookup : ∀ found, (lookup.run.run (exec env) w).1 = .ok (some found) → found ∈ w.db.users)
    (h : ((authOr lib authHeader lookup).run (exec env) w).1 = some user) :
    user ∈ w.db.users := by
  unfold authOr at h
  cases authHeader with
  | some header => exact tryBasicAuth_mem h
  | none =>
    dsimp only at h
    rw [run_bind] at h
    rcases hl : (lookup.run.run (exec env) w).1 with e | found
    · rw [hl] at h
      cases h
    · rw [hl] at h
      cases found with
      | none => cases h
      | some found =>
        rw [← Option.some.inj h]
        exact hlookup found hl

/-- The user a request is served for has a row. -/
theorem Resolves.mem (hroute : route.NeedsUser) (h : Resolves env lib w route request user) :
    user ∈ w.db.users := by
  have hname : ∀ username found, ((getUserByUsername username).run.run (exec env) w).1 =
      .ok (some found) → found ∈ w.db.users :=
    fun _ _ hf => List.mem_of_find?_eq_some (Except.ok.inj hf)
  have hemail : ∀ email found, ((getUserByEmail email).run.run (exec env) w).1 =
      .ok (some found) → found ∈ w.db.users :=
    fun _ _ hf => List.mem_of_find?_eq_some (Except.ok.inj hf)
  cases route with
  | emailCollection email | emailObject email => exact authOr_mem (hemail email) h
  | calendarCollection username | object username | calendarHome username =>
    exact authOr_mem (hname username) h
  | _ => exact hroute.elim

/-! ## MKCALENDAR in one's own home -/

/-- The calendar's path in a user's home, by username or by email. -/
def Route.InHomeOf (user : User) (calendarId : String) : Route → Prop
  | .calendarCollection username id => username = user.username ∧ id = calendarId
  | .emailCollection _ id => id = calendarId
  | _ => False

theorem Route.InHomeOf.needsUser {calendarId : String} (h : route.InHomeOf user calendarId) :
    route.NeedsUser := by
  cases route with
  | calendarCollection | emailCollection => trivial
  | _ => exact h.elim

/-- What a MKCALENDAR in one's own home does: 405 if the id is used, by whomever, and else a
    calendar of the sender. -/
theorem mkcalendar_run {calendarId : String} (hm : request.method = "MKCALENDAR")
    (hroute : route.InHomeOf user calendarId) (hres : Resolves env lib w route request user) :
    (calendarId ∈ w.db.calendarIds →
      ((handle lib route request).run (exec env) w).1.status? = some 405 ∧
        ((handle lib route request).run (exec env) w).2.db.toTables = w.db.toTables) ∧
    (calendarId ∉ w.db.calendarIds →
      ((handle lib route request).run (exec env) w).1.status? = some 201 ∧
        ((handle lib route request).run (exec env) w).2.db.Owns user.id calendarId) := by
  have hmem : user.id ∈ w.db.users.map (·.id) :=
    List.mem_map_of_mem (hres.mem hroute.needsUser)
  have hrun : ∃ username, username = user.username ∧ (handle lib route request).run (exec env) w =
      (handleMkcalendar lib user username calendarId request).run (exec env) w := by
    rw [handle_resolved hroute.needsUser (by rw [hm]; decide) hres]
    have hmethods : ∀ hrefCtx username, collectionFor lib user hrefCtx username calendarId request =
        handleMkcalendar lib user username calendarId request := by
      intro hrefCtx username
      unfold collectionFor collectionMethods
      rw [hm, if_neg (by decide), if_neg (by decide), if_neg (by decide), if_pos rfl]
    cases route with
    | calendarCollection username id =>
      obtain ⟨rfl, rfl⟩ := hroute
      exact ⟨_, rfl, congrArg (fun a => a.run (exec env) w) (hmethods ..)⟩
    | emailCollection email id =>
      obtain rfl : id = calendarId := hroute
      exact ⟨_, rfl, congrArg (fun a => a.run (exec env) w) (hmethods ..)⟩
    | _ => exact hroute.elim
  obtain ⟨username, hname, hrun⟩ := hrun
  rw [hrun]
  have houtcome := handleMkcalendar_outcome env lib w user username calendarId request
  have hok := ((handleMkcalendar lib user username calendarId request).run (exec env) w).2.db.ok
  generalize ((handleMkcalendar lib user username calendarId request).run (exec env) w).1 = reply
    at houtcome
  generalize ((handleMkcalendar lib user username calendarId request).run (exec env)
    w).2.db.toTables = t at houtcome hok ⊢
  cases houtcome with
  | forbidden hne => exact absurd hname.symm hne
  | taken _ hid => exact ⟨fun _ => ⟨rfl, rfl⟩, fun h => absurd hid h⟩
  | created _ hfree r hid howner =>
    refine ⟨fun h => absurd h hfree, fun _ => ⟨rfl, hok.owns_iff.mpr ?_⟩⟩
    exact ⟨r, List.mem_append_right _ (List.mem_singleton_self r), hid, howner⟩
  | failed _ _ hnone => exact absurd hmem hnone

end

/-- Another user has a calendar with this id. -/
def Tables.Foreign (t : Tables) (userId calendarId : String) : Prop :=
  ∃ r, t.calendarById calendarId = some r ∧ r.ownerId ≠ userId

theorem Tables.owns_or_foreign {t : Tables} (userId : String) {calendarId : String} :
    calendarId ∈ t.calendarIds ↔ t.Owns userId calendarId ∨ t.Foreign userId calendarId := by
  rw [mem_calendarIds, Option.isSome_iff_exists]
  constructor
  · rintro ⟨r, hr⟩
    by_cases ho : r.ownerId = userId
    · exact Or.inl ⟨r, hr, ho⟩
    · exact Or.inr ⟨r, hr, ho⟩
  · rintro (⟨r, hr, -⟩ | ⟨r, hr, -⟩)
    · exact ⟨r, hr⟩
    · exact ⟨r, hr⟩

theorem Tables.Owns.not_foreign {t : Tables} {userId calendarId : String}
    (h : t.Owns userId calendarId) : ¬ t.Foreign userId calendarId := by
  obtain ⟨r, hr, ho⟩ := h
  rintro ⟨r', hr', hne⟩
  obtain rfl := Option.some.inj (hr.symm.trans hr')
  exact hne ho

/-- A request of the user is answered with one status in two states, and leaves the user with
    the calendar in both or in neither. -/
structure SameOutcome (env : Env) (lib : Lib) (route : Route) (request : Request) (user : User)
    (calendarId : String) (w w' : World) : Prop where
  status : ((handle lib route request).run (exec env) w).1.status? =
    ((handle lib route request).run (exec env) w').1.status?
  obtained : ((handle lib route request).run (exec env) w).2.db.Owns user.id calendarId ↔
    ((handle lib route request).run (exec env) w').2.db.Owns user.id calendarId

/-- **Calendar creation and the other homes.** Two states have the same users, and the sender
    has the same calendars in both. A MKCALENDAR in the sender's own home has one outcome in
    both exactly when another user has a calendar with that id in both or in neither. -/
theorem mkcalendar_private_iff (env : Env) (lib : Lib) (w w' : World) (user : User)
    (calendarId : String) (route : Route) (hroute : route.InHomeOf user calendarId)
    (request : Request) (hm : request.method = "MKCALENDAR")
    (hres : Resolves env lib w route request user) (husers : w.db.users = w'.db.users)
    (hown : ∀ id, w.db.Owns user.id id ↔ w'.db.Owns user.id id) :
    SameOutcome env lib route request user calendarId w w' ↔
      (w.db.Foreign user.id calendarId ↔ w'.db.Foreign user.id calendarId) := by
  have hres' : Resolves env lib w' route request user := (routeUser_congr husers).symm.trans hres
  obtain ⟨htaken, hfree⟩ := mkcalendar_run hm hroute hres
  obtain ⟨htaken', hfree'⟩ := mkcalendar_run hm hroute hres'
  by_cases ho : w.db.Owns user.id calendarId
  · have ho' := (hown calendarId).mp ho
    obtain ⟨hs, ht⟩ := htaken ho.exists
    obtain ⟨hs', ht'⟩ := htaken' ho'.exists
    refine iff_of_true ⟨hs.trans hs'.symm, ?_⟩ (iff_of_false ho.not_foreign ho'.not_foreign)
    rw [ht, ht']
    exact hown calendarId
  · have ho' : ¬ w'.db.Owns user.id calendarId := fun h => ho ((hown calendarId).mpr h)
    have hids : calendarId ∈ w.db.calendarIds ↔ w.db.Foreign user.id calendarId := by
      rw [Tables.owns_or_foreign user.id]
      exact or_iff_right ho
    have hids' : calendarId ∈ w'.db.calendarIds ↔ w'.db.Foreign user.id calendarId := by
      rw [Tables.owns_or_foreign user.id]
      exact or_iff_right ho'
    rw [← hids, ← hids']
    by_cases hid : calendarId ∈ w.db.calendarIds
    · obtain ⟨hs, ht⟩ := htaken hid
      by_cases hid' : calendarId ∈ w'.db.calendarIds
      · obtain ⟨hs', ht'⟩ := htaken' hid'
        refine iff_of_true ⟨hs.trans hs'.symm, ?_⟩ (iff_of_true hid hid')
        rw [ht, ht']
        exact hown calendarId
      · refine iff_of_false (fun h => ?_) fun h => hid' (h.mp hid)
        have hstatus := h.status
        rw [hs, (hfree' hid').1] at hstatus
        cases hstatus
    · obtain ⟨hs, ht⟩ := hfree hid
      by_cases hid' : calendarId ∈ w'.db.calendarIds
      · refine iff_of_false (fun h => ?_) fun h => hid (h.mpr hid')
        have hstatus := h.status
        rw [hs, (htaken' hid').1] at hstatus
        cases hstatus
      · obtain ⟨hs', ht'⟩ := hfree' hid'
        exact iff_of_true ⟨hs.trans hs'.symm, iff_of_true ht ht'⟩ (iff_of_false hid hid')

/-! ### Alice's calendar and bob's home -/

/-- Alice and bob have accounts and no calendars. -/
def newcomersWorld : World :=
  ((createUser sampleLib "bob" none "secret").exec countingEnv
    (((createUser sampleLib "alice" (some "alice@example.com") "secret").exec countingEnv
      ⟨Db.init, 0⟩).2.draw 1)).2

theorem newcomersWorld_reachable : Reachable countingEnv sampleLib newcomersWorld :=
  .call (.createUser ..) (.draw 1 (.call (.createUser ..) .init))

/-- Alice and bob have accounts, and alice has a calendar `work`. -/
def neighboursWorld : World :=
  ((createUser sampleLib "bob" none "secret").exec countingEnv foundedWorld).2

theorem neighboursWorld_reachable : Reachable countingEnv sampleLib neighboursWorld :=
  .call (.createUser ..) foundedWorld_reachable

/-- Bob has no calendar. -/
theorem bob_owns_nothing (id : String) :
    newcomersWorld.db.Owns bob.id id ↔ neighboursWorld.db.Owns bob.id id := by
  have hnone : ¬ newcomersWorld.db.Owns bob.id id := by
    rw [newcomersWorld.db.ok.owns_iff]
    have hempty : newcomersWorld.db.calendars = [] := by decide +kernel
    rw [hempty]
    rintro ⟨r, hr, -⟩
    cases hr
  have hnone' : ¬ neighboursWorld.db.Owns bob.id id := by
    rw [neighboursWorld.db.ok.owns_iff]
    have hothers : ∀ r ∈ neighboursWorld.db.calendars, r.ownerId ≠ bob.id := by decide +kernel
    rintro ⟨r, hr, -, ho⟩
    exact hothers r hr ho
  exact iff_of_false hnone hnone'

/-- Bob's MKCALENDAR of `home` is not touched by alice's `work`. -/
theorem mkcalendar_private_iff_home : SameOutcome countingEnv sampleLib
    (.calendarCollection "bob" "home") (bareRequest "MKCALENDAR") bob "home" newcomersWorld
    neighboursWorld := by
  refine (mkcalendar_private_iff countingEnv sampleLib newcomersWorld neighboursWorld bob "home"
    (.calendarCollection "bob" "home") ⟨rfl, rfl⟩ (bareRequest "MKCALENDAR") rfl
    rfl (by decide +kernel) bob_owns_nothing).mpr (iff_of_false ?_ ?_)
  · have hnone : newcomersWorld.db.calendarById "home" = none := by decide +kernel
    rintro ⟨r, hr, -⟩
    rw [hnone] at hr
    cases hr
  · have hnone : neighboursWorld.db.calendarById "home" = none := by decide +kernel
    rintro ⟨r, hr, -⟩
    rw [hnone] at hr
    cases hr

/-- Bob's MKCALENDAR of `work` is refused for alice's calendar. -/
theorem mkcalendar_refused_for_neighbour :
    Reachable countingEnv sampleLib newcomersWorld ∧
      Reachable countingEnv sampleLib neighboursWorld ∧
      newcomersWorld.db.users = neighboursWorld.db.users ∧
      (∀ id, newcomersWorld.db.Owns bob.id id ↔ neighboursWorld.db.Owns bob.id id) ∧
      neighboursWorld.db.permissionOf "work" bob.id = none ∧
      Resolves countingEnv sampleLib newcomersWorld (.calendarCollection "bob" "work")
        (bareRequest "MKCALENDAR") bob ∧
      ¬ SameOutcome countingEnv sampleLib (.calendarCollection "bob" "work")
        (bareRequest "MKCALENDAR") bob "work" newcomersWorld neighboursWorld := by
  refine ⟨newcomersWorld_reachable, neighboursWorld_reachable, by decide +kernel,
    bob_owns_nothing, by decide +kernel, rfl, fun h => ?_⟩
  have hstatus := h.status
  revert hstatus
  decide +kernel

end CaldavMcp
