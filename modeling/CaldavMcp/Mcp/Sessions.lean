/-
  Sessions of the MCP server.

  `handle_initialize` creates a session and drops its id; `handle_post` then looks the id of the
  USER up among the sessions. User ids and session ids are Uuids, each drawn once, so that
  look-up finds nothing and no answer to `initialize` has the session header
  (`serveMcp_opens`). `handle_delete` removes the session of the header and does not look
  at its user. `session_protocol_iff` says which requests keep the protocol all the same.

  `Served` is every sequence of requests to the server and of calls on the database.
-/
import CaldavMcp.Mcp.Runs
import CaldavMcp.Mcp.Transport

namespace CaldavMcp

open Program

/-! ## Where user ids come from -/

/-- An operation that adds no user. -/
def Op.NoNewUser : Op → Prop
  | .sql (.insertUser _) => False
  | _ => True

theorem Tables.userIds_after (t : Tables) {s : Sql} (h : (Op.sql s).NoNewUser) :
    (t.after s).users.map (·.id) = t.users.map (·.id) := by
  cases s with
  | insertUser u => exact h.elim
  | updatePassword hash username =>
    change (t.users.map _).map _ = _
    rw [List.map_map]
    refine List.map_congr_left fun u _ => ?_
    simp only [Function.comp_apply]
    split <;> rfl
  | insertCalendar | insertObject | insertChange | upsertShare =>
    unfold Tables.after
    simp only [Tables.exec]
    split_ifs <;> rfl
  | _ => rfl

theorem run_noNewUser {env : Env} {α : Type} {p : Action α} (hp : p.Only Op.NoNewUser)
    (w : World) :
    (p.run (exec env) w).2.db.users.map (·.id) = w.db.users.map (·.id) := by
  refine run_only (I := fun w' : World => w'.db.users.map (·.id) = w.db.users.map (·.id))
    (fun o w' ho hw' => ?_) hp rfl
  cases o with
  | sql s => exact (w'.db.toTables.userIds_after ho).trans hw'
  | newV4 | nowV7 | salt | utcNow => exact hw'

theorem Op.OfWrite.noNewUser {calendarId : String} (o : Op) (h : o.OfWrite calendarId) :
    o.NoNewUser := by
  cases o with
  | sql s => cases s <;> first | exact trivial | exact h.elim
  | newV4 | nowV7 | salt | utcNow => exact trivial

/-- The users of `w'` are those of `w` and others whose ids were drawn in between. -/
structure UsersGrow (env : Env) (w w' : World) : Prop where
  old : w.db.users.map (·.id) ⊆ w'.db.users.map (·.id)
  new : ∀ id ∈ w'.db.users.map (·.id),
    id ∈ w.db.users.map (·.id) ∨ ∃ n, w.drawn ≤ n ∧ n < w'.drawn ∧ id = env.uuid n
  drawn : w.drawn ≤ w'.drawn

namespace UsersGrow

variable {env : Env} {lib : Lib} {w w' w'' : World}

theorem of_same (h : w'.db.users.map (·.id) = w.db.users.map (·.id))
    (hdrawn : w.drawn ≤ w'.drawn) : UsersGrow env w w' :=
  ⟨fun _ hid => h ▸ hid, fun _ hid => Or.inl (h ▸ hid), hdrawn⟩

theorem trans (h : UsersGrow env w w') (h' : UsersGrow env w' w'') : UsersGrow env w w'' := by
  have hdrawn := h.drawn
  have hdrawn' := h'.drawn
  refine ⟨fun _ hid => h'.old (h.old hid), fun id hid => ?_, by omega⟩
  rcases h'.new id hid with hold | ⟨n, hn, hn', heq⟩
  · rcases h.new id hold with hold | ⟨n, hn, hn', heq⟩
    · exact Or.inl hold
    · exact Or.inr ⟨n, hn, by omega, heq⟩
  · exact Or.inr ⟨n, by omega, hn', heq⟩

/-- A program without a new user. -/
theorem of_only {α : Type} {c : Call α} (hc : c.run.Only Op.NoNewUser) (w : World) :
    UsersGrow env w (c.exec env w).2 :=
  of_same (run_noNewUser hc w) (drawn_le_run env _ w)

theorem createUser (lib : Lib) (w : World) (username : String) (email : Option String)
    (password : String) :
    UsersGrow env w ((createUser lib username email password).exec env w).2 := by
  rcases createUser_cases lib env w username email password with
    ⟨hash, user, w', hrun, -, -, husers, hdrawn⟩ | ⟨e, w', hrun, husers⟩
  · rw [hrun]
    refine ⟨?_, fun id hid => ?_, hdrawn.le⟩
    · rw [husers, List.map_append]
      exact List.subset_append_left _ _
    · rw [husers, List.map_append, List.mem_append] at hid
      rcases hid with hid | hid
      · exact Or.inl hid
      · exact Or.inr ⟨w.drawn, le_refl _, hdrawn, List.mem_singleton.mp hid⟩
  · have hmono := drawn_le_run env (CaldavMcp.createUser lib username email password).run w
    unfold Call.exec at hrun
    rw [hrun] at hmono
    rw [Call.exec, hrun]
    exact of_same (by rw [husers]) hmono

theorem dbCall {α : Type} {c : Call α} (hc : DbCall lib c) (w : World) :
    UsersGrow env w (c.exec env w).2 := by
  cases hc with
  | createUser username email password => exact createUser lib w username email password
  | resetPassword username newPassword =>
    exact of_only (only_resetPassword trivial (fun _ _ => trivial) username newPassword) w
  | createCalendar ownerId name description color timezone =>
    exact of_only (only_except_bind (only_nowV7 trivial) fun id =>
      only_createCalendarWithId trivial (fun _ => trivial) (fun _ => trivial) id ownerId name
        description color timezone) w
  | createCalendarWithId id ownerId name description color timezone =>
    exact of_only (only_createCalendarWithId trivial (fun _ => trivial) (fun _ => trivial) id
      ownerId name description color timezone) w
  | updateCalendar id name description color timezone =>
    exact of_only (only_updateCalendar (fun _ => trivial) (fun _ _ _ _ _ => trivial) id name
      description color timezone) w
  | deleteCalendar id => exact of_only (only_deleteCalendar (fun _ => trivial) id) w
  | shareCalendar calendarId userId permission =>
    exact of_only (only_shareCalendar trivial (fun _ => trivial) (fun _ _ => trivial) calendarId
      userId permission) w
  | unshareCalendar calendarId userId =>
    exact of_only (only_unshareCalendar (fun _ _ => trivial) calendarId userId) w
  | write x => exact of_only ((only_objectWrite x).mono Op.OfWrite.noNewUser) w

theorem draw (w : World) (n : Nat) : UsersGrow env w (w.draw n) :=
  of_same rfl (Nat.le_add_right _ _)

theorem steps (h : Steps env lib w w') : UsersGrow env w w' := by
  induction h with
  | refl => exact of_same rfl (le_refl _)
  | draw n _ ih => exact ih.trans (draw _ n)
  | call hc _ ih => exact ih.trans (dbCall hc _)

end UsersGrow

/-! ## What a request does -/

section

variable {env : TokenEnv} {lib : Lib} {mcp : McpLib} {α β : Type}

theorem exec_bind (x : McpAction α) (f : α → McpAction β) (w : McpWorld) :
    (x >>= f).exec env w = (f (x.exec env w).1).exec env (x.exec env w).2 := by
  unfold McpAction.exec
  rw [StateT.run_bind, run_bind]

theorem exec_lift (p : Action α) (w : McpWorld) :
    McpAction.exec env (StateT.lift p) w =
      ((p.run (exec env.toEnv) w.store.world).1,
        { w with store := { w.store with world := (p.run (exec env.toEnv) w.store.world).2 } }) := by
  have hrun : (StateT.lift p : McpAction α).run w.sessions =
    p >>= fun a => Prog.ret (a, w.sessions) := rfl
  unfold McpAction.exec
  rw [hrun, run_bind]
  rfl

/-- The world after a new session of the user. -/
def McpWorld.opened (w : McpWorld) (env : TokenEnv) (userId : String) : McpWorld where
  store := { w.store with world := w.store.world.draw 1 }
  sessions := w.sessions.insert (env.uuid w.store.world.drawn) userId

theorem createSession_exec (userId : String) (w : McpWorld) :
    (createSession userId).exec env w =
      (env.uuid w.store.world.drawn, w.opened env userId) := by
  unfold createSession
  rw [exec_bind, exec_lift]
  rfl

/-- `initialize` opens a session. -/
theorem handleRequest_opens {request : JsonRpcRequest} (h : request.method = "initialize")
    (userId toolMode : String) (w : McpWorld) :
    ((handleRequest mcp userId request toolMode).exec env w).2 = w.opened env userId := by
  unfold handleRequest
  rw [if_pos h]
  unfold handleInitialize
  rw [exec_bind, createSession_exec]
  rfl

/-- Everything a request of a user does to the world: steps on the database, or a new session of
    the user, or one session less. -/
inductive Handled (env : TokenEnv) (lib : Lib) (userId : String) (w : McpWorld) : McpWorld → Prop
  | moved {world : World} (h : Steps env.toEnv lib w.store.world world) :
      Handled env lib userId w { w with store := { w.store with world := world } }
  | opened : Handled env lib userId w (w.opened env userId)
  | closed (sessionId : String) :
      Handled env lib userId w { w with sessions := w.sessions.removeSession sessionId }

theorem Handled.refl (userId : String) (w : McpWorld) : Handled env lib userId w w :=
  .moved .refl

/-- A tool call makes steps. -/
theorem handleToolsCall_steps (userId : String) (request : JsonRpcRequest) (toolMode : String)
    (w : World) :
    Steps env.toEnv lib w
      ((handleToolsCall mcp userId request toolMode).run (exec env.toEnv) w).2 := by
  unfold handleToolsCall
  split
  · exact .refl
  · rename_i toolName _
    rw [run_bind]
    have hsteps := @moves_dispatch env.toEnv lib userId
      ((request.params.get? "arguments").getD (.object [])) toolName toolMode w
    cases ((dispatch userId toolName ((request.params.get? "arguments").getD (.object []))
      toolMode).run.run (exec env.toEnv) w).1 <;> exact hsteps

theorem handleRequest_handled (userId : String) (request : JsonRpcRequest) (toolMode : String)
    (w : McpWorld) :
    Handled env lib userId w ((handleRequest mcp userId request toolMode).exec env w).2 := by
  by_cases hinit : request.method = "initialize"
  · rw [handleRequest_opens hinit]
    exact .opened
  · unfold handleRequest
    rw [if_neg hinit]
    split_ifs
    · exact Handled.refl userId w
    · exact Handled.refl userId w
    · rw [exec_lift]
      exact .moved (handleToolsCall_steps userId request toolMode w.store.world)
    · exact Handled.refl userId w
    · exact Handled.refl userId w

theorem handlePost_handled (userId toolMode : String) (request : Request) (w : McpWorld) :
    Handled env lib userId w ((handlePost mcp userId toolMode request).exec env w).2 := by
  unfold handlePost
  split
  · exact Handled.refl userId w
  · split
    · exact Handled.refl userId w
    · rename_i rpcRequest _
      split
      · rw [exec_bind]
        exact handleRequest_handled userId rpcRequest toolMode w
      · rw [exec_bind, exec_bind]
        exact handleRequest_handled userId rpcRequest toolMode w

theorem handleDeleteSession_exec (request : Request) (w : McpWorld) :
    ((handleDeleteSession request).exec env w).2 =
      match request.header? sessionHeader with
      | some sessionId => { w with sessions := w.sessions.removeSession sessionId }
      | none => w := by
  unfold handleDeleteSession
  cases request.header? sessionHeader <;> rfl

theorem mcpHandler_handled (toolMode userId : String) (request : Request) (w : McpWorld) :
    Handled env lib userId w ((mcpHandler mcp toolMode userId request).exec env w).2 := by
  unfold mcpHandler
  split_ifs
  · exact handlePost_handled userId toolMode request w
  · exact Handled.refl userId w
  · rw [handleDeleteSession_exec]
    cases request.header? sessionHeader with
    | none => exact Handled.refl userId w
    | some sessionId => exact .closed sessionId
  · exact Handled.refl userId w

end

/-! ## Reachable states -/

/-- The states after requests to the server and calls on its database, one after the other. -/
inductive Served (env : TokenEnv) (lib : Lib) (mcp : McpLib) (toolMode : String) :
    McpWorld → Prop
  | init : Served env lib mcp toolMode ⟨⟨⟨Db.init, 0⟩, []⟩, SessionManager.new⟩
  | steps {w : McpWorld} {world : World} (h : Served env lib mcp toolMode w)
      (hsteps : Steps env.toEnv lib w.store.world world) :
      Served env lib mcp toolMode { w with store := { w.store with world := world } }
  | createToken {w : McpWorld} (userId name : String) (h : Served env lib mcp toolMode w) :
      Served env lib mcp toolMode
        { w with store := ((createToken lib userId name).exec env w.store).2 }
  | deleteToken {w : McpWorld} (tokenId : String) (h : Served env lib mcp toolMode w) :
      Served env lib mcp toolMode
        { w with store := ((deleteToken tokenId).exec env w.store).2 }
  | request {w : McpWorld} (request : Request) (h : Served env lib mcp toolMode w) :
      Served env lib mcp toolMode (serveMcp env lib mcp toolMode request w).2

/-- What holds in all of them: user ids and session ids have been drawn, and are apart. -/
structure SessionsOk (env : TokenEnv) (w : McpWorld) : Prop where
  users : ∀ id ∈ w.store.world.db.users.map (·.id), ∃ n < w.store.world.drawn, id = env.uuid n
  owners : ∀ t ∈ w.store.mcpTokens, t.userId ∈ w.store.world.db.users.map (·.id)
  sessions : ∀ sessionId, w.sessions.getUserId sessionId ≠ none →
    (∃ n < w.store.world.drawn, sessionId = env.uuid n) ∧
      sessionId ∉ w.store.world.db.users.map (·.id)

namespace SessionsOk

variable {env : TokenEnv} {lib : Lib} {mcp : McpLib} {toolMode : String} {w : McpWorld}

/-- The database moves on. -/
theorem grow (hinj : Function.Injective env.uuid) (h : SessionsOk env w) {world : World}
    (hg : UsersGrow env.toEnv w.store.world world) :
    SessionsOk env { w with store := { w.store with world := world } } := by
  have hdrawn := hg.drawn
  refine ⟨fun id hid => ?_, fun t ht => hg.old (h.owners t ht), fun sessionId hs => ?_⟩
  · rcases hg.new id hid with hold | ⟨n, -, hn, heq⟩
    · obtain ⟨n, hn, heq⟩ := h.users id hold
      exact ⟨n, lt_of_lt_of_le hn hdrawn, heq⟩
    · exact ⟨n, hn, heq⟩
  · obtain ⟨⟨n, hn, heq⟩, hnot⟩ := h.sessions sessionId hs
    refine ⟨⟨n, lt_of_lt_of_le hn hdrawn, heq⟩, fun hid => ?_⟩
    -- a user who is new has an id drawn later
    rcases hg.new sessionId hid with hold | ⟨m, hm, -, heq'⟩
    · exact hnot hold
    · have hsame := hinj (heq.symm.trans heq')
      omega

/-- The token table changes. -/
theorem tokens (h : SessionsOk env w) (rows : List McpToken)
    (hrows : ∀ t ∈ rows, t.userId ∈ w.store.world.db.users.map (·.id)) :
    SessionsOk env { w with store := { w.store with mcpTokens := rows } } :=
  ⟨h.users, hrows, h.sessions⟩

theorem opened (hinj : Function.Injective env.uuid) (h : SessionsOk env w) (userId : String) :
    SessionsOk env (w.opened env userId) := by
  have hgrow := h.grow hinj (UsersGrow.draw w.store.world 1)
  refine ⟨hgrow.users, hgrow.owners, fun sessionId hs => ?_⟩
  by_cases hnew : sessionId = env.uuid w.store.world.drawn
  · refine ⟨⟨_, Nat.lt_succ_self _, hnew⟩, fun hid => ?_⟩
    obtain ⟨n, hn, heq⟩ := h.users sessionId hid
    have hsame := hinj (hnew.symm.trans heq)
    omega
  · refine hgrow.sessions sessionId fun hnone => hs ?_
    unfold McpWorld.opened SessionManager.insert SessionManager.getUserId
    dsimp only
    rw [Function.update_of_ne hnew]
    exact hnone

theorem closed (h : SessionsOk env w) (sessionId : String) :
    SessionsOk env { w with sessions := w.sessions.removeSession sessionId } := by
  refine ⟨h.users, h.owners, fun sessionId' hs => h.sessions sessionId' fun hnone => hs ?_⟩
  unfold SessionManager.removeSession SessionManager.getUserId
  dsimp only
  by_cases heq : sessionId' = sessionId
  · rw [heq, Function.update_self]
  · rw [Function.update_of_ne heq]
    exact hnone

theorem handled (hinj : Function.Injective env.uuid) (h : SessionsOk env w) {userId : String}
    {w' : McpWorld} (hh : Handled env lib userId w w') : SessionsOk env w' := by
  cases hh with
  | moved hsteps => exact h.grow hinj (UsersGrow.steps hsteps)
  | opened => exact h.opened hinj userId
  | closed sessionId => exact h.closed sessionId

theorem serve (hinj : Function.Injective env.uuid) (h : SessionsOk env w) (request : Request) :
    SessionsOk env (serveMcp env lib mcp toolMode request w).2 := by
  unfold serveMcp
  split
  · exact h
  · rename_i token _
    rw [validateToken_exec]
    cases validateFrom lib token _ with
    | error e => exact h
    | ok answer =>
      cases answer with
      | none => exact h
      | some userId =>
        have hhandled : Handled env lib userId w
            ((mcpHandler mcp toolMode userId request).exec env w).2 :=
          mcpHandler_handled toolMode userId request w
        exact h.handled hinj hhandled

end SessionsOk

section

variable {env : TokenEnv} {lib : Lib} {mcp : McpLib} {toolMode : String} {w : McpWorld}

/-- What every run keeps. -/
theorem Served.ok (hinj : Function.Injective env.uuid) (h : Served env lib mcp toolMode w) :
    SessionsOk env w := by
  induction h with
  | init => exact ⟨nofun, nofun, fun _ hs => absurd rfl hs⟩
  | steps h hsteps ih => exact ih.grow hinj (UsersGrow.steps hsteps)
  | @createToken w userId name h ih =>
    rcases createToken_cases lib env w.store userId name with
      ⟨raw, record, store, hrun, hcreated⟩ | ⟨e, store, hrun, hrows, hworld⟩
    · rw [hrun]
      have hgrow := ih.grow hinj (UsersGrow.draw w.store.world 3)
      have htokens := hgrow.tokens store.mcpTokens (by
        rw [hcreated.rows]
        intro t ht
        rcases List.mem_append.mp ht with ht | ht
        · exact ih.owners t ht
        · rw [List.mem_singleton.mp ht, hcreated.owner]
          exact hcreated.user)
      rw [← hcreated.world] at htokens
      exact htokens
    · rw [hrun]
      have hgrow := ih.grow hinj (UsersGrow.draw w.store.world 3)
      have htokens := hgrow.tokens store.mcpTokens (by
        rw [hrows]
        exact ih.owners)
      rw [← hworld] at htokens
      exact htokens
  | @deleteToken w tokenId h ih =>
    rw [deleteToken_exec]
    exact ih.tokens _ fun t ht => ih.owners t (List.mem_of_mem_filter ht)
  | request request h ih => exact ih.serve hinj request

end

/-! ## The protocol -/

/-- The request is authenticated as this user. -/
def Authenticated (env : TokenEnv) (lib : Lib) (w : McpWorld) (request : Request)
    (userId : String) : Prop :=
  ∃ token, bearerToken request = .ok token ∧
    (validateToken lib token).exec env w.store = (.ok (some userId), w.store)

/-- A POST of an `initialize` request with an id. -/
def IsInitialize (mcp : McpLib) (request : Request) : Prop :=
  request.method = "POST" ∧ ∃ rpcRequest, mcp.fromSlice request.body = .ok rpcRequest ∧
    rpcRequest.id.isSome ∧ rpcRequest.method = "initialize"

/-- The protocol, for one request of a user: an `initialize` is answered with the id of a
    session of the user, and a DELETE removes the session it names only if it is the user's, and
    no other. -/
structure KeepsProtocol (mcp : McpLib) (userId : String) (request : Request) (w : McpWorld)
    (reply : Reply) (w' : McpWorld) : Prop where
  initialize_answered : IsInitialize mcp request → ∃ sessionId,
    reply.header? sessionHeader = some sessionId ∧ w'.sessions.getUserId sessionId = some userId
  delete_own : request.method = "DELETE" → ∀ sessionId,
    request.header? sessionHeader = some sessionId →
      (w.sessions.getUserId sessionId ≠ none → w'.sessions.getUserId sessionId = none →
        w.sessions.getUserId sessionId = some userId) ∧
      ∀ other, other ≠ sessionId → w'.sessions.getUserId other = w.sessions.getUserId other

section

variable {env : TokenEnv} {lib : Lib} {mcp : McpLib} {toolMode userId : String} {w : McpWorld}
  {request : Request}

theorem serveMcp_authenticated (h : Authenticated env lib w request userId) :
    serveMcp env lib mcp toolMode request w =
      (mcpHandler mcp toolMode userId request).exec env w := by
  obtain ⟨token, htoken, hvalid⟩ := h
  unfold serveMcp
  rw [htoken]
  dsimp only
  rw [hvalid]

/-- An authenticated user has a row. -/
theorem Authenticated.user (h : Authenticated env lib w request userId) (hok : SessionsOk env w) :
    userId ∈ w.store.world.db.users.map (·.id) := by
  obtain ⟨token, -, hvalid⟩ := h
  rw [validateToken_exec] at hvalid
  have hfound : ∀ rows, validateFrom lib token rows = .ok (some userId) →
      ∃ t ∈ rows, t.userId = userId := by
    intro rows
    induction rows with
    | nil => exact nofun
    | cons t rows ih =>
      intro h
      unfold validateFrom at h
      split at h
      · cases h
      · exact ⟨t, List.mem_cons_self, Option.some.inj (Except.ok.inj h)⟩
      · obtain ⟨t', ht', huser⟩ := ih h
        exact ⟨t', List.mem_cons_of_mem _ ht', huser⟩
  obtain ⟨t, ht, huser⟩ := hfound _ (congrArg Prod.fst hvalid)
  rw [← huser]
  exact hok.owners t (List.mem_of_mem_filter ((env.scan_perm _).mem_iff.mp ht))

/-- No session has the id of a user. -/
theorem SessionsOk.no_session (hok : SessionsOk env w)
    (h : userId ∈ w.store.world.db.users.map (·.id)) : w.sessions.getUserId userId = none := by
  by_contra hs
  exact (hok.sessions userId hs).2 h

/-- The answer to `initialize` has no session header. -/
theorem serveMcp_opens (hinj : Function.Injective env.uuid) (hok : SessionsOk env w)
    (hauth : Authenticated env lib w request userId) (h : IsInitialize mcp request) :
    (serveMcp env lib mcp toolMode request w).1.header? sessionHeader = none := by
  obtain ⟨hpost, rpcRequest, hparse, hid, hmethod⟩ := h
  have huser := hauth.user hok
  have hnone : (w.opened env userId).sessions.getUserId userId = none := by
    exact (hok.opened hinj userId).no_session huser
  rw [serveMcp_authenticated hauth]
  unfold mcpHandler
  rw [if_pos hpost]
  unfold handlePost
  split
  · rfl
  · rw [hparse]
    dsimp only
    have hsome : ¬ rpcRequest.id.isNone = true := by
      rw [Option.isNone_iff_eq_none]
      exact Option.isSome_iff_ne_none.mp hid
    rw [if_neg hsome, exec_bind, exec_bind]
    have hget : ∀ w : McpWorld, (get : McpAction SessionManager).exec env w = (w.sessions, w) :=
      fun _ => rfl
    rw [hget, handleRequest_opens hmethod]
    dsimp only
    rw [if_pos hmethod, hnone]
    rfl

end

/-- **The session protocol.** In every reachable state, a request of an authenticated user keeps
    the protocol exactly when it is no `initialize` with an id, and deletes no session of
    another user. -/
theorem session_protocol_iff (env : TokenEnv) (hinj : Function.Injective env.uuid) (lib : Lib)
    (mcp : McpLib) (toolMode : String) (w : McpWorld) (h : Served env lib mcp toolMode w)
    (request : Request) (userId : String) (hauth : Authenticated env lib w request userId) :
    KeepsProtocol mcp userId request w (serveMcp env lib mcp toolMode request w).1
        (serveMcp env lib mcp toolMode request w).2 ↔
      ¬ IsInitialize mcp request ∧
        (request.method = "DELETE" → ∀ sessionId, request.header? sessionHeader = some sessionId →
          w.sessions.getUserId sessionId = none ∨
            w.sessions.getUserId sessionId = some userId) := by
  have hok := h.ok hinj
  -- what a DELETE leaves
  have hdelete : request.method = "DELETE" → ∀ sessionId,
      request.header? sessionHeader = some sessionId →
      (serveMcp env lib mcp toolMode request w).2.sessions =
        w.sessions.removeSession sessionId := by
    intro hmethod sessionId hheader
    rw [serveMcp_authenticated hauth]
    unfold mcpHandler
    rw [hmethod, if_neg (by decide), if_neg (by decide), if_pos rfl, handleDeleteSession_exec,
      hheader]
  constructor
  · intro hkeeps
    refine ⟨fun hinit => ?_, fun hmethod sessionId hheader => ?_⟩
    · obtain ⟨sessionId, hheader, -⟩ := hkeeps.initialize_answered hinit
      rw [serveMcp_opens hinj hok hauth hinit] at hheader
      cases hheader
    · have hgone : (serveMcp env lib mcp toolMode request w).2.sessions.getUserId sessionId =
          none := by
        rw [hdelete hmethod sessionId hheader]
        exact Function.update_self ..
      by_cases hnone : w.sessions.getUserId sessionId = none
      · exact Or.inl hnone
      · exact Or.inr ((hkeeps.delete_own hmethod sessionId hheader).1 hnone hgone)
  · rintro ⟨hinit, hown⟩
    refine ⟨fun h => absurd h hinit, fun hmethod sessionId hheader => ⟨fun hsome _ => ?_, ?_⟩⟩
    · rcases hown hmethod sessionId hheader with hnone | hmine
      · exact absurd hnone hsome
      · exact hmine
    · intro other hne
      rw [hdelete hmethod sessionId hheader]
      exact Function.update_of_ne hne ..

/-! ### Alice's session -/

/-- Every body is an `initialize` request. -/
def initializeMcp : McpLib where
  fromSlice _ := .ok ⟨some (.ofNat 1), "initialize", .object []⟩
  toVec _ := "{}"
  toStringPretty _ := "{}"
  allTools _ := []

/-- A request with alice's token. -/
def aliceRequest (method : String) (headers : List (String × ByteArray)) : Request :=
  ⟨method, ("authorization", "Bearer mcp_aaa".toUTF8) :: headers, "initialize".toUTF8⟩

/-- Alice has a token and no session. -/
def tokenWorld : McpWorld := ⟨laptopWorld, SessionManager.new⟩

/-- Alice has a session. -/
def sessionWorld : McpWorld :=
  (serveMcp countingTokenEnv plainLib initializeMcp "full" (aliceRequest "POST" []) tokenWorld).2

theorem tokenWorld_served : Served countingTokenEnv plainLib initializeMcp "full" tokenWorld :=
  Served.createToken (w := ⟨accountWorld, SessionManager.new⟩) "" "laptop"
    (Served.steps (w := ⟨⟨⟨Db.init, 0⟩, []⟩, SessionManager.new⟩) .init
      (Steps.refl.call (.createUser "alice" none "secret")))

theorem alice_authenticated {w : McpWorld} (hrows : w.store.mcpTokens = laptopWorld.mcpTokens)
    (hdrawn : laptopWorld.world.drawn ≤ w.store.world.drawn) {request : Request}
    (htoken : bearerToken request = .ok "mcp_aaa") :
    Authenticated countingTokenEnv plainLib w request "" := by
  have hok := (laptopWorld_history.ok countingEnv_uuid_injective).frame hrows hdrawn
  obtain ⟨answer, hrun, hiff⟩ := validateToken_answer plainLib_sound hok "mcp_aaa"
  rw [(hiff "").mpr laptopLog_active] at hrun
  exact ⟨"mcp_aaa", htoken, hrun⟩

theorem alice_initialize : IsInitialize initializeMcp (aliceRequest "POST" []) :=
  ⟨rfl, _, rfl, rfl, rfl⟩

theorem tokenWorld_authenticated :
    Authenticated countingTokenEnv plainLib tokenWorld (aliceRequest "POST" []) "" :=
  alice_authenticated rfl (le_refl _) (by decide +kernel)

/-- Alice's DELETE of her session. -/
def aliceDelete : Request := aliceRequest "DELETE" [(sessionHeader, "aaaaa".toUTF8)]

theorem session_protocol_iff_alice :
    sessionWorld.sessions.getUserId "aaaaa" = some "" ∧
      KeepsProtocol initializeMcp "" aliceDelete sessionWorld
        (serveMcp countingTokenEnv plainLib initializeMcp "full" aliceDelete sessionWorld).1
        (serveMcp countingTokenEnv plainLib initializeMcp "full" aliceDelete sessionWorld).2 := by
  have hsession : sessionWorld.sessions.getUserId "aaaaa" = some "" := by decide +kernel
  have hauth : Authenticated countingTokenEnv plainLib sessionWorld aliceDelete "" :=
    alice_authenticated (by decide +kernel) (by decide +kernel) (by decide +kernel)
  refine ⟨hsession, (session_protocol_iff countingTokenEnv countingEnv_uuid_injective plainLib
    initializeMcp "full" sessionWorld (tokenWorld_served.request _) aliceDelete "" hauth).mpr
    ⟨fun h => absurd h.1 (by decide), fun _ sessionId hheader => Or.inr ?_⟩⟩
  have hid : aliceDelete.header? sessionHeader = some "aaaaa" := by decide +kernel
  rw [← Option.some.inj (hid.symm.trans hheader)]
  exact hsession

theorem session_protocol_fails : Served countingTokenEnv plainLib initializeMcp "full" tokenWorld ∧
    Authenticated countingTokenEnv plainLib tokenWorld (aliceRequest "POST" []) "" ∧
    ¬ KeepsProtocol initializeMcp "" (aliceRequest "POST" []) tokenWorld
      (serveMcp countingTokenEnv plainLib initializeMcp "full" (aliceRequest "POST" [])
        tokenWorld).1
      (serveMcp countingTokenEnv plainLib initializeMcp "full" (aliceRequest "POST" [])
        tokenWorld).2 := by
  refine ⟨tokenWorld_served, tokenWorld_authenticated, fun hkeeps => ?_⟩
  obtain ⟨sessionId, hheader, -⟩ := hkeeps.initialize_answered alice_initialize
  rw [serveMcp_opens countingEnv_uuid_injective
    (tokenWorld_served.ok countingEnv_uuid_injective) tokenWorld_authenticated
    alice_initialize] at hheader
  cases hheader

end CaldavMcp
