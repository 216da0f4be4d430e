/-
  `src/db/tokens.rs`: the bearer tokens of the MCP server, and which of them are valid.

  The table `mcp_tokens` is read and written by these functions only, so it stands beside the
  world: a `TokenWorld` is a world and the rows. `created_at` is left out (only the list of
  tokens shows it). No function sets `expires_at`; the column is there because `validate_token`
  asks for it. `SELECT` without ORDER BY may list the rows in any order: `TokenEnv.scan` is that
  order, of which only that it lists the same rows is known.

  `TokenHistory` is every sequence of `create_token` and `delete_token` calls, successful or
  not, with any other calls in between, together with the log of what they answered.
  `token_valid_iff` says which strings `validate_token` accepts after it.
-/
import CaldavMcp.Db.Accounts
import CaldavMcp.Db.History

namespace CaldavMcp

open Program

/-- An MCP API token. -/
structure McpToken where
  id : String
  userId : String
  tokenHash : String
  name : String
  expiresAt : Option String
  deriving DecidableEq, Repr

/-- The database with its token table. -/
structure TokenWorld where
  world : World
  mcpTokens : List McpToken

/-- The sources of the process, with the random bytes of tokens in their text form, and the order
    in which the rows of the token table are listed. -/
structure TokenEnv extends Env where
  rawBytes : Nat → String
  scan : List McpToken → List McpToken
  scan_perm : ∀ rows, (scan rows).Perm rows

/-- The statements and draws of `tokens.rs`. -/
inductive TokenOp where
  | insertToken (t : McpToken)
  | selectToken (id : String)
  | selectLive
  | deleteToken (id : String)
  | nowV7
  | randomBytes
  | salt
  deriving DecidableEq, Repr

@[reducible] def TokenOp.Resp : TokenOp → Type
  | insertToken _ | deleteToken _ => Except DbError Nat
  | selectToken _ => Except DbError (Option McpToken)
  | selectLive => Except DbError (List McpToken)
  | nowV7 | randomBytes | salt => String

/-- Draw one value. -/
def TokenWorld.draw (w : TokenWorld) : TokenWorld := { w with world := w.world.draw 1 }

/-- What each operation does. -/
def tokenExec (env : TokenEnv) : Handler TokenOp TokenOp.Resp TokenWorld
  | .insertToken t, w =>
    if w.mcpTokens.any (·.id = t.id) then (.error (.primaryKey "mcp_tokens.id"), w)
    else if w.world.db.users.any (·.id = t.userId) then
      (.ok 1, { w with mcpTokens := w.mcpTokens ++ [t] })
    else (.error .foreignKey, w)
  | .selectToken id, w => (.ok (w.mcpTokens.find? (·.id = id)), w)
  | .selectLive, w =>
    (.ok (env.scan (w.mcpTokens.filter fun t => t.expiresAt.all (· > env.now w.world.drawn))), w)
  | .deleteToken id, w =>
    (.ok (w.mcpTokens.filter (·.id = id)).length,
      { w with mcpTokens := w.mcpTokens.filter (·.id ≠ id) })
  | .nowV7, w => (env.uuid w.world.drawn, w.draw)
  | .randomBytes, w => (env.rawBytes w.world.drawn, w.draw)
  | .salt, w => (env.salt w.world.drawn, w.draw)

/-- A call of `tokens.rs`. -/
abbrev TokenCall (α : Type) := ExceptT AppError (Prog TokenOp TokenOp.Resp) α

def TokenCall.exec {α : Type} (env : TokenEnv) (c : TokenCall α) (w : TokenWorld) :
    Except AppError α × TokenWorld :=
  c.run.run (tokenExec env) w

/-- The answer of a statement, with its failure turned into `AppError::Database`. -/
def asCall {α : Type} : Except DbError α → TokenCall α
  | .ok a => pure a
  | .error e => throw (.database e)

/-! ## `tokens.rs` -/

section

variable (lib : Lib)

/-- Generate a random token. -/
def generateRawToken : TokenCall String := do
  let bytes : String ← ExceptT.lift (Prog.perform TokenOp.randomBytes)
  return "mcp_" ++ bytes

/-- Hash a token. -/
def hashToken (token : String) : TokenCall String := do
  let salt : String ← ExceptT.lift (Prog.perform TokenOp.salt)
  match lib.argon2Hash token salt with
  | .ok hash => return hash
  | .error e => throw (.internal ("Token hashing failed: " ++ e))

/-- Verify a raw token against a stored hash. -/
def verifyToken (token hash : String) : Except AppError Bool :=
  match lib.argon2Verify token hash with
  | .ok valid => .ok valid
  | .error e => .error (.internal ("Invalid token hash: " ++ e))

/-- Create a token for a user. Returns the raw token and the record. -/
def createToken (userId name : String) : TokenCall (String × McpToken) := do
  let id : String ← ExceptT.lift (Prog.perform TokenOp.nowV7)
  let rawToken ← generateRawToken
  let tokenHash ← hashToken lib rawToken
  let _ ← asCall (← ExceptT.lift (Prog.perform (TokenOp.insertToken
    { id := id, userId := userId, tokenHash := tokenHash, name := name, expiresAt := none })))
  match ← asCall (← ExceptT.lift (Prog.perform (TokenOp.selectToken id))) with
  | some record => return (rawToken, record)
  | none => throw (.database (.failed
      "no rows returned by a query that expected to return at least one row"))

/-- The loop of `validate_token`: the user of the first row that matches. -/
def validateFrom (rawToken : String) : List McpToken → Except AppError (Option String)
  | [] => .ok none
  | token :: rest =>
    match verifyToken lib rawToken token.tokenHash with
    | .error e => .error e
    | .ok true => .ok (some token.userId)
    | .ok false => validateFrom rawToken rest

/-- Validate a raw token and return the user's id. -/
def validateToken (rawToken : String) : TokenCall (Option String) := do
  let tokens ← asCall (← ExceptT.lift (Prog.perform TokenOp.selectLive))
  ExceptT.mk (pure (validateFrom lib rawToken tokens))

end

/-- Delete a token by id. -/
def deleteToken (tokenId : String) : TokenCall Unit := do
  let rows ← asCall (← ExceptT.lift (Prog.perform (TokenOp.deleteToken tokenId)))
  if rows = 0 then throw (.notFound "Token not found")

/-! ## What the calls do -/

section

variable {lib : Lib} {env : TokenEnv} {w : TokenWorld}

/-- A draw, and what follows it. -/
theorem run_randomBytes : generateRawToken.run.run (tokenExec env) w =
    (.ok ("mcp_" ++ env.rawBytes w.world.drawn), w.draw) := rfl

theorem run_hashToken (token : String) : (hashToken lib token).run.run (tokenExec env) w =
    (match lib.argon2Hash token (env.salt w.world.drawn) with
      | .ok hash => .ok hash
      | .error e => .error (.internal ("Token hashing failed: " ++ e)), w.draw) := by
  have hsalt : (ExceptT.lift (Prog.perform TokenOp.salt) : TokenCall String).run.run
    (tokenExec env) w = (.ok (env.salt w.world.drawn), w.draw) := rfl
  unfold hashToken
  rw [run_except_bind_ok hsalt]
  cases lib.argon2Hash token (env.salt w.world.drawn) <;> rfl

/-- A statement, and what follows it. -/
theorem run_perform_bind {β : Type} (o : TokenOp) (f : o.Resp → TokenCall β) :
    ((ExceptT.lift (Prog.perform o) : TokenCall o.Resp) >>= f).run.run (tokenExec env) w =
      (f (tokenExec env o w).1).run.run (tokenExec env) (tokenExec env o w).2 := rfl

/-- A record was created. -/
structure Created (lib : Lib) (env : TokenEnv) (w w' : TokenWorld) (userId rawToken : String)
    (record : McpToken) : Prop where
  raw : rawToken = "mcp_" ++ env.rawBytes (w.world.drawn + 1)
  owner : record.userId = userId
  unexpired : record.expiresAt = none
  hash : ∃ salt, lib.argon2Hash rawToken salt = .ok record.tokenHash
  fresh : record.id ∉ w.mcpTokens.map (·.id)
  user : userId ∈ w.world.db.users.map (·.id)
  rows : w'.mcpTokens = w.mcpTokens ++ [record]
  world : w'.world = w.world.draw 3

/-- A call creates a record, or changes no row. -/
theorem createToken_cases (lib : Lib) (env : TokenEnv) (w : TokenWorld) (userId name : String) :
    (∃ raw record w', (createToken lib userId name).exec env w = (.ok (raw, record), w') ∧
      Created lib env w w' userId raw record) ∨
    ∃ e w', (createToken lib userId name).exec env w = (.error e, w') ∧
      w'.mcpTokens = w.mcpTokens ∧ w'.world = w.world.draw 3 := by
  have hid : (ExceptT.lift (Prog.perform TokenOp.nowV7) : TokenCall String).run.run
    (tokenExec env) w = (.ok (env.uuid w.world.drawn), w.draw) := rfl
  have hhash : (hashToken lib ("mcp_" ++ env.rawBytes w.draw.world.drawn)).run.run (tokenExec env)
    w.draw.draw = _ := run_hashToken _
  unfold TokenCall.exec createToken
  rw [run_except_bind_ok hid, run_except_bind_ok run_randomBytes]
  cases hok : lib.argon2Hash ("mcp_" ++ env.rawBytes w.draw.world.drawn)
      (env.salt w.draw.draw.world.drawn) with
  | error e =>
    rw [hok] at hhash
    rw [run_except_bind_error hhash]
    exact Or.inr ⟨_, _, rfl, rfl, rfl⟩
  | ok hash =>
    rw [hok] at hhash
    rw [run_except_bind_ok hhash, run_perform_bind]
    generalize hrow : (⟨env.uuid w.world.drawn, userId, hash, name, none⟩ : McpToken) = row
    have hexec : tokenExec env (.insertToken row) w.draw.draw.draw =
        if w.mcpTokens.any (·.id = row.id) then
          (.error (.primaryKey "mcp_tokens.id"), w.draw.draw.draw)
        else if w.world.db.users.any (·.id = row.userId) then
          (.ok 1, { w.draw.draw.draw with mcpTokens := w.mcpTokens ++ [row] })
        else (.error .foreignKey, w.draw.draw.draw) := rfl
    split_ifs at hexec with hdup huser
    · rw [hexec]
      exact Or.inr ⟨_, _, rfl, rfl, rfl⟩
    · have hfind : (w.mcpTokens ++ [row]).find? (·.id = env.uuid w.world.drawn) = some row := by
        have hnone : w.mcpTokens.find? (fun t => t.id = env.uuid w.world.drawn) = none := by
          rw [List.find?_eq_none]
          intro t ht hid
          refine hdup (List.any_eq_true.mpr ⟨t, ht, ?_⟩)
          rw [← hrow]
          exact hid
        rw [List.find?_append, hnone, ← hrow]
        simp
      have hselect : tokenExec env (.selectToken (env.uuid w.world.drawn))
          { w.draw.draw.draw with mcpTokens := w.mcpTokens ++ [row] } =
          (.ok (some row), { w.draw.draw.draw with mcpTokens := w.mcpTokens ++ [row] }) :=
        Prod.ext (congrArg Except.ok hfind) rfl
      rw [hexec]
      have hone : (asCall (Except.ok 1 : Except DbError Nat)).run.run (tokenExec env)
          { w.draw.draw.draw with mcpTokens := w.mcpTokens ++ [row] } = (.ok 1, _) := rfl
      have hrecord : (asCall (Except.ok (some row) : Except DbError (Option McpToken))).run.run
          (tokenExec env) { w.draw.draw.draw with mcpTokens := w.mcpTokens ++ [row] } =
          (.ok (some row), _) := rfl
      dsimp only
      rw [run_except_bind_ok hone, run_perform_bind, hselect]
      dsimp only
      rw [run_except_bind_ok hrecord]
      refine Or.inl ⟨_, row, _, rfl, rfl, ?_, ?_, ⟨env.salt w.draw.draw.world.drawn, ?_⟩, ?_, ?_, rfl,
        rfl⟩
      · rw [← hrow]
      · rw [← hrow]
      · rw [← hrow]
        exact hok
      · rw [← any_eq_iff]
        exact hdup
      · rw [any_eq_iff, ← hrow] at huser
        exact huser
    · rw [hexec]
      exact Or.inr ⟨_, _, rfl, rfl, rfl⟩

theorem deleteToken_exec (tokenId : String) : (deleteToken tokenId).exec env w =
    (if tokenId ∈ w.mcpTokens.map (·.id) then .ok () else .error (.notFound "Token not found"),
      { w with mcpTokens := w.mcpTokens.filter (·.id ≠ tokenId) }) := by
  have hrows : (w.mcpTokens.filter (·.id = tokenId)).length = 0 ↔
      tokenId ∉ w.mcpTokens.map (·.id) := by
    rw [List.length_eq_zero_iff, List.filter_eq_nil_iff, List.mem_map]
    simp
  have hanswer : (asCall (tokenExec env (.deleteToken tokenId) w).1).run.run (tokenExec env)
      (tokenExec env (.deleteToken tokenId) w).2 =
    (.ok (w.mcpTokens.filter (·.id = tokenId)).length, _) := rfl
  unfold TokenCall.exec deleteToken
  rw [run_perform_bind, run_except_bind_ok hanswer]
  by_cases hmem : tokenId ∈ w.mcpTokens.map (·.id)
  · rw [if_pos hmem, if_neg fun h => hrows.mp h hmem]
    rfl
  · rw [if_neg hmem, if_pos (hrows.mpr hmem)]
    rfl

theorem validateToken_exec (rawToken : String) : (validateToken lib rawToken).exec env w =
    (validateFrom lib rawToken (env.scan (w.mcpTokens.filter fun t =>
      t.expiresAt.all (· > env.now w.world.drawn))), w) := rfl

end

/-! ## Histories -/

/-- What a call answered: a raw token with its record, or that a record is deleted. -/
inductive TokenEvent where
  | created (raw : String) (record : McpToken)
  | deleted (tokenId : String)
  deriving DecidableEq, Repr

def createdEvent : Except AppError (String × McpToken) → List TokenEvent
  | .ok (raw, record) => [.created raw record]
  | .error _ => []

def deletedEvent (tokenId : String) : Except AppError Unit → List TokenEvent
  | .ok _ => [.deleted tokenId]
  | .error _ => []

/-- The states after calls that run one after the other, with the log of the answers. -/
inductive TokenHistory (env : TokenEnv) (lib : Lib) : TokenWorld → List TokenEvent → Prop
  | init : TokenHistory env lib ⟨⟨Db.init, 0⟩, []⟩ []
  | draw {w : TokenWorld} {log : List TokenEvent} (n : Nat) (h : TokenHistory env lib w log) :
      TokenHistory env lib { w with world := w.world.draw n } log
  | call {w : TokenWorld} {log : List TokenEvent} {α : Type} {c : Call α} (hc : DbCall lib c)
      (h : TokenHistory env lib w log) :
      TokenHistory env lib { w with world := (c.exec env.toEnv w.world).2 } log
  | createToken {w : TokenWorld} {log : List TokenEvent} (userId name : String)
      (h : TokenHistory env lib w log) :
      TokenHistory env lib ((createToken lib userId name).exec env w).2
        (log ++ createdEvent ((createToken lib userId name).exec env w).1)
  | deleteToken {w : TokenWorld} {log : List TokenEvent} (tokenId : String)
      (h : TokenHistory env lib w log) :
      TokenHistory env lib ((deleteToken tokenId).exec env w).2
        (log ++ deletedEvent tokenId ((deleteToken tokenId).exec env w).1)

/-- A call answered the raw token and the record, and the record was not deleted since. -/
def Live (log : List TokenEvent) (raw : String) (record : McpToken) : Prop :=
  ∃ later, (TokenEvent.created raw record :: later) <:+ log ∧ .deleted record.id ∉ later

/-- The raw token is that of a live record of the user. -/
def Active (log : List TokenEvent) (raw userId : String) : Prop :=
  ∃ record, Live log raw record ∧ record.userId = userId

section

variable {log : List TokenEvent} {raw : String} {record : McpToken}

theorem Live.mem (h : Live log raw record) : .created raw record ∈ log := by
  obtain ⟨later, hsuffix, -⟩ := h
  exact hsuffix.mem List.mem_cons_self

theorem suffix_snoc {event : TokenEvent} {later : List TokenEvent} {first : TokenEvent} :
    (first :: later) <:+ log ++ [event] ↔
      (first = event ∧ later = []) ∨
      ∃ later', later = later' ++ [event] ∧ (first :: later') <:+ log := by
  rw [List.suffix_concat_iff]
  constructor
  · rintro (hnil | ⟨t, ht, hsuffix⟩)
    · cases hnil
    · cases t with
      | nil =>
        obtain ⟨rfl, rfl⟩ := List.cons.inj ht
        exact Or.inl ⟨rfl, rfl⟩
      | cons head t =>
        obtain ⟨rfl, rfl⟩ := List.cons.inj ht
        exact Or.inr ⟨t, rfl, hsuffix⟩
  · rintro (⟨rfl, rfl⟩ | ⟨later', rfl, hsuffix⟩)
    · exact Or.inr ⟨[], rfl, List.nil_suffix⟩
    · exact Or.inr ⟨first :: later', rfl, hsuffix⟩

theorem live_created {raw' : String} {record' : McpToken} :
    Live (log ++ [.created raw' record']) raw record ↔
      Live log raw record ∨ raw = raw' ∧ record = record' := by
  unfold Live
  simp only [suffix_snoc]
  constructor
  · rintro ⟨later, ⟨heq, rfl⟩ | ⟨later', rfl, hsuffix⟩, hdeleted⟩
    · cases heq
      exact Or.inr ⟨rfl, rfl⟩
    · exact Or.inl ⟨later', hsuffix, fun h => hdeleted (List.mem_append_left _ h)⟩
  · rintro (⟨later, hsuffix, hdeleted⟩ | ⟨rfl, rfl⟩)
    · refine ⟨later ++ [.created raw' record'], Or.inr ⟨later, rfl, hsuffix⟩, ?_⟩
      simpa using hdeleted
    · exact ⟨[], Or.inl ⟨rfl, rfl⟩, List.not_mem_nil⟩

theorem live_deleted {tokenId : String} :
    Live (log ++ [.deleted tokenId]) raw record ↔ Live log raw record ∧ record.id ≠ tokenId := by
  unfold Live
  simp only [suffix_snoc]
  constructor
  · rintro ⟨later, ⟨heq, rfl⟩ | ⟨later', rfl, hsuffix⟩, hdeleted⟩
    · cases heq
    · simp only [List.mem_append, List.mem_singleton, TokenEvent.deleted.injEq, not_or] at hdeleted
      exact ⟨⟨later', hsuffix, hdeleted.1⟩, hdeleted.2⟩
  · rintro ⟨⟨later, hsuffix, hdeleted⟩, hne⟩
    refine ⟨later ++ [.deleted tokenId], Or.inr ⟨later, rfl, hsuffix⟩, ?_⟩
    simp [hdeleted, hne]

end

/-! ## The invariant -/

/-- What the table and the log look like after any history. -/
structure TokensOk (env : TokenEnv) (lib : Lib) (w : TokenWorld) (log : List TokenEvent) :
    Prop where
  rows : ∀ record, record ∈ w.mcpTokens ↔ ∃ raw, Live log raw record
  unexpired : ∀ raw record, .created raw record ∈ log → record.expiresAt = none
  hash : ∀ raw record, .created raw record ∈ log →
    ∃ salt, lib.argon2Hash raw salt = .ok record.tokenHash
  drawn : ∀ raw record, .created raw record ∈ log →
    ∃ n < w.world.drawn, raw = "mcp_" ++ env.rawBytes n
  once : ∀ raw record record', .created raw record ∈ log → .created raw record' ∈ log →
    record = record'

namespace TokensOk

variable {env : TokenEnv} {lib : Lib} {w w' : TokenWorld} {log : List TokenEvent}

/-- Other calls draw and leave the table alone. -/
theorem frame (h : TokensOk env lib w log) (hrows : w'.mcpTokens = w.mcpTokens)
    (hdrawn : w.world.drawn ≤ w'.world.drawn) : TokensOk env lib w' log := by
  refine ⟨?_, h.unexpired, h.hash, fun raw record hmem => ?_, h.once⟩
  · rw [hrows]
    exact h.rows
  · obtain ⟨n, hn, hraw⟩ := h.drawn raw record hmem
    exact ⟨n, by omega, hraw⟩

theorem created (h : TokensOk env lib w log) (hinj : Function.Injective env.rawBytes)
    {userId raw : String} {record : McpToken} (hc : Created lib env w w' userId raw record) :
    TokensOk env lib w' (log ++ [.created raw record]) := by
  have hdrawn : w'.world.drawn = w.world.drawn + 3 := congrArg World.drawn hc.world
  -- the new raw token was not drawn before
  have hnew : ∀ record', .created raw record' ∉ log := by
    intro record' hmem
    obtain ⟨n, hn, hraw⟩ := h.drawn raw record' hmem
    rw [hc.raw] at hraw
    have hsame := hinj (String.append_right_inj "mcp_" |>.mp hraw)
    omega
  have hmem : ∀ raw' record', .created raw' record' ∈ log ++ [.created raw record] ↔
      .created raw' record' ∈ log ∨ raw' = raw ∧ record' = record := by
    intro raw' record'
    simp
  refine ⟨fun record' => ?_, fun raw' record' h' => ?_, fun raw' record' h' => ?_,
    fun raw' record' h' => ?_, fun raw' r r' h1 h2 => ?_⟩
  · rw [hc.rows, List.mem_append, List.mem_singleton, h.rows]
    simp only [live_created, exists_or]
    simp
  · rcases (hmem _ _).mp h' with hold | ⟨rfl, rfl⟩
    · exact h.unexpired raw' record' hold
    · exact hc.unexpired
  · rcases (hmem _ _).mp h' with hold | ⟨rfl, rfl⟩
    · exact h.hash raw' record' hold
    · exact hc.hash
  · rcases (hmem _ _).mp h' with hold | ⟨rfl, rfl⟩
    · obtain ⟨n, hn, hraw⟩ := h.drawn raw' record' hold
      exact ⟨n, by omega, hraw⟩
    · exact ⟨w.world.drawn + 1, by omega, hc.raw⟩
  · rcases (hmem _ _).mp h1 with hold | ⟨hraw, rfl⟩ <;>
      rcases (hmem _ _).mp h2 with hold' | ⟨hraw', rfl⟩
    · exact h.once raw' r r' hold hold'
    · exact absurd (hraw' ▸ hold) (hnew r)
    · exact absurd (hraw ▸ hold') (hnew r')
    · rfl

theorem deleted (h : TokensOk env lib w log) (tokenId : String) :
    TokensOk env lib { w with mcpTokens := w.mcpTokens.filter (·.id ≠ tokenId) }
      (log ++ [.deleted tokenId]) := by
  have hmem : ∀ raw record, .created raw record ∈ log ++ [.deleted tokenId] →
      .created raw record ∈ log := by
    intro raw record h'
    simpa using h'
  refine ⟨fun record => ?_, fun raw record h' => h.unexpired _ _ (hmem _ _ h'),
    fun raw record h' => h.hash _ _ (hmem _ _ h'), fun raw record h' => h.drawn _ _ (hmem _ _ h'),
    fun raw record record' h1 h2 => h.once _ _ _ (hmem _ _ h1) (hmem _ _ h2)⟩
  simp only [List.mem_filter, live_deleted, h.rows]
  simp

end TokensOk

section

variable {env : TokenEnv} {lib : Lib} {w : TokenWorld} {log : List TokenEvent}

/-- What every history keeps. -/
theorem TokenHistory.ok (hinj : Function.Injective env.rawBytes)
    (h : TokenHistory env lib w log) : TokensOk env lib w log := by
  induction h with
  | init =>
    refine ⟨fun record => ⟨nofun, ?_⟩, nofun, nofun, nofun, nofun⟩
    rintro ⟨raw, hlive⟩
    exact absurd hlive.mem List.not_mem_nil
  | draw n h ih => exact ih.frame rfl (Nat.le_add_right _ _)
  | call hc h ih => exact ih.frame rfl (drawn_le_run env.toEnv _ _)
  | @createToken w log userId name h ih =>
    rcases createToken_cases lib env w userId name with
      ⟨raw, record, w', hrun, hcreated⟩ | ⟨e, w', hrun, hrows, hworld⟩
    · rw [hrun]
      exact ih.created hinj hcreated
    · rw [hrun]
      refine (List.append_nil log).symm ▸ ih.frame hrows ?_
      rw [hworld]
      exact Nat.le_add_right _ _
  | @deleteToken w log tokenId h ih =>
    rw [deleteToken_exec]
    by_cases hmem : tokenId ∈ w.mcpTokens.map (·.id)
    · rw [if_pos hmem]
      exact ih.deleted tokenId
    · rw [if_neg hmem]
      refine (List.append_nil log).symm ▸ ih.frame ?_ (le_refl _)
      refine List.filter_eq_self.mpr fun record hrecord => decide_eq_true fun heq => ?_
      exact hmem (List.mem_map.mpr ⟨record, hrecord, heq⟩)

/-- The scan, when every row holds the hash of a raw token: the users of the rows that match. -/
theorem validateFrom_eq (hargon : Argon2Sound lib) (raw : String) (rawOf : McpToken → String)
    {rows : List McpToken} (hrows : ∀ record ∈ rows,
      ∃ salt, lib.argon2Hash (rawOf record) salt = .ok record.tokenHash) :
    validateFrom lib raw rows =
      .ok ((rows.find? fun record => rawOf record = raw).map (·.userId)) := by
  induction rows with
  | nil => rfl
  | cons record rows ih =>
    rw [List.forall_mem_cons] at hrows
    obtain ⟨⟨salt, hhash⟩, hrest⟩ := hrows
    unfold validateFrom verifyToken
    rw [hargon _ _ _ hhash raw]
    by_cases hraw : rawOf record = raw
    · rw [List.find?_cons_of_pos (by simpa using hraw), decide_eq_true hraw.symm]
      rfl
    · rw [List.find?_cons_of_neg (by simpa using hraw), decide_eq_false (Ne.symm hraw)]
      exact ih hrest

/-- What `validate_token` answers after a history. -/
theorem validateToken_answer (hargon : Argon2Sound lib) (h : TokensOk env lib w log)
    (raw : String) :
    ∃ answer, (validateToken lib raw).exec env w = (.ok answer, w) ∧
      ∀ userId, answer = some userId ↔ Active log raw userId := by
  classical
  -- the raw token of a row
  have hraw : ∀ record ∈ w.mcpTokens, ∃ raw, Live log raw record := fun record hrecord =>
    (h.rows record).mp hrecord
  choose! rawOf hrawOf using hraw
  have hlive : (w.mcpTokens.filter fun t => t.expiresAt.all (· > env.now w.world.drawn)) =
      w.mcpTokens := by
    refine List.filter_eq_self.mpr fun record hrecord => ?_
    rw [h.unexpired _ _ (hrawOf record hrecord).mem]
    rfl
  have hscan : ∀ record, record ∈ env.scan w.mcpTokens ↔ record ∈ w.mcpTokens :=
    fun record => (env.scan_perm _).mem_iff
  rw [validateToken_exec, hlive, validateFrom_eq hargon raw rawOf
    fun record hrecord => h.hash _ _ (hrawOf record ((hscan record).mp hrecord)).mem]
  refine ⟨_, rfl, fun userId => ?_⟩
  constructor
  · intro hsome
    obtain ⟨record, hfind, huser⟩ := Option.map_eq_some_iff.mp hsome
    have hmem := (hscan record).mp (List.mem_of_find?_eq_some hfind)
    have hmatch : rawOf record = raw := by simpa using List.find?_some hfind
    exact ⟨record, hmatch ▸ hrawOf record hmem, huser⟩
  · rintro ⟨record, hrecord, huser⟩
    have hmem := (h.rows record).mpr ⟨raw, hrecord⟩
    -- the two raw tokens of the record have one hash
    have hsame : rawOf record = raw := by
      obtain ⟨salt, hhash⟩ := h.hash raw record hrecord.mem
      obtain ⟨salt', hhash'⟩ := h.hash _ record (hrawOf record hmem).mem
      have hverify := (hargon _ _ _ hhash raw).symm.trans (hargon _ _ _ hhash' raw)
      simpa [eq_comm] using hverify
    have hfound : ((env.scan w.mcpTokens).find? fun record => rawOf record = raw).isSome := by
      rw [List.find?_isSome]
      exact ⟨record, (hscan record).mpr hmem, decide_eq_true hsame⟩
    obtain ⟨record', hfind⟩ := Option.isSome_iff_exists.mp hfound
    have hmatch : rawOf record' = raw := by simpa using List.find?_some hfind
    have hmem' := (hscan record').mp (List.mem_of_find?_eq_some hfind)
    have hone : record' = record :=
      h.once raw record' record (hmatch ▸ hrawOf record' hmem').mem hrecord.mem
    rw [hfind, hone, Option.map_some, huser]

end

/-- **The life of a token.** After every history of `create_token` and `delete_token` calls,
    `validate_token` accepts exactly the raw tokens whose record was created and not deleted
    since, with the user they were created for, never fails, and goes on to accept a token when
    another one is deleted. -/
theorem token_valid_iff (env : TokenEnv) (lib : Lib) (hargon : Argon2Sound lib)
    (hinj : Function.Injective env.rawBytes) (w : TokenWorld) (log : List TokenEvent)
    (h : TokenHistory env lib w log) (raw : String) :
    (∃ answer, (validateToken lib raw).exec env w = (.ok answer, w) ∧
      ∀ userId, answer = some userId ↔ Active log raw userId) ∧
    ∀ tokenId, (∀ record, .created raw record ∈ log → record.id ≠ tokenId) →
      ((validateToken lib raw).exec env ((deleteToken tokenId).exec env w).2).1 =
        ((validateToken lib raw).exec env w).1 := by
  refine ⟨validateToken_answer hargon (h.ok hinj) raw, fun tokenId hother => ?_⟩
  obtain ⟨answer, hrun, hanswer⟩ := validateToken_answer hargon (h.ok hinj) raw
  obtain ⟨answer', hrun', hanswer'⟩ :=
    validateToken_answer hargon ((h.deleteToken tokenId).ok hinj) raw
  rw [hrun, hrun']
  refine congrArg Except.ok (Option.ext fun userId => ?_)
  rw [hanswer, hanswer']
  -- the log grows by nothing, or by a deletion of another record
  rw [deleteToken_exec]
  by_cases hmem : tokenId ∈ w.mcpTokens.map (·.id)
  · rw [if_pos hmem]
    unfold Active
    refine exists_congr fun record => and_congr_left fun _ => ?_
    change Live (log ++ [.deleted tokenId]) raw record ↔ _
    rw [live_deleted]
    exact ⟨fun hlive => hlive.1, fun hlive => ⟨hlive, hother record hlive.mem⟩⟩
  · rw [if_neg hmem]
    change Active (log ++ []) raw userId ↔ _
    rw [List.append_nil]

/-! ### A token of alice's -/

/-- Rows listed newest first, and random bytes that differ in length. -/
def countingTokenEnv : TokenEnv where
  toEnv := countingEnv
  rawBytes := countingEnv.uuid
  scan rows := rows.reverse
  scan_perm rows := List.reverse_perm rows

/-- Alice's account. -/
def accountWorld : TokenWorld :=
  ⟨((createUser plainLib "alice" none "secret").exec countingTokenEnv.toEnv ⟨Db.init, 0⟩).2, []⟩

theorem accountWorld_history : TokenHistory countingTokenEnv plainLib accountWorld [] :=
  @TokenHistory.call countingTokenEnv plainLib ⟨⟨Db.init, 0⟩, []⟩ [] _
    (createUser plainLib "alice" none "secret") (.createUser "alice" none "secret") .init

/-- Alice has a token for her laptop. -/
def laptopWorld : TokenWorld :=
  ((createToken plainLib "" "laptop").exec countingTokenEnv accountWorld).2

def laptopLog : List TokenEvent :=
  [] ++ createdEvent ((createToken plainLib "" "laptop").exec countingTokenEnv accountWorld).1

theorem laptopWorld_history : TokenHistory countingTokenEnv plainLib laptopWorld laptopLog :=
  accountWorld_history.createToken "" "laptop"

theorem laptopLog_active : Active laptopLog "mcp_aaa" "" := by
  have hlog : laptopLog = [.created "mcp_aaa" ⟨"aa", "", "mcp_aaa", "laptop", none⟩] := by
    decide +kernel
  rw [hlog]
  exact ⟨⟨"aa", "", "mcp_aaa", "laptop", none⟩, ⟨[], List.suffix_refl _, List.not_mem_nil⟩, rfl⟩

theorem token_valid_iff_laptop :
    Active laptopLog "mcp_aaa" "" ∧
      (validateToken plainLib "mcp_aaa").exec countingTokenEnv laptopWorld =
        (.ok (some ""), laptopWorld) := by
  obtain ⟨answer, hrun, hiff⟩ := (token_valid_iff countingTokenEnv plainLib plainLib_sound
    countingEnv_uuid_injective laptopWorld laptopLog laptopWorld_history "mcp_aaa").1
  rw [(hiff "").mpr laptopLog_active] at hrun
  exact ⟨laptopLog_active, hrun⟩

end CaldavMcp
