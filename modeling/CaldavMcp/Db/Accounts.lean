/-
  Accounts: which user an email address leads to.

  `users.email` has no UNIQUE constraint, and `verify_user` looks for a username before it looks
  for an email. So an address is one user's only as long as no account is created whose username
  or email is another's email, or whose email is another's username (`Unclaimed`). `Accounts` is
  every sequence of successful `create_user` and `reset_password` calls, with the latest
  password of each user; `email_leads_to_owner` is what holds after all of them.
-/
import CaldavMcp.Db.Users
import CaldavMcp.Db.Writes
import CaldavMcp.Db.Effects

namespace CaldavMcp

open Program

section

variable {lib : Lib} {env : Env} {w w' : World}

/-! ## What the calls do -/

/-- The outcome of hashing a password. -/
theorem hashPassword_exec (password : String) :
    (hashPassword lib password).exec env w =
      (match lib.argon2Hash password (env.salt w.drawn) with
        | .ok hash => .ok hash
        | .error e => .error (.internal ("Password hashing failed: " ++ e)), w.draw 1) := by
  have hsalt : (ExceptT.lift (Prog.perform Op.salt) : Call String).run.run (CaldavMcp.exec env) w =
    (.ok (env.salt w.drawn), w.draw 1) := rfl
  unfold Call.exec hashPassword
  rw [run_except_bind_ok hsalt]
  cases lib.argon2Hash password (env.salt w.drawn) <;> rfl

/-- A statement whose failure is caught. -/
theorem run_tryCatch_sql (s : Sql) (f : AppError → Call s.Rows) :
    (tryCatch (sql s) f).run.run (CaldavMcp.exec env) w =
      match w.answer s with
      | .ok r => (.ok r, w.after s)
      | .error e => (f (.database e)).run.run (CaldavMcp.exec env) (w.after s) := by
  have hcatch : (tryCatch (sql s) f).run = (sql s).run >>= fun
      | .ok r => Prog.ret (.ok r)
      | .error e => (f e).run := by
    change (sql s).run >>= _ = _
    refine congrArg _ (funext fun r => ?_)
    cases r <;> rfl
  have hsql : (sql s).run.run (CaldavMcp.exec env) w = _ := Call.exec_sql env s w
  rw [hcatch, run_bind, hsql]
  cases w.answer s <;> rfl

/-- `create_user` adds one user, with the hash of the password, or fails and adds none. -/
theorem createUser_cases (lib : Lib) (env : Env) (w : World) (username : String)
    (email : Option String) (password : String) :
    (∃ hash user w', (createUser lib username email password).exec env w = (.ok user, w') ∧
      lib.argon2Hash password (env.salt (w.drawn + 1)) = .ok hash ∧
      username ∉ w.db.users.map (·.username) ∧
      w'.db.users = w.db.users ++ [⟨env.uuid w.drawn, username, email, hash⟩] ∧
      w.drawn < w'.drawn) ∨
    ∃ e w', (createUser lib username email password).exec env w = (.error e, w') ∧
      w'.db.users = w.db.users := by
  have hid : nowV7.run.run (CaldavMcp.exec env) w = (.ok (env.uuid w.drawn), w.draw 1) := rfl
  have hhash : (hashPassword lib password).run.run (CaldavMcp.exec env) (w.draw 1) = _ :=
    hashPassword_exec password
  unfold Call.exec createUser
  rw [run_except_bind_ok hid, run_except_bind, hhash]
  dsimp only
  rw [show (w.draw 1).drawn = w.drawn + 1 from rfl]
  cases hok : lib.argon2Hash password (env.salt (w.drawn + 1)) with
  | error e => exact Or.inr ⟨_, _, rfl, rfl⟩
  | ok hash =>
    dsimp only
    generalize hrow : (⟨env.uuid w.drawn, username, email, hash⟩ : User) = row
    rw [run_except_bind, run_tryCatch_sql]
    have hexec : w.db.toTables.exec (.insertUser row) =
        if w.db.users.any (·.id = row.id) then .error (.primaryKey "users.id")
        else if w.db.users.any (·.username = row.username) then .error (.unique "users.username")
        else .ok (1, { w.db.toTables with users := w.db.users ++ [row] }) := rfl
    split_ifs at hexec with hdup huser
    · obtain ⟨ha, ht⟩ := Tables.of_exec_error hexec
      rw [show ((w.draw 1).draw 1).answer (.insertUser row) = .error _ from ha]
      exact Or.inr ⟨_, _, rfl, congrArg Tables.users ht⟩
    · obtain ⟨ha, ht⟩ := Tables.of_exec_error hexec
      rw [show ((w.draw 1).draw 1).answer (.insertUser row) = .error _ from ha]
      exact Or.inr ⟨_, _, rfl, congrArg Tables.users ht⟩
    · obtain ⟨ha, ht⟩ := Tables.of_exec_ok hexec
      have husers : (((w.draw 1).draw 1).after (.insertUser row)).db.users = w.db.users ++ [row] :=
        congrArg Tables.users ht
      rw [any_eq_iff, ← hrow] at huser
      rw [show ((w.draw 1).draw 1).answer (.insertUser row) = .ok 1 from ha]
      dsimp only
      unfold getUserByUsername
      rw [run_sql_bind, run_call, exec_sql, show World.answer _ (.selectUserByUsername username) =
        .ok (Tables.userByUsername _ username) from rfl]
      dsimp only
      -- the row just inserted is found
      have hsome : (Tables.userByUsername (((w.draw 1).draw 1).after
          (.insertUser row)).db.toTables username).isSome := by
        unfold Tables.userByUsername
        rw [List.find?_isSome, husers]
        refine ⟨row, List.mem_append_right _ (List.mem_singleton.mpr rfl), ?_⟩
        rw [← hrow]
        exact decide_eq_true rfl
      obtain ⟨found, hfound⟩ := Option.isSome_iff_exists.mp hsome
      rw [hfound]
      have hdrawn : w.drawn < (((w.draw 1).draw 1).after (.insertUser row)).drawn := by
        rw [World.after_drawn, World.draw_drawn, World.draw_drawn]
        omega
      exact Or.inl ⟨hash, found, _, rfl, rfl, huser, husers.trans (by rw [← hrow]), hdrawn⟩

/-- A successful `create_user` adds one user, with the hash of the password. -/
theorem createUser_ok {username password : String} {email : Option String} {user : User}
    (h : (createUser lib username email password).exec env w = (.ok user, w')) :
    ∃ hash, lib.argon2Hash password (env.salt (w.drawn + 1)) = .ok hash ∧
      username ∉ w.db.users.map (·.username) ∧
      w'.db.users = w.db.users ++ [⟨env.uuid w.drawn, username, email, hash⟩] := by
  rcases createUser_cases lib env w username email password with
    ⟨hash, found, w'', hrun, hhash, hname, husers, -⟩ | ⟨e, w'', hrun, -⟩
  · rw [hrun] at h
    obtain ⟨-, rfl⟩ := Prod.mk.inj h
    exact ⟨hash, hhash, hname, husers⟩
  · rw [hrun] at h
    cases h

/-- A successful `reset_password` replaces the hash of the user. -/
theorem resetPassword_ok {username newPassword : String}
    (h : (resetPassword lib username newPassword).exec env w = (.ok (), w')) :
    ∃ hash, lib.argon2Hash newPassword (env.salt w.drawn) = .ok hash ∧
      w'.db.users = w.db.users.map fun u =>
        if u.username = username then { u with passwordHash := hash } else u := by
  have hhash : (hashPassword lib newPassword).run.run (CaldavMcp.exec env) w = _ :=
    hashPassword_exec newPassword
  unfold Call.exec resetPassword at h
  rw [run_except_bind, hhash] at h
  dsimp only at h
  cases hok : lib.argon2Hash newPassword (env.salt w.drawn) with
  | error e =>
    rw [hok] at h
    cases h
  | ok hash =>
    rw [hok] at h
    dsimp only at h
    rw [run_sql_bind, run_call, exec_sql, show (w.draw 1).answer (.updatePassword hash username) =
      .ok (w.db.users.filter (·.username = username)).length from rfl] at h
    dsimp only at h
    refine ⟨hash, rfl, ?_⟩
    split at h
    · cases h
    · have hworld := congrArg (fun out => (Prod.snd out).db.users) h
      exact hworld.symm

theorem getUserByEmail_exec (email : String) :
    (getUserByEmail email).exec env w = (.ok (w.db.userByEmail email), w) := rfl

/-- A login looks for a username first, and then for an email. -/
theorem verifyUser_exec (name password : String) :
    (verifyUser lib name password).exec env w =
      (match (w.db.userByUsername name).or (w.db.userByEmail name) with
        | none => .ok none
        | some user =>
          match verifyPassword lib password user.passwordHash with
          | .ok valid => .ok (if valid then some user else none)
          | .error e => .error e, w) := by
  have hname : (getUserByUsername name).run.run (CaldavMcp.exec env) w =
    (.ok (w.db.userByUsername name), w) := rfl
  have hemail : (getUserByEmail name).run.run (CaldavMcp.exec env) w =
    (.ok (w.db.userByEmail name), w) := rfl
  unfold Call.exec verifyUser
  rw [run_except_bind_ok hname]
  have hcheck : ∀ user : Option User,
      ((match user with
        | none => (pure none : Call (Option User))
        | some user => do
          if ← ExceptT.mk (pure (verifyPassword lib password user.passwordHash)) then
            return some user
          else
            return none).run.run (CaldavMcp.exec env) w) =
      (match user with
        | none => .ok none
        | some user =>
          match verifyPassword lib password user.passwordHash with
          | .ok valid => .ok (if valid then some user else none)
          | .error e => .error e, w) := by
    intro user
    cases user with
    | none => rfl
    | some user =>
      dsimp only
      cases verifyPassword lib password user.passwordHash with
      | error e => rfl
      | ok valid => cases valid <;> rfl
  cases hfound : w.db.userByUsername name with
  | some user => exact hcheck (some user)
  | none =>
    dsimp only
    rw [run_except_bind_ok hemail, Option.none_or]
    exact hcheck _

end

/-! ## Sequences of calls -/

/-- The states after successful `create_user` and `reset_password` calls, with the latest
    password of each username. A `create_user` call has to be `allowed`. -/
inductive Accounts (env : Env) (lib : Lib)
    (allowed : Tables → (username : String) → (email : Option String) → Prop) :
    World → (String → Option String) → Prop
  | init : Accounts env lib allowed ⟨Db.init, 0⟩ fun _ => none
  | createUser {w w' : World} {latest : String → Option String} {username password : String}
      {email : Option String} {user : User} (h : Accounts env lib allowed w latest)
      (hallowed : allowed w.db.toTables username email)
      (hrun : (createUser lib username email password).exec env w = (.ok user, w')) :
      Accounts env lib allowed w' (Function.update latest username (some password))
  | resetPassword {w w' : World} {latest : String → Option String}
      {username newPassword : String} (h : Accounts env lib allowed w latest)
      (hrun : (resetPassword lib username newPassword).exec env w = (.ok (), w')) :
      Accounts env lib allowed w' (Function.update latest username (some newPassword))

/-- Argon2: a password verifies against a hash exactly when it is the one that was hashed. -/
def Argon2Sound (lib : Lib) : Prop :=
  ∀ password salt hash, lib.argon2Hash password salt = .ok hash →
    ∀ p, lib.argon2Verify p hash = .ok (decide (p = password))

/-- The username is no one's email, and the email is no one's email or username. -/
def Unclaimed (t : Tables) (username : String) (email : Option String) : Prop :=
  (∀ v ∈ t.users, v.email ≠ some username) ∧
    ∀ e ∈ email, ∀ v ∈ t.users, v.email ≠ some e ∧ v.username ≠ e

/-- What holds of the users after any sequence of unclaimed accounts. -/
structure Separate (lib : Lib) (users : List User) (latest : String → Option String) : Prop where
  email : ∀ u ∈ users, ∀ e ∈ u.email, ∀ v ∈ users, v.email = some e ∨ v.username = e → v = u
  username : (users.map (·.username)).Nodup
  password : ∀ u ∈ users, ∃ password salt, latest u.username = some password ∧
    lib.argon2Hash password salt = .ok u.passwordHash

namespace Separate

variable {lib : Lib} {users : List User} {latest : String → Option String}

theorem addUser (h : Separate lib users latest) {user : User} {password salt : String}
    (hname : user.username ∉ users.map (·.username))
    (hclaim : ∀ v ∈ users, v.email ≠ some user.username)
    (hemail : ∀ e ∈ user.email, ∀ v ∈ users, v.email ≠ some e ∧ v.username ≠ e)
    (hhash : lib.argon2Hash password salt = .ok user.passwordHash) :
    Separate lib (users ++ [user]) (Function.update latest user.username (some password)) := by
  refine ⟨?_, nodup_map_snoc h.username hname, ?_⟩
  · intro u hu e he v hv hor
    rcases List.mem_append.mp hu with hu | hu <;> rcases List.mem_append.mp hv with hv | hv
    · exact h.email u hu e he v hv hor
    · rw [List.mem_singleton.mp hv] at hor
      rcases hor with hmail | hmail
      · exact absurd he (hemail e hmail u hu).1
      · rw [← hmail] at he
        exact absurd he (hclaim u hu)
    · rw [List.mem_singleton.mp hu] at he
      obtain ⟨h1, h2⟩ := hemail e he v hv
      rcases hor with hmail | hmail
      · exact absurd hmail h1
      · exact absurd hmail h2
    · rw [List.mem_singleton.mp hu, List.mem_singleton.mp hv]
  · intro u hu
    rcases List.mem_append.mp hu with hu | hu
    · have hne : u.username ≠ user.username := fun heq =>
        hname (heq ▸ List.mem_map_of_mem hu)
      rw [Function.update_of_ne hne]
      exact h.password u hu
    · rw [List.mem_singleton.mp hu, Function.update_self]
      exact ⟨password, salt, rfl, hhash⟩

theorem setPassword (h : Separate lib users latest) {username password salt hash : String}
    (hhash : lib.argon2Hash password salt = .ok hash) :
    Separate lib
      (users.map fun u => if u.username = username then { u with passwordHash := hash } else u)
      (Function.update latest username (some password)) := by
  have hemail : ∀ u : User,
      (if u.username = username then { u with passwordHash := hash } else u).email = u.email :=
    fun u => by split <;> rfl
  have husername : ∀ u : User,
      (if u.username = username then { u with passwordHash := hash } else u).username =
        u.username := fun u => by split <;> rfl
  refine ⟨?_, ?_, ?_⟩
  · intro u hu e he v hv hor
    obtain ⟨u', hu', rfl⟩ := List.mem_map.mp hu
    obtain ⟨v', hv', rfl⟩ := List.mem_map.mp hv
    rw [hemail] at he
    rw [hemail, husername] at hor
    rw [h.email u' hu' e he v' hv' hor]
  · rw [List.map_map]
    exact (List.map_congr_left fun u _ => husername u) ▸ h.username
  · intro u hu
    obtain ⟨u', hu', rfl⟩ := List.mem_map.mp hu
    rw [husername]
    by_cases hname : u'.username = username
    · rw [if_pos hname, hname, Function.update_self]
      exact ⟨password, salt, rfl, hhash⟩
    · rw [if_neg hname, Function.update_of_ne hname]
      exact h.password u' hu'

/-- The email of a user leads to the user. -/
theorem userByEmail (h : Separate lib users latest) {u : User} (hu : u ∈ users) {e : String}
    (he : u.email = some e) : users.find? (fun v => v.email = some e) = some u := by
  have hsome : (users.find? fun v => v.email = some e).isSome := by
    rw [List.find?_isSome]
    exact ⟨u, hu, decide_eq_true he⟩
  obtain ⟨v, hv⟩ := Option.isSome_iff_exists.mp hsome
  have hfound : v.email = some e := by simpa using List.find?_some hv
  rw [hv, h.email u hu e he v (List.mem_of_find?_eq_some hv) (Or.inl hfound)]

/-- No other user has it as a username. -/
theorem userByUsername (h : Separate lib users latest) {u : User} (hu : u ∈ users) {e : String}
    (he : u.email = some e) : ∀ v, users.find? (fun v => v.username = e) = some v → v = u := by
  intro v hv
  have hfound : v.username = e := by simpa using List.find?_some hv
  exact h.email u hu e he v (List.mem_of_find?_eq_some hv) (Or.inr hfound)

end Separate

section

variable {env : Env} {lib : Lib} {w : World} {latest : String → Option String}

/-- What every sequence of unclaimed accounts keeps. -/
theorem Accounts.separate (h : Accounts env lib Unclaimed w latest) :
    Separate lib w.db.users latest := by
  induction h with
  | init => exact ⟨nofun, List.nodup_nil, nofun⟩
  | createUser h hallowed hrun ih =>
    obtain ⟨hash, hhash, hname, husers⟩ := createUser_ok hrun
    rw [husers]
    exact ih.addUser hname hallowed.1 hallowed.2 hhash
  | resetPassword h hrun ih =>
    obtain ⟨hash, hhash, husers⟩ := resetPassword_ok hrun
    rw [husers]
    exact ih.setPassword hhash

end

/-- The email of a user leads to the user, and logs in the user with the latest password and no
    one with another. -/
structure LeadsTo (env : Env) (lib : Lib) (w : World) (latest : String → Option String)
    (u : User) (e : String) : Prop where
  email : (getUserByEmail e).exec env w = (.ok (some u), w)
  login : ∀ p, (verifyUser lib e p).exec env w =
    (.ok (if latest u.username = some p then some u else none), w)

/-- **An email is one user's.** After every sequence of successful `create_user` and
    `reset_password` calls in which no account claims a name or address of another, the email of
    a user leads to that user alone. -/
theorem email_leads_to_owner (env : Env) (lib : Lib) (hargon : Argon2Sound lib) (w : World)
    (latest : String → Option String) (h : Accounts env lib Unclaimed w latest) (u : User)
    (hu : u ∈ w.db.users) (e : String) (he : u.email = some e) :
    LeadsTo env lib w latest u e := by
  have hsep := h.separate
  have hmail : w.db.userByEmail e = some u := hsep.userByEmail hu he
  have hor : (w.db.userByUsername e).or (w.db.userByEmail e) = some u := by
    cases hname : w.db.userByUsername e with
    | none => exact hmail
    | some v => exact congrArg some (hsep.userByUsername hu he v hname)
  obtain ⟨password, salt, hlatest, hhash⟩ := hsep.password u hu
  refine ⟨by rw [getUserByEmail_exec, hmail], fun p => ?_⟩
  rw [verifyUser_exec, hor]
  unfold verifyPassword
  dsimp only
  rw [hargon password salt u.passwordHash hhash p, hlatest]
  by_cases hp : p = password
  · rw [hp]
    simp
  · have hne : ¬ some password = some p := fun heq => hp (Option.some.inj heq).symm
    simp [hp, hne]

/-! ### Two accounts -/

/-- A hash that a password can be read from. -/
def plainLib : Lib where
  argon2Hash password _ := .ok password
  argon2Verify password hash := .ok (decide (password = hash))
  base64Decode _ := none
  readXml _ := []

theorem plainLib_sound : Argon2Sound plainLib := by
  intro password salt hash hhash p
  cases hhash
  rfl

/-- Alice's account, and then bob's, with a given email. -/
def twoAccounts (email : String) : World :=
  ((createUser plainLib "bob" (some email) "hunter2").exec countingEnv
    ((createUser plainLib "alice" (some "alice@example.com") "secret").exec countingEnv
      ⟨Db.init, 0⟩).2).2

/-- Passwords of alice and bob. -/
def twoPasswords : String → Option String :=
  Function.update (Function.update (fun _ => none) "alice" (some "secret")) "bob" (some "hunter2")

theorem twoAccounts_accounts {allowed : Tables → String → Option String → Prop} {email : String}
    (halice : allowed Tables.empty "alice" (some "alice@example.com"))
    (hbob : allowed ((createUser plainLib "alice" (some "alice@example.com") "secret").exec
      countingEnv ⟨Db.init, 0⟩).2.db.toTables "bob" (some email)) :
    Accounts countingEnv plainLib allowed (twoAccounts email) twoPasswords :=
  .createUser (.createUser .init halice rfl) hbob rfl

theorem email_leads_to_owner_bob :
    LeadsTo countingEnv plainLib (twoAccounts "bob@example.com") twoPasswords
      ⟨"aa", "bob", some "bob@example.com", "hunter2"⟩ "bob@example.com" :=
  email_leads_to_owner countingEnv plainLib plainLib_sound _ _
    (twoAccounts_accounts ⟨by decide, by decide⟩ ⟨by decide, by decide⟩) _ (by decide) _ rfl

/-- A second account with the address of the first. -/
theorem email_taken_twice : ¬ ∀ (env : Env) (lib : Lib), Argon2Sound lib → ∀ (w : World)
    (latest : String → Option String), Accounts env lib (fun _ _ _ => True) w latest →
    ∀ u ∈ w.db.users, ∀ e, u.email = some e → LeadsTo env lib w latest u e := by
  intro h
  have hbob := h countingEnv plainLib plainLib_sound (twoAccounts "alice@example.com")
    twoPasswords (twoAccounts_accounts trivial trivial)
    ⟨"aa", "bob", some "alice@example.com", "hunter2"⟩ (by decide) "alice@example.com" rfl
  have hfound : (twoAccounts "alice@example.com").db.userByEmail "alice@example.com" =
      some ⟨"aa", "bob", some "alice@example.com", "hunter2"⟩ :=
    Except.ok.inj (congrArg Prod.fst hbob.email)
  revert hfound
  decide

end CaldavMcp
