/-
  A keyed store with a change log, and a client that replays the log.

  The log is a list of entries, oldest first. An entry has a key and says whether the key was
  removed (`gone`) or written. It does not say what was written: a client that applies an
  entry takes the CURRENT value of the key from the store, and skips the entry when there is
  none (`applyEntry`).

  `Agrees` ties the log to the store: the last entry of a key says whether the key is there.
  It is all that convergence needs (`replay_eq`): a client whose copy is right outside the log
  has the store itself after replaying the log, whatever happened to a key in between.
-/
import Mathlib

namespace ChangeLog

variable {ε κ ν : Type} [DecidableEq κ] (key : ε → κ) (gone : ε → Bool)

/-- The last entry of a key. -/
def lastOf (k : κ) (log : List ε) : Option ε := (log.filter fun e => key e = k).getLast?

variable {key gone}

theorem lastOf_snoc (k : κ) (log : List ε) (e : ε) :
    lastOf key k (log ++ [e]) = if key e = k then some e else lastOf key k log := by
  unfold lastOf
  rw [List.filter_append]
  split
  · rename_i h; simp [h]
  · rename_i h; simp [h]

theorem lastOf_eq_none {k : κ} {log : List ε} :
    lastOf key k log = none ↔ ∀ e ∈ log, key e ≠ k := by
  unfold lastOf
  rw [List.getLast?_eq_none_iff, List.filter_eq_nil_iff]
  simp

theorem mem_of_lastOf {k : κ} {log : List ε} {e : ε} (h : lastOf key k log = some e) :
    e ∈ log ∧ key e = k := by
  have := List.mem_of_getLast? h
  simpa using this

variable (key gone)

/-- The last entry of `k` says whether `k` is in the store. -/
def AgreesAt (log : List ε) (m : κ → Option ν) (k : κ) : Prop :=
  ∀ e, lastOf key k log = some e → (gone e = false ↔ (m k).isSome)

/-- One entry applied to a client's copy. -/
def applyEntry (m : κ → Option ν) (held : κ → Option ν) (e : ε) : κ → Option ν :=
  if gone e then Function.update held (key e) none
  else match m (key e) with
    | some v => Function.update held (key e) (some v)
    | none => held

/-- The whole log applied, oldest entry first. -/
def replay (m : κ → Option ν) (log : List ε) (held : κ → Option ν) : κ → Option ν :=
  log.foldl (applyEntry key gone m) held

variable {key gone}

theorem applyEntry_other {m held : κ → Option ν} {e : ε} {k : κ} (h : key e ≠ k) :
    applyEntry key gone m held e k = held k := by
  unfold applyEntry
  split
  · exact Function.update_of_ne (Ne.symm h) _ _
  · cases m (key e) with
    | none => rfl
    | some v => exact Function.update_of_ne (Ne.symm h) _ _

/-- An entry that tells the truth about its key brings the copy up to date there. -/
theorem applyEntry_self {m held : κ → Option ν} {e : ε}
    (h : gone e = false ↔ (m (key e)).isSome) :
    applyEntry key gone m held e (key e) = m (key e) := by
  unfold applyEntry
  cases hm : m (key e) with
  | none =>
    rw [hm] at h
    have hg : gone e = true := by simpa using h
    rw [if_pos hg, Function.update_self]
  | some v =>
    rw [hm] at h
    have hg : gone e = false := h.mpr rfl
    simp [hg]

theorem replay_snoc (m held : κ → Option ν) (log : List ε) (e : ε) :
    replay key gone m (log ++ [e]) held =
      applyEntry key gone m (replay key gone m log held) e := by
  unfold replay
  rw [List.foldl_append]
  rfl

/-- A key the log does not mention keeps the client's value. -/
theorem replay_other {m held : κ → Option ν} {log : List ε} {k : κ}
    (h : ∀ e ∈ log, key e ≠ k) : replay key gone m log held k = held k := by
  induction log using List.reverseRecOn with
  | nil => rfl
  | append_singleton log e ih =>
    rw [replay_snoc, applyEntry_other (h e (by simp))]
    exact ih fun e' he' => h e' (by simp [he'])

/-- A key the log mentions, and about whose last entry it is right, ends up to date. -/
theorem replay_mentioned {m held : κ → Option ν} {log : List ε} {k : κ}
    (ha : AgreesAt key gone log m k) (hk : ∃ e ∈ log, key e = k) :
    replay key gone m log held k = m k := by
  -- by induction on the log from its end: only the last entry of `k` counts
  induction log using List.reverseRecOn with
  | nil => obtain ⟨e, he, -⟩ := hk; cases he
  | append_singleton log e ih =>
    rw [replay_snoc]
    by_cases he : key e = k
    · subst he
      exact applyEntry_self (ha e (by rw [lastOf_snoc, if_pos rfl]))
    · rw [applyEntry_other he]
      refine ih (fun e' he' => ha e' ?_) ?_
      · rw [lastOf_snoc, if_neg he, he']
      · obtain ⟨e', he', hk'⟩ := hk
        rcases List.mem_append.mp he' with h | h
        · exact ⟨e', h, hk'⟩
        · rw [List.mem_singleton.mp h] at hk'; exact absurd hk' he

/-- **Convergence.** A copy that is right about every key the log does not mention is the
    store after the log has been replayed. -/
theorem replay_eq {m held : κ → Option ν} {log : List ε}
    (ha : ∀ k, AgreesAt key gone log m k)
    (hheld : ∀ k, (∀ e ∈ log, key e ≠ k) → held k = m k) :
    replay key gone m log held = m := by
  funext k
  by_cases hk : ∃ e ∈ log, key e = k
  · exact replay_mentioned (ha k) hk
  · have hk' : ∀ e ∈ log, key e ≠ k := fun e he h => hk ⟨e, he, h⟩
    rw [replay_other hk', hheld k hk']

end ChangeLog
