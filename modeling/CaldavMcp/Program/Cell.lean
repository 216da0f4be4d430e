/-
  Agents that read a cell, change the value in hand and write it back.

  Each agent performs its operations in order, one each time the schedule names it: `k`
  operations that do not matter, then the read, then the write, then others that do not
  matter. Nothing keeps a read and its write together.

  `value_of_first` is the law for two agents. The one that writes first writes over the value
  the cell had at the start. The other one builds on what the first has written only if it
  reads after that write (`Ahead`); else it writes over the starting value too, and the first
  write is lost.
-/
import Mathlib

namespace Program

variable {V : Type}

/-- The cell, and for each agent the operations it has performed and the value it holds. -/
structure Cell (V : Type) where
  value : V
  taken : Nat → Nat
  held : Nat → V

namespace Cell

/-- The cell before any agent has started. -/
def start (v : V) : Cell V := ⟨v, fun _ => 0, fun _ => v⟩

/-- Agent `i`, one of `n`, performs its next operation; `f i` is what it does to the value. -/
def step (n k : Nat) (f : Nat → V → V) (c : Cell V) (i : Nat) : Cell V :=
  if i < n then
    { value := if c.taken i = k + 1 then f i (c.held i) else c.value
      taken := Function.update c.taken i (c.taken i + 1)
      held := if c.taken i = k then Function.update c.held i c.value else c.held }
  else c

/-- Follow a schedule. -/
def exec (n k : Nat) (f : Nat → V → V) (c : Cell V) (sched : List Nat) : Cell V :=
  sched.foldl (step n k f) c

/-- `i` has written before `j` has read. -/
def Ahead (k i j : Nat) (sched : List Nat) : Prop :=
  ∃ s, s <+: sched ∧ k + 2 ≤ s.count i ∧ s.count j ≤ k

/-- `i` writes before `j` does. -/
def First (k i j : Nat) (sched : List Nat) : Prop :=
  ∃ s, s <+: sched ∧ k + 2 ≤ s.count i ∧ s.count j ≤ k + 1

section

variable {n k : Nat} {f : Nat → V → V} {c : Cell V} {i j : Nat} {s : List Nat}

theorem exec_append (s t : List Nat) : c.exec n k f (s ++ t) = (c.exec n k f s).exec n k f t :=
  List.foldl_append

theorem exec_concat (s : List Nat) (x : Nat) :
    c.exec n k f (s ++ [x]) = (c.exec n k f s).step n k f x := exec_append s [x]

theorem count_concat (s : List Nat) (x : Nat) :
    (s ++ [x]).count i = s.count i + if x = i then 1 else 0 := by
  rw [List.count_append, List.count_singleton]
  simp

/-! ### One operation -/

theorem step_out (h : ¬ i < n) : c.step n k f i = c := if_neg h

theorem taken_step (h : i < n) : (c.step n k f i).taken i = c.taken i + 1 := by
  unfold step
  rw [if_pos h]
  exact Function.update_self ..

theorem taken_step_ne (h : j ≠ i) : (c.step n k f i).taken j = c.taken j := by
  unfold step
  split
  · exact Function.update_of_ne h ..
  · rfl

theorem held_step_ne (h : j ≠ i) : (c.step n k f i).held j = c.held j := by
  unfold step
  split
  · dsimp only
    split
    · exact Function.update_of_ne h ..
    · rfl
  · rfl

theorem held_step_read (hn : i < n) (h : c.taken i = k) : (c.step n k f i).held i = c.value := by
  unfold step
  rw [if_pos hn]
  dsimp only
  rw [if_pos h]
  exact Function.update_self ..

theorem held_step_keep (h : c.taken i ≠ k) : (c.step n k f i).held i = c.held i := by
  unfold step
  by_cases hn : i < n
  · rw [if_pos hn]
    exact congrFun (if_neg h) i
  · rw [if_neg hn]

theorem value_step_write (hn : i < n) (h : c.taken i = k + 1) :
    (c.step n k f i).value = f i (c.held i) := by
  unfold step
  rw [if_pos hn]
  exact if_pos h

theorem value_step_keep (h : c.taken i ≠ k + 1) : (c.step n k f i).value = c.value := by
  unfold step
  by_cases hn : i < n
  · rw [if_pos hn]
    exact if_neg h
  · rw [if_neg hn]

theorem taken_exec (hn : i < n) (s : List Nat) :
    (c.exec n k f s).taken i = c.taken i + s.count i := by
  induction s using List.reverseRecOn with
  | nil => rfl
  | append_singleton s x ih =>
    rw [exec_concat, count_concat]
    by_cases hx : x = i
    · subst hx
      rw [if_pos rfl, taken_step hn, ih, Nat.add_assoc]
    · rw [if_neg hx, taken_step_ne (Ne.symm hx), ih, Nat.add_zero]

/-! ### Who is ahead -/

theorem Ahead.first (h : Ahead k i j s) : First k i j s := by
  obtain ⟨t, hp, hi, hj⟩ := h
  exact ⟨t, hp, hi, by omega⟩

theorem ahead_concat {x : Nat} :
    Ahead k i j (s ++ [x]) ↔
      Ahead k i j s ∨ k + 2 ≤ (s ++ [x]).count i ∧ (s ++ [x]).count j ≤ k := by
  unfold Ahead
  constructor
  · rintro ⟨t, hp, h⟩
    rcases List.prefix_concat_iff.mp hp with rfl | hp
    · exact Or.inr h
    · exact Or.inl ⟨t, hp, h⟩
  · rintro (⟨t, hp, h⟩ | h)
    · exact ⟨t, hp.trans (List.prefix_append _ _), h⟩
    · exact ⟨_, List.prefix_refl _, h⟩

/-- Of two agents, one writes first. -/
theorem first_or_first (hij : i ≠ j) (s : List Nat)
    (h : k + 2 ≤ s.count i ∨ k + 2 ≤ s.count j) : First k i j s ∨ First k j i s := by
  induction s using List.reverseRecOn with
  | nil => simp at h
  | append_singleton s x ih =>
    by_cases hs : k + 2 ≤ s.count i ∨ k + 2 ≤ s.count j
    · rcases ih hs with ⟨t, hp, ht⟩ | ⟨t, hp, ht⟩
      · exact Or.inl ⟨t, hp.trans (List.prefix_append _ _), ht⟩
      · exact Or.inr ⟨t, hp.trans (List.prefix_append _ _), ht⟩
    · -- the last operation is the first write
      rw [count_concat, count_concat] at h
      rcases h with h | h
      · refine Or.inl ⟨_, List.prefix_refl _, ?_⟩
        rw [count_concat, count_concat]
        split_ifs at h ⊢ <;> omega
      · refine Or.inr ⟨_, List.prefix_refl _, ?_⟩
        rw [count_concat, count_concat]
        split_ifs at h ⊢ <;> omega

/-- Not both. -/
theorem First.asymm (h : First k i j s) : ¬ First k j i s := by
  rintro ⟨t', hp', hj', hi'⟩
  obtain ⟨t, hp, hi, hj⟩ := h
  rcases List.prefix_or_prefix_of_prefix hp hp' with hle | hle
  · have := hle.sublist.count_le i
    omega
  · have := hle.sublist.count_le j
    omega

/-! ### What is in the cell -/

/-- As long as `j` has not written: what `i` holds, what it has written, and what `j` holds. -/
theorem exec_before (hi : i < n) (hj : j < n) (hij : i ≠ j) (hn : ∀ x < n, x = i ∨ x = j)
    (v : V) (s : List Nat) (hs : s.count j ≤ k + 1) :
    ((start v).exec n k f s).value = (if k + 2 ≤ s.count i then f i v else v) ∧
      (k + 1 ≤ s.count i → ((start v).exec n k f s).held i = v) ∧
      (k + 1 ≤ s.count j → (Ahead k i j s → ((start v).exec n k f s).held j = f i v) ∧
        (¬ Ahead k i j s → ((start v).exec n k f s).held j = v)) := by
  induction s using List.reverseRecOn with
  | nil => exact ⟨by simp [exec, start], by simp, by simp⟩
  | append_singleton s x ih =>
    have hmono : s.count j ≤ (s ++ [x]).count j := (List.prefix_append s [x]).sublist.count_le j
    obtain ⟨hvalue, hheld, hother⟩ := ih (le_trans hmono hs)
    have htaken : ∀ y < n, ((start v).exec n k f s).taken y = s.count y := by
      intro y hy
      rw [taken_exec hy]
      exact Nat.zero_add _
    rw [exec_concat]
    by_cases hxi : x = i
    · subst hxi
      have hci : (s ++ [x]).count x = s.count x + 1 := by rw [count_concat, if_pos rfl]
      have hcj : (s ++ [x]).count j = s.count j := by rw [count_concat, if_neg hij, Nat.add_zero]
      rw [held_step_ne (Ne.symm hij), ahead_concat, hci, hcj]
      refine ⟨?_, fun hx => ?_, fun hk => ⟨fun ha => ?_, fun ha => ?_⟩⟩
      · by_cases hw : s.count x = k + 1
        · rw [value_step_write hi (by rw [htaken x hi, hw]), if_pos (by omega), hheld (by omega)]
        · rw [value_step_keep (by rw [htaken x hi]; exact hw), hvalue]
          exact if_congr (by omega) rfl rfl
      · by_cases hr : s.count x = k
        · rw [held_step_read hi (by rw [htaken x hi, hr]), hvalue, if_neg (by omega)]
        · rw [held_step_keep (by rw [htaken x hi]; exact hr)]
          exact hheld (by omega)
      · exact (hother hk).1 (ha.resolve_right (by omega))
      · exact (hother hk).2 fun h => ha (Or.inl h)
    · have hci : (s ++ [x]).count i = s.count i := by rw [count_concat, if_neg hxi, Nat.add_zero]
      rw [held_step_ne (Ne.symm hxi), hci]
      by_cases hxj : x = j
      · subst hxj
        have hcj : (s ++ [x]).count x = s.count x + 1 := by rw [count_concat, if_pos rfl]
        rw [hcj] at hs
        rw [value_step_keep (by rw [htaken x hj]; omega), ahead_concat, hci, hcj]
        refine ⟨hvalue, hheld, fun hk => ?_⟩
        -- this is the read of `x`, and it is too late for the write of `i` to come before it
        rw [held_step_read hj (by rw [htaken x hj]; omega), hvalue]
        refine ⟨fun ha => ?_, fun ha => if_neg fun hw => ha (Or.inl ?_)⟩
        · obtain ⟨t, hp, hw, -⟩ := ha.resolve_right (by omega)
          exact if_pos (le_trans hw (hp.sublist.count_le i))
        · exact ⟨s, List.prefix_refl s, hw, by omega⟩
      · have hout : ¬ x < n := fun hx => (hn x hx).elim hxi hxj
        have hcj : (s ++ [x]).count j = s.count j := by
          rw [count_concat, if_neg hxj, Nat.add_zero]
        rw [step_out hout, ahead_concat, hci, hcj]
        refine ⟨hvalue, hheld, fun hk => ⟨fun ha => ?_, fun ha => ?_⟩⟩
        · exact (hother hk).1 (ha.resolve_right (by omega))
        · exact (hother hk).2 fun h => ha (Or.inl h)

/-- Once `i` has written: the last value is what `j` writes, over what it held or has still to
    read. -/
theorem exec_after (hi : i < n) (hj : j < n) (hij : i ≠ j) (hn : ∀ x < n, x = i ∨ x = j)
    (hwrote : k + 2 ≤ c.taken i) (hyet : c.taken j ≤ k + 1) (s : List Nat) :
    ((c.taken j + s.count j ≤ k + 1 → (c.exec n k f s).value = c.value) ∧
      (c.taken j ≤ k → k + 1 ≤ c.taken j + s.count j → (c.exec n k f s).held j = c.value) ∧
      (c.taken j = k + 1 → (c.exec n k f s).held j = c.held j)) ∧
    (k + 2 ≤ c.taken j + s.count j →
      (c.exec n k f s).value = f j (if c.taken j ≤ k then c.value else c.held j)) := by
  induction s using List.reverseRecOn with
  | nil => exact ⟨⟨fun _ => rfl, fun _ h => by simp at h; omega, fun _ => rfl⟩,
      fun h => by simp at h; omega⟩
  | append_singleton s x ih =>
    obtain ⟨⟨hvalue, hread, hkeep⟩, hlast⟩ := ih
    rw [exec_concat]
    by_cases hxj : x = j
    · subst hxj
      have hcj : (s ++ [x]).count x = s.count x + 1 := by rw [count_concat, if_pos rfl]
      have htaken := taken_exec (c := c) (k := k) (f := f) hj s
      rw [hcj]
      refine ⟨⟨fun h => ?_, fun h h' => ?_, fun h => ?_⟩, fun h => ?_⟩
      · rw [value_step_keep (by omega)]
        exact hvalue (by omega)
      · by_cases hr : c.taken x + s.count x = k
        · rw [held_step_read hj (by omega)]
          exact hvalue (by omega)
        · rw [held_step_keep (by omega)]
          exact hread h (by omega)
      · rw [held_step_keep (by omega)]
        exact hkeep h
      · by_cases hw : c.taken x + s.count x = k + 1
        · rw [value_step_write hj (by omega)]
          split
          · rw [hread ‹_› (by omega)]
          · rw [hkeep (by omega)]
        · rw [value_step_keep (by omega)]
          exact hlast (by omega)
    · have hcj : (s ++ [x]).count j = s.count j := by rw [count_concat, if_neg hxj, Nat.add_zero]
      have hvalue' : ((c.exec n k f s).step n k f x).value = (c.exec n k f s).value := by
        by_cases hx : x < n
        · obtain rfl := (hn x hx).resolve_right hxj
          exact value_step_keep (by rw [taken_exec hi]; omega)
        · rw [step_out hx]
      rw [held_step_ne (Ne.symm hxj), hcj, hvalue']
      exact ⟨⟨hvalue, hread, hkeep⟩, hlast⟩

/-- **Two agents.** When `i` writes first and both have written, the value is what `j` makes of
    what `i` wrote if `i` was ahead, and of the starting value if not. -/
theorem value_of_first (hi : i < n) (hj : j < n) (hij : i ≠ j) (hn : ∀ x < n, x = i ∨ x = j)
    (v : V) (hfirst : First k i j s) (hboth : k + 2 ≤ s.count j) :
    (Ahead k i j s → ((start v).exec n k f s).value = f j (f i v)) ∧
      (¬ Ahead k i j s → ((start v).exec n k f s).value = f j v) := by
  obtain ⟨t, ⟨rest, rfl⟩, hwrote, hyet⟩ := hfirst
  obtain ⟨hvalue, -, hheld⟩ := exec_before (f := f) hi hj hij hn v t hyet
  have htaken : ∀ x < n, ((start v).exec n k f t).taken x = t.count x := by
    intro x hx
    rw [taken_exec hx]
    exact Nat.zero_add _
  have hahead : Ahead k i j (t ++ rest) ↔ Ahead k i j t := by
    refine ⟨fun ⟨t', hp, hw, hr⟩ => ?_, fun ⟨t', hp, h⟩ => ⟨t', hp.trans (List.prefix_append _ _), h⟩⟩
    rcases List.prefix_or_prefix_of_prefix hp (List.prefix_append t rest) with hle | hle
    · exact ⟨t', hle, hw, hr⟩
    · exact ⟨t, List.prefix_refl t, hwrote, le_trans (hle.sublist.count_le j) hr⟩
  rw [if_pos hwrote] at hvalue
  rw [List.count_append] at hboth
  have hlast := (exec_after (f := f) (c := (start v).exec n k f t) hi hj hij hn
    (by rw [htaken i hi]; exact hwrote) (by rw [htaken j hj]; exact hyet) rest).2
    (by rw [htaken j hj]; exact hboth)
  rw [exec_append, hlast, htaken j hj, hvalue, hahead]
  by_cases hr : t.count j ≤ k
  · rw [if_pos hr]
    exact ⟨fun _ => rfl, fun h => absurd ⟨t, List.prefix_refl t, hwrote, hr⟩ h⟩
  · rw [if_neg hr]
    obtain ⟨hyes, hno⟩ := hheld (by omega)
    exact ⟨fun h => by rw [hyes h], fun h => by rw [hno h]⟩

end

end Cell

end Program
