/-
  What is settled when a program begins.

  Steps `first` are taken in a run, and then steps `later`. A thread that takes its first step in
  `later` is answered there only (`answered_after`). So it does what a program justified for the
  answers of those states does (`later_justified`).

  What such a thread can build on comes from what another one has done by then: an event of its
  own brings a fact about, and the steps from there on keep it (`settled`). Threads that may not
  keep it have to be `Aside`: over before the other one begins, or not begun at all.
-/
import CaldavMcp.Program.Linearization

namespace Program

variable {Op : Type} {Resp : Op → Type} {σ α : Type} {A : (o : Op) → Resp o → Prop}
  {J : List (Event Op Resp) → Op → Prop}

namespace Pool

variable {h : Handler Op Resp σ} {s : σ} {ps : List (Prog Op Resp α)} {i j r : Nat}
  {t : Thread Op Resp α} {first later : List Nat}

/-! ## Facts that are kept -/

/-- One more step leaves the state, or takes it through an operation that its thread is about to
    perform. -/
theorem state_snoc (h : Handler Op Resp σ) (p : Pool σ Op Resp α) (before : List Nat) (j : Nat) :
    (p.exec h (before ++ [j])).state = (p.exec h before).state ∨
      ∃ t o, (p.exec h before).threads[j]? = some t ∧ t.next? = some o ∧
        (p.exec h (before ++ [j])).state = (h o (p.exec h before).state).2 := by
  rw [exec_append]
  obtain hs | ⟨t, o, k, ht, hr, hs⟩ := step_cases h (p.exec h before) j
  · exact Or.inl (congrArg Pool.state hs)
  · exact Or.inr ⟨t, o, ht, Thread.next?_of_call hr, congrArg Pool.state hs⟩

/-- The operations that a run performs after the steps `past` keep the fact. -/
def Keeps (h : Handler Op Resp σ) (p : Pool σ Op Resp α) (I : σ → Prop) (past sched : List Nat) :
    Prop :=
  ∀ before j t o, past <+: before → before ++ [j] <+: sched →
    (p.exec h before).threads[j]? = some t → t.next? = some o → I (p.exec h before).state →
    I (h o (p.exec h before).state).2

/-- What holds after `past` holds from there on. -/
theorem Keeps.after {p : Pool σ Op Resp α} {I : σ → Prop} {past sched : List Nat}
    (hkeeps : Keeps h p I past sched) (hI : I (p.exec h past).state) {more : List Nat}
    (hmore : past ++ more <+: sched) : I (p.exec h (past ++ more)).state := by
  induction more using List.reverseRecOn with
  | nil => rwa [List.append_nil]
  | append_singleton more j ih =>
    rw [← List.append_assoc] at hmore ⊢
    have hbefore := ih ((List.prefix_append _ _).trans hmore)
    obtain hs | ⟨t, o, ht, ho, hs⟩ := state_snoc h p (past ++ more) j
    · rwa [hs]
    · rw [hs]
      exact hkeeps _ j t o (List.prefix_append _ _) hmore ht ho hbefore

/-- **What is settled stays settled.** An event of thread `r` in `first` brings a fact about, and
    the operations from there on keep it. Then it holds along `later`. -/
theorem settled {I : σ → Prop} (ht : ((start s ps).exec h first).threads[r]? = some t)
    {e : Event Op Resp} (he : e ∈ t.hist)
    (hsets : ∀ before, before ++ [r] <+: first →
      e.2 = (h e.1 ((start s ps).exec h before).state).1 →
      I (h e.1 ((start s ps).exec h before).state).2)
    (hkeeps : ∀ past, r ∈ past → Keeps h (start s ps) I past (first ++ later)) {mid : List Nat}
    (hmid : mid <+: later) : I ((start s ps).exec h (first ++ mid)).state := by
  obtain ⟨before, hbefore, ha, hs⟩ := performed_earlier first ht he
  have hset : I ((start s ps).exec h (before ++ [r])).state := by
    rw [hs]
    exact hsets before hbefore ha
  obtain ⟨rest, rfl⟩ := hbefore
  have hr : r ∈ before ++ [r] := List.mem_append_right _ List.mem_cons_self
  rw [List.append_assoc]
  refine (hkeeps _ hr).after hset ?_
  rw [← List.append_assoc]
  exact (List.prefix_append_right_inj _).mpr hmid

/-! ## Threads that begin later -/

/-- A thread that has not begun by the end of `first` is answered later. -/
theorem answered_after (hbegins : i ∉ first)
    (ht : ((start s ps).exec h (first ++ later)).threads[i]? = some t) {e : Event Op Resp}
    (he : e ∈ t.hist) :
    ∃ mid, mid ++ [i] <+: later ∧ e.2 = (h e.1 ((start s ps).exec h (first ++ mid)).state).1 := by
  obtain ⟨before, hbefore, ha, -⟩ := performed_earlier (first ++ later) ht he
  have hmem : i ∈ before ++ [i] := List.mem_append_right _ List.mem_cons_self
  obtain hle | ⟨rest, hrest⟩ :=
    List.prefix_or_prefix_of_prefix hbefore (List.prefix_append first later)
  · exact absurd (hle.subset hmem) hbegins
  · obtain rfl | ⟨mid, k, rfl⟩ := List.eq_nil_or_concat rest
    · rw [List.append_nil] at hrest
      exact absurd (hrest ▸ hmem) hbegins
    · rw [List.concat_eq_append, ← List.append_assoc] at hrest
      obtain ⟨rfl, hk⟩ := List.append_inj' hrest rfl
      obtain rfl := List.singleton_inj.mp hk
      refine ⟨mid, ?_, ha⟩
      rw [List.append_assoc] at hbefore
      exact (List.prefix_append_right_inj first).mp hbefore

/-- **What begins later does what the later answers allow.** -/
theorem later_justified {Q : List (Event Op Resp) → α → Prop} {p : Prog Op Resp α}
    (hA : ∀ mid o, mid <+: later → A o (h o ((start s ps).exec h (first ++ mid)).state).1)
    (hi : ps[i]? = some p) (hp : p.Justified A J Q []) (hbegins : i ∉ first)
    (ht : ((start s ps).exec h (first ++ later)).threads[i]? = some t) :
    t.rest.Justified A J Q t.hist := by
  refine answered_justified hi hp (first ++ later) ht fun e he => ?_
  obtain ⟨mid, hmid, ha⟩ := answered_after hbegins ht he
  rw [ha]
  exact hA mid e.1 ((List.prefix_append _ _).trans hmid)

/-- Thread `j` is over after the steps `past`, or takes no step along the schedule. -/
def Aside (h : Handler Op Resp σ) (p : Pool σ Op Resp α) (past sched : List Nat) (j : Nat) :
    Prop :=
  j ∉ sched ∨ ∃ t a, (p.exec h past).threads[j]? = some t ∧ t.result? = some a

/-- A thread that is aside does nothing once a thread has begun that had not after `past`. -/
theorem Aside.over {p : Pool σ Op Resp α} {past sched before : List Nat} {o : Op}
    (haside : Aside h p past sched j) (hpast : past <+: sched) (hr : r ∉ past)
    (hbefore : before ++ [j] <+: sched) (hbegun : r ∈ before)
    (ht : (p.exec h before).threads[j]? = some t) : t.next? ≠ some o := by
  obtain hj | ⟨t', a, ht', ha⟩ := haside
  · exact absurd (hbefore.subset (List.mem_append_right _ List.mem_cons_self)) hj
  · obtain hle | ⟨rest, rfl⟩ :=
      List.prefix_or_prefix_of_prefix ((List.prefix_append _ _).trans hbefore) hpast
    · exact absurd (hle.subset hbegun) hr
    · have hsame := exec_returned (h := h) ht' ha rest
      rw [← exec_append, ht] at hsame
      obtain rfl := Option.some.inj hsame
      intro hnext
      unfold Thread.next? at hnext
      rw [Thread.result?_eq_some.mp ha] at hnext
      cases hnext

end Pool

end Program
