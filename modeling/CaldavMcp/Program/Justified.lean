/-
  Programs that do only what they have seen reason to do.

  `Prog.Justified A J Q hist p` says that `p`, with the events `hist` behind it, performs an
  operation only where `J` allows it after the events so far, and returns where `Q` holds. The
  answers are any that `A` has for the operation: no handler is named and no state. So a program
  that is justified alone is justified beside any other threads, and whichever operations fail,
  as long as the answers are such ones (`next_justified`).

  What a thread has been answered, it was answered at some moment of the run (`seen_earlier`).
  The two rules together turn a justification into a fact about earlier states.
-/
import CaldavMcp.Program.Pool

namespace Program

variable {Op : Type} {Resp : Op → Type} {σ α β : Type} {A : (o : Op) → Resp o → Prop}
  {J : List (Event Op Resp) → Op → Prop} {hist : List (Event Op Resp)}

/-- From this history on, every operation is allowed by the events before it, and every result
    by those before the return. -/
def Prog.Justified (A : (o : Op) → Resp o → Prop) (J : List (Event Op Resp) → Op → Prop)
    (Q : List (Event Op Resp) → α → Prop) : List (Event Op Resp) → Prog Op Resp α → Prop
  | hist, .ret a => Q hist a
  | hist, .call o k => J hist o ∧ ∀ r, A o r → (k r).Justified A J Q (⟨o, r⟩ :: hist)

/-- Sequencing: the second program goes on with the history of the first. -/
theorem justified_bind {mid : List (Event Op Resp) → α → Prop}
    {Q : List (Event Op Resp) → β → Prop} {p : Prog Op Resp α} {f : α → Prog Op Resp β}
    (hp : p.Justified A J mid hist) (hf : ∀ hist' a, mid hist' a → (f a).Justified A J Q hist') :
    (p >>= f).Justified A J Q hist := by
  induction p generalizing hist with
  | ret a => exact hf hist a hp
  | call o k ih => exact ⟨hp.1, fun r hr => ih r (hp.2 r hr)⟩

theorem Prog.Justified.mono {Q Q' : List (Event Op Resp) → α → Prop} {p : Prog Op Resp α}
    (hp : p.Justified A J Q hist) (hQ : ∀ hist' a, Q hist' a → Q' hist' a) :
    p.Justified A J Q' hist := by
  induction p generalizing hist with
  | ret a => exact hQ hist a hp
  | call o k ih => exact ⟨hp.1, fun r hr => ih r (hp.2 r hr)⟩

theorem Prog.Justified.imp {J' : List (Event Op Resp) → Op → Prop}
    {Q : List (Event Op Resp) → α → Prop} {p : Prog Op Resp α} (hp : p.Justified A J Q hist)
    (hJ : ∀ hist' o, J hist' o → J' hist' o) : p.Justified A J' Q hist := by
  induction p generalizing hist with
  | ret a => exact hp
  | call o k ih => exact ⟨hJ hist o hp.1, fun r hr => ih r (hp.2 r hr)⟩

theorem Prog.Justified.and {Q Q' : List (Event Op Resp) → α → Prop} {p : Prog Op Resp α}
    (hp : p.Justified A J Q hist) (hp' : p.Justified A J Q' hist) :
    p.Justified A J (fun hist' a => Q hist' a ∧ Q' hist' a) hist := by
  induction p generalizing hist with
  | ret a => exact ⟨hp, hp'⟩
  | call o k ih => exact ⟨hp.1, fun r hr => ih r (hp.2 r hr) (hp'.2 r hr)⟩

/-- `hist'` goes on from `hist` with operations in `P`. -/
def Extends (P : Op → Prop) (hist hist' : List (Event Op Resp)) : Prop :=
  ∃ new, hist' = new ++ hist ∧ ∀ e ∈ new, P e.1

theorem Extends.refl (P : Op → Prop) (hist : List (Event Op Resp)) : Extends P hist hist :=
  ⟨[], rfl, nofun⟩

theorem Extends.suffix {P : Op → Prop} {hist' : List (Event Op Resp)}
    (h : Extends P hist hist') : hist <:+ hist' := by
  obtain ⟨new, rfl, -⟩ := h
  exact List.suffix_append new hist

theorem Extends.cons {P : Op → Prop} {hist' : List (Event Op Resp)} {e : Event Op Resp}
    (h : Extends P hist hist') (he : P e.1) : Extends P hist (e :: hist') := by
  obtain ⟨new, rfl, hnew⟩ := h
  exact ⟨e :: new, rfl, List.forall_mem_cons.mpr ⟨he, hnew⟩⟩

/-- A program of operations that are allowed from this history on. -/
theorem justified_of_only {P : Op → Prop} {p : Prog Op Resp α} (hp : p.Only P)
    (hJ : ∀ hist', Extends P hist hist' → ∀ o, P o → J hist' o) :
    p.Justified A J (fun hist' _ => Extends P hist hist') hist := by
  have later : ∀ hist', Extends P hist hist' →
      p.Justified A J (fun hist' _ => Extends P hist hist') hist' := by
    induction p with
    | ret a => exact fun hist' h => h
    | call o k ih =>
      intro hist' h
      exact ⟨hJ hist' h o hp.1, fun r _ => ih r (hp.2 r) _ (h.cons hp.1)⟩
  exact later hist (Extends.refl P hist)

/-- What a thread is about to do, its history allows. -/
theorem Thread.next_allowed {Q : List (Event Op Resp) → α → Prop} {t : Thread Op Resp α}
    (hrest : t.rest.Justified A J Q t.hist) {o : Op} (ho : t.next? = some o) : J t.hist o := by
  unfold Thread.next? at ho
  cases hr : t.rest with
  | ret a => rw [hr] at ho; cases ho
  | call o' k =>
    rw [hr] at ho hrest
    obtain rfl := Option.some.inj ho
    exact hrest.1

/-- What a thread has returned, its history allows. -/
theorem Thread.result_allowed {Q : List (Event Op Resp) → α → Prop} {t : Thread Op Resp α}
    (hrest : t.rest.Justified A J Q t.hist) {a : α} (ha : t.result? = some a) : Q t.hist a := by
  rw [Thread.result?_eq_some.mp ha] at hrest
  exact hrest

namespace Pool

variable {h : Handler Op Resp σ} {s : σ} {ps : List (Prog Op Resp α)} {i : Nat}
  {t : Thread Op Resp α}

/-- **What a thread has done, it did in an earlier step of its own**: the answer was the
    handler's answer there, and the step left the state that the handler left. -/
theorem performed_earlier (sched : List Nat)
    (ht : ((start s ps).exec h sched).threads[i]? = some t) {e : Event Op Resp}
    (he : e ∈ t.hist) :
    ∃ before, before ++ [i] <+: sched ∧
      e.2 = (h e.1 ((start s ps).exec h before).state).1 ∧
      ((start s ps).exec h (before ++ [i])).state = (h e.1 ((start s ps).exec h before).state).2 := by
  induction sched using List.reverseRecOn generalizing t with
  | nil =>
    rw [exec_nil, start, List.getElem?_map, Option.map_eq_some_iff] at ht
    obtain ⟨p, -, rfl⟩ := ht
    exact absurd he List.not_mem_nil
  | append_singleton sched j ih =>
    have earlier : ∀ {t'}, ((start s ps).exec h sched).threads[i]? = some t' → e ∈ t'.hist →
        ∃ before, before ++ [i] <+: sched ++ [j] ∧
          e.2 = (h e.1 ((start s ps).exec h before).state).1 ∧
          ((start s ps).exec h (before ++ [i])).state =
            (h e.1 ((start s ps).exec h before).state).2 := by
      intro t' ht' he'
      obtain ⟨before, hbefore, ha⟩ := ih ht' he'
      exact ⟨before, hbefore.trans (List.prefix_append _ _), ha⟩
    have hlast : (start s ps).exec h (sched ++ [j]) = ((start s ps).exec h sched).step h j :=
      exec_append h _ sched [j]
    rw [hlast] at ht
    obtain hs | ⟨t₀, o, k, ht₀, -, hs⟩ := step_cases h ((start s ps).exec h sched) j
    · rw [hs] at ht
      exact earlier ht he
    · rw [hs] at ht hlast
      obtain ⟨rfl, rfl⟩ | ⟨-, ht⟩ := getElem?_set_cases ht
      · obtain rfl | he := List.mem_cons.mp he
        · exact ⟨sched, List.prefix_rfl, rfl, congrArg Pool.state hlast⟩
        · exact earlier ht₀ he
      · exact earlier ht he

/-- **What a thread has been answered was the answer at an earlier moment.** -/
theorem seen_earlier (sched : List Nat)
    (ht : ((start s ps).exec h sched).threads[i]? = some t) {e : Event Op Resp}
    (he : e ∈ t.hist) :
    ∃ before, before <+: sched ∧ e.2 = (h e.1 ((start s ps).exec h before).state).1 := by
  obtain ⟨before, hbefore, ha, -⟩ := performed_earlier sched ht he
  exact ⟨before, (List.prefix_append _ _).trans hbefore, ha⟩

/-- A justified program stays so as a thread, as long as its own answers are such ones. -/
theorem answered_justified {Q : List (Event Op Resp) → α → Prop} {p : Prog Op Resp α}
    (hi : ps[i]? = some p) (hp : p.Justified A J Q []) (sched : List Nat)
    (ht : ((start s ps).exec h sched).threads[i]? = some t) (hA : ∀ e ∈ t.hist, A e.1 e.2) :
    t.rest.Justified A J Q t.hist := by
  refine exec_keeps (G := fun _ _ => True) (I := fun q => ∀ t, q.threads[i]? = some t →
    (∀ e ∈ t.hist, A e.1 e.2) → t.rest.Justified A J Q t.hist) ?_ sched _ ?_
    (Along.of_forall (fun _ _ _ => trivial) _) t ht hA
  · intro q j hq _ t' ht' hA'
    obtain hs | ⟨t₀, o, k, ht₀, hr, hs⟩ := step_cases h q j
    · rw [hs] at ht'
      exact hq t' ht' hA'
    · rw [hs] at ht'
      obtain ⟨rfl, rfl⟩ | ⟨-, ht'⟩ := getElem?_set_cases ht'
      · have hjust := hq t₀ ht₀ fun e he => hA' e (List.mem_cons_of_mem _ he)
        rw [hr] at hjust
        exact hjust.2 _ (hA' _ List.mem_cons_self)
      · exact hq t' ht' hA'
  · intro t' ht' _
    rw [start, List.getElem?_map, hi] at ht'
    obtain rfl := Option.some.inj ht'
    exact hp

/-- A justified program stays so as a thread, whatever the other threads do. -/
theorem exec_justified (hA : ∀ o s, A o (h o s).1) {Q : List (Event Op Resp) → α → Prop}
    {p : Prog Op Resp α} (hi : ps[i]? = some p) (hp : p.Justified A J Q []) (sched : List Nat)
    (ht : ((start s ps).exec h sched).threads[i]? = some t) : t.rest.Justified A J Q t.hist := by
  refine answered_justified hi hp sched ht fun e he => ?_
  obtain ⟨before, -, ha⟩ := seen_earlier sched ht he
  rw [ha]
  exact hA e.1 _

/-- **What a thread is about to do, its history allows.** -/
theorem next_justified (hA : ∀ o s, A o (h o s).1) {Q : List (Event Op Resp) → α → Prop}
    {p : Prog Op Resp α} (hi : ps[i]? = some p) (hp : p.Justified A J Q []) (sched : List Nat)
    (ht : ((start s ps).exec h sched).threads[i]? = some t) {o : Op} (ho : t.next? = some o) :
    J t.hist o :=
  Thread.next_allowed (exec_justified hA hi hp sched ht) ho

/-- What a thread has returned, its history allows. -/
theorem result_justified (hA : ∀ o s, A o (h o s).1) {Q : List (Event Op Resp) → α → Prop}
    {p : Prog Op Resp α} (hi : ps[i]? = some p) (hp : p.Justified A J Q []) (sched : List Nat)
    (ht : ((start s ps).exec h sched).threads[i]? = some t) {a : α} (ha : t.result? = some a) :
    Q t.hist a :=
  Thread.result_allowed (exec_justified hA hi hp sched ht) ha

end Pool

end Program
