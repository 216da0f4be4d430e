/-
  Threads that only look.

  An operation that leaves every state as it is can be left out of a run by all the others.
  `Pool.AlikeBut idle p q` says that two pools have the same state and the same threads, but for
  those in `idle`. Scheduling a thread of observing operations keeps the relation on one side
  (`AlikeBut.observe`), and scheduling any other thread on both (`AlikeBut.both`), so a schedule
  may drop the steps of its observers (`exec_without`).
-/
import CaldavMcp.Program.Pool

namespace Program

namespace Pool

variable {Op : Type} {Resp : Op → Type} {σ α : Type} {h : Handler Op Resp σ}
  {observes : Op → Prop} {idle : Nat → Bool} {p q : Pool σ Op Resp α}

/-- The same state, and the same threads but for the idle ones. -/
structure AlikeBut (idle : Nat → Bool) (p q : Pool σ Op Resp α) : Prop where
  state : p.state = q.state
  threads : ∀ i, idle i = false → p.threads[i]? = q.threads[i]?

/-- What is left of the idle threads only observes. -/
def IdleObserve (observes : Op → Prop) (idle : Nat → Bool) (p : Pool σ Op Resp α) : Prop :=
  ∀ i t, idle i = true → p.threads[i]? = some t → t.rest.Only observes

theorem AlikeBut.refl (idle : Nat → Bool) (p : Pool σ Op Resp α) : AlikeBut idle p p :=
  ⟨rfl, fun _ _ => rfl⟩

/-- A step keeps what the idle threads do. -/
theorem IdleObserve.step (hp : IdleObserve observes idle p) (i : Nat) :
    IdleObserve observes idle (p.step h i) := by
  obtain hs | ⟨t, o, k, ht, hr, hs⟩ := step_cases h p i
  · rw [hs]
    exact hp
  · rw [hs]
    intro j t' hj ht'
    obtain ⟨rfl, rfl⟩ | ⟨-, ht'⟩ := getElem?_set_cases ht'
    · have hrest := hp j t hj ht
      rw [hr] at hrest
      exact hrest.2 _
    · exact hp j t' hj ht'

/-- A step of an idle thread, on one side. -/
theorem AlikeBut.observe (hobs : ∀ o s, observes o → (h o s).2 = s)
    (hp : IdleObserve observes idle p) (hpq : AlikeBut idle p q) {i : Nat} (hi : idle i = true) :
    AlikeBut idle (p.step h i) q := by
  obtain hs | ⟨t, o, k, ht, hr, hs⟩ := step_cases h p i
  · rw [hs]
    exact hpq
  · rw [hs]
    have hrest := hp i t hi ht
    rw [hr] at hrest
    refine ⟨(hobs o p.state hrest.1).trans hpq.state, fun j hj => ?_⟩
    rw [List.getElem?_set_ne, hpq.threads j hj]
    intro hij
    rw [← hij, hi] at hj
    cases hj

/-- A step of another thread, on both sides. -/
theorem AlikeBut.both (hpq : AlikeBut idle p q) {i : Nat} (hi : idle i = false) :
    AlikeBut idle (p.step h i) (q.step h i) := by
  have hthread := hpq.threads i hi
  unfold step
  rw [← hthread, hpq.state]
  cases ht : p.threads[i]? with
  | none => exact hpq
  | some t =>
    cases hr : t.rest with
    | ret a =>
      simp only [hr]
      exact hpq
    | call o k =>
      simp only [hr]
      refine ⟨rfl, fun j hj => ?_⟩
      by_cases hij : i = j
      · subst hij
        have hp := (List.getElem?_eq_some_iff.mp ht).1
        have hq := (List.getElem?_eq_some_iff.mp (hthread.symm.trans ht)).1
        rw [List.getElem?_set_self hp, List.getElem?_set_self hq]
      · rw [List.getElem?_set_ne hij, List.getElem?_set_ne hij]
        exact hpq.threads j hj

/-- **The rule.** The steps of threads that only observe can be left out of a schedule. -/
theorem exec_without (hobs : ∀ o s, observes o → (h o s).2 = s)
    (hp : IdleObserve observes idle p) (hpq : AlikeBut idle p q) (sched : List Nat) :
    AlikeBut idle (p.exec h sched) (q.exec h (sched.filter fun i => !idle i)) := by
  induction sched generalizing p q with
  | nil => exact hpq
  | cons i sched ih =>
    cases hi : idle i with
    | true =>
      rw [List.filter_cons_of_neg (by rw [hi]; decide)]
      exact ih (hp.step i) (hpq.observe hobs hp hi)
    | false =>
      rw [List.filter_cons_of_pos (by rw [hi]; rfl)]
      exact ih (hp.step i) (hpq.both hi)

end Pool

end Program
