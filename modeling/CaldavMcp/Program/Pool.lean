/-
  Interleaved runs of several programs over one shared state.

  A `Pool` holds a state and a list of threads. A schedule is a list of thread numbers;
  `Pool.exec` lets the named thread perform its next operation, one per entry. A thread that
  has returned, or a number no thread has, does nothing. Every interleaving of the threads'
  operations, of any length, is one schedule, and every state reached is `exec` of a prefix.

  A thread keeps the operations it has performed, with their answers (`hist`, newest first).
  Nothing in a run reads it. It is there so that a statement can say what a thread has done.

  Proof rule. An `Outline` annotates programs with phases, in the manner of a proof outline:
  where each answer leads (`next`), which operations a program may perform in a phase
  (`sends`), what it relies on about the shared state there (`knows`), and with which results
  it may return (`ends`). A thread's phase is `next` folded over its history, so a statement
  may speak of phases too. `Outline.Follows` checks ONE program against the outline, alone.
  `Outline.exec_inv` is the rule for pools: an invariant on the state and the phases that
  supplies every `knows` and survives each operation holds along every schedule. Interference
  is dealt with there and nowhere else. `Along` carries a condition on the steps of a schedule
  into the rule.
-/
import CaldavMcp.Program.Basic

namespace Program

variable {Op : Type} {Resp : Op → Type} {σ α β : Type}

/-- An operation that has been performed, with its answer. -/
abbrev Event (Op : Type) (Resp : Op → Type) := (o : Op) × Resp o

/-- A running program: what it has done (newest first) and what is left. -/
structure Thread (Op : Type) (Resp : Op → Type) (α : Type) where
  hist : List (Event Op Resp)
  rest : Prog Op Resp α

namespace Thread

/-- A thread that has done nothing yet. -/
def start (p : Prog Op Resp α) : Thread Op Resp α := ⟨[], p⟩

/-- The result, once the program has returned. -/
def result? (t : Thread Op Resp α) : Option α :=
  match t.rest with
  | .ret a => some a
  | .call _ _ => none

/-- The operation the thread performs when it is scheduled next. -/
def next? (t : Thread Op Resp α) : Option Op :=
  match t.rest with
  | .ret _ => none
  | .call o _ => some o

theorem next?_of_call {t : Thread Op Resp α} {o : Op} {k : Resp o → Prog Op Resp α}
    (h : t.rest = .call o k) : t.next? = some o := by
  unfold next?
  rw [h]

theorem result?_eq_some {t : Thread Op Resp α} {a : α} :
    t.result? = some a ↔ t.rest = .ret a := by
  unfold result?
  cases t.rest <;> simp

theorem result?_of_call {t : Thread Op Resp α} {o : Op} {k : Resp o → Prog Op Resp α}
    (h : t.rest = .call o k) : t.result? = none := by
  unfold result?
  rw [h]

end Thread

/-- The entries of a list after one of them is replaced. -/
theorem getElem?_set_cases {l : List α} {i j : Nat} {a b : α} (h : (l.set i a)[j]? = some b) :
    j = i ∧ b = a ∨ j ≠ i ∧ l[j]? = some b := by
  by_cases hij : j = i
  · subst hij
    rw [List.getElem?_set] at h
    simp only [if_true] at h
    split at h
    · exact Or.inl ⟨rfl, (Option.some.inj h).symm⟩
    · cases h
  · rw [List.getElem?_set_ne (Ne.symm hij)] at h
    exact Or.inr ⟨hij, h⟩

/-- Threads over a shared state. -/
structure Pool (σ : Type) (Op : Type) (Resp : Op → Type) (α : Type) where
  state : σ
  threads : List (Thread Op Resp α)

namespace Pool

/-- The pool in which every program is about to start. -/
def start (s : σ) (ps : List (Prog Op Resp α)) : Pool σ Op Resp α :=
  ⟨s, ps.map Thread.start⟩

/-- Thread `i` performs its next operation. -/
def step (h : Handler Op Resp σ) (p : Pool σ Op Resp α) (i : Nat) : Pool σ Op Resp α :=
  match p.threads[i]? with
  | none => p
  | some t =>
    match t.rest with
    | .ret _ => p
    | .call o k =>
      ⟨(h o p.state).2,
        p.threads.set i ⟨⟨o, (h o p.state).1⟩ :: t.hist, k (h o p.state).1⟩⟩

/-- Follow a schedule. -/
def exec (h : Handler Op Resp σ) (p : Pool σ Op Resp α) (sched : List Nat) :
    Pool σ Op Resp α :=
  sched.foldl (step h) p

/-- Every thread that has taken a step has returned. -/
def Quiet (p : Pool σ Op Resp α) : Prop :=
  ∀ t ∈ p.threads, t.hist ≠ [] → t.result?.isSome

@[simp] theorem exec_nil (h : Handler Op Resp σ) (p : Pool σ Op Resp α) : p.exec h [] = p := rfl

@[simp] theorem exec_cons (h : Handler Op Resp σ) (p : Pool σ Op Resp α) (i : Nat)
    (is : List Nat) : p.exec h (i :: is) = (p.step h i).exec h is := rfl

theorem exec_append (h : Handler Op Resp σ) (p : Pool σ Op Resp α) (is js : List Nat) :
    p.exec h (is ++ js) = (p.exec h is).exec h js := List.foldl_append

/-- All that a scheduled thread can do: nothing, or one operation. -/
theorem step_cases (h : Handler Op Resp σ) (p : Pool σ Op Resp α) (i : Nat) :
    p.step h i = p ∨ ∃ t o k, p.threads[i]? = some t ∧ t.rest = .call o k ∧
      p.step h i = ⟨(h o p.state).2,
        p.threads.set i ⟨⟨o, (h o p.state).1⟩ :: t.hist, k (h o p.state).1⟩⟩ := by
  unfold step
  cases ht : p.threads[i]? with
  | none => exact Or.inl rfl
  | some t =>
    cases hr : t.rest with
    | ret a => exact Or.inl (by simp only [hr])
    | call o k => exact Or.inr ⟨t, o, k, rfl, hr, by simp only [hr]⟩

/-- `G` holds before every step of the schedule. -/
def Along (h : Handler Op Resp σ) (G : Pool σ Op Resp α → Nat → Prop) :
    Pool σ Op Resp α → List Nat → Prop
  | _, [] => True
  | p, i :: is => G p i ∧ Along h G (p.step h i) is

instance Along.decidable {h : Handler Op Resp σ} {G : Pool σ Op Resp α → Nat → Prop}
    [∀ p i, Decidable (G p i)] : ∀ p sched, Decidable (Along h G p sched)
  | _, [] => .isTrue trivial
  | p, i :: is =>
    have := Along.decidable (h := h) (G := G) (p.step h i) is
    inferInstanceAs (Decidable (_ ∧ _))

theorem Along.append {h : Handler Op Resp σ} {G : Pool σ Op Resp α → Nat → Prop}
    {p : Pool σ Op Resp α} {is js : List Nat} (hG : Along h G p (is ++ js)) :
    Along h G p is ∧ Along h G (p.exec h is) js := by
  induction is generalizing p with
  | nil => exact ⟨trivial, hG⟩
  | cons i is ih =>
    have := ih hG.2
    exact ⟨⟨hG.1, this.1⟩, this.2⟩

theorem Along.of_forall {h : Handler Op Resp σ} {G : Pool σ Op Resp α → Nat → Prop}
    {sched : List Nat} (hG : ∀ p, ∀ i ∈ sched, G p i) (p : Pool σ Op Resp α) :
    Along h G p sched := by
  induction sched generalizing p with
  | nil => exact trivial
  | cons i is ih =>
    exact ⟨hG p i List.mem_cons_self, ih (fun p j hj => hG p j (List.mem_cons_of_mem i hj)) _⟩

/-- Nothing is in flight when every thread has returned. -/
theorem quiet_of_all {p : Pool σ Op Resp α}
    (h : (p.threads.all fun t => t.result?.isSome) = true) : p.Quiet :=
  fun t ht _ => List.all_eq_true.mp h t ht

/-- An invariant of the guarded steps holds after every guarded schedule. -/
theorem exec_keeps {h : Handler Op Resp σ} {G : Pool σ Op Resp α → Nat → Prop}
    {I : Pool σ Op Resp α → Prop} (hI : ∀ p i, I p → G p i → I (p.step h i))
    (sched : List Nat) (p : Pool σ Op Resp α) (hp : I p) (hG : Along h G p sched) :
    I (p.exec h sched) := by
  induction sched generalizing p with
  | nil => exact hp
  | cons i is ih => exact ih _ (hI p i hp hG.1) hG.2

end Pool

/-! ## Proof outlines -/

/-- A phase annotation for programs over the handler `h`. -/
structure Outline (h : Handler Op Resp σ) (α : Type) where
  Phase : Type
  next : Phase → (o : Op) → Resp o → Phase
  sends : Phase → Op → Prop
  knows : Phase → σ → Prop
  ends : Phase → α → Prop

namespace Outline

variable {h : Handler Op Resp σ}

/-- The program keeps to the outline from phase `ph` on. -/
def Follows (O : Outline h α) (ends : O.Phase → β → Prop) : O.Phase → Prog Op Resp β → Prop
  | ph, .ret a => ends ph a
  | ph, .call o k => O.sends ph o ∧
      ∀ s, O.knows ph s → O.Follows ends (O.next ph o (h o s).1) (k (h o s).1)

/-- Sequencing: the first program ends where the second one follows. -/
theorem follows_bind {O : Outline h α} {γ : Type} {mid : O.Phase → β → Prop}
    {ends : O.Phase → γ → Prop} {p : Prog Op Resp β} {f : β → Prog Op Resp γ}
    (hf : ∀ ph b, mid ph b → O.Follows ends ph (f b)) :
    ∀ {ph : O.Phase}, O.Follows mid ph p → O.Follows ends ph (p >>= f) := by
  induction p with
  | ret a => intro ph hp; exact hf ph a hp
  | call o k ih =>
    intro ph hp
    exact ⟨hp.1, fun s hs => ih _ (hp.2 s hs)⟩

theorem Follows.mono {O : Outline h α} {ends ends' : O.Phase → β → Prop}
    (he : ∀ ph b, ends ph b → ends' ph b) {p : Prog Op Resp β} :
    ∀ {ph : O.Phase}, O.Follows ends ph p → O.Follows ends' ph p := by
  induction p with
  | ret a => intro ph hp; exact he ph a hp
  | call o k ih =>
    intro ph hp
    exact ⟨hp.1, fun s hs => ih _ (hp.2 s hs)⟩

/-- The phase a history leads to. -/
def phaseAfter (O : Outline h α) (ph₀ : O.Phase) (hist : List (Event Op Resp)) : O.Phase :=
  hist.foldr (fun e ph => O.next ph e.1 e.2) ph₀

/-- The phases of a pool's threads that started in `phs₀`. -/
def phases (O : Outline h α) (phs₀ : List O.Phase) (p : Pool σ Op Resp α) : List O.Phase :=
  List.zipWith (fun ph t => O.phaseAfter ph t.hist) phs₀ p.threads

/-- Every thread of the pool keeps to the outline from its phase on. -/
def Covers (O : Outline h α) (phs₀ : List O.Phase) (p : Pool σ Op Resp α) : Prop :=
  phs₀.length = p.threads.length ∧
    ∀ (i : Nat) (ph : O.Phase) (t : Thread Op Resp α), (O.phases phs₀ p)[i]? = some ph →
      p.threads[i]? = some t → O.Follows O.ends ph t.rest

theorem phases_getElem? (O : Outline h α) {phs₀ : List O.Phase} {p : Pool σ Op Resp α} {i : Nat}
    {ph₀ : O.Phase} {t : Thread Op Resp α} (hph : phs₀[i]? = some ph₀)
    (ht : p.threads[i]? = some t) :
    (O.phases phs₀ p)[i]? = some (O.phaseAfter ph₀ t.hist) := by
  unfold phases
  rw [List.getElem?_zipWith, hph, ht]

/-- In a pool of fresh threads the phases are the starting ones. -/
theorem phases_start (O : Outline h α) {phs₀ : List O.Phase} {ps : List (Prog Op Resp α)} {s : σ}
    (hlen : phs₀.length = ps.length) : O.phases phs₀ (Pool.start s ps) = phs₀ := by
  apply List.ext_getElem?
  intro i
  unfold phases Pool.start
  rw [List.getElem?_zipWith]
  cases hph : phs₀[i]? with
  | none => rfl
  | some ph =>
    have hi : i < (ps.map Thread.start).length := by
      rw [List.length_map, ← hlen]; exact (List.getElem?_eq_some_iff.mp hph).1
    rw [List.getElem?_eq_getElem hi, List.getElem_map]
    rfl

/-- A pool of fresh threads is covered when each program follows from its starting phase. -/
theorem covers_start (O : Outline h α) {phs₀ : List O.Phase} {ps : List (Prog Op Resp α)} {s : σ}
    (hlen : phs₀.length = ps.length)
    (hps : ∀ (i : Nat) (ph : O.Phase) (q : Prog Op Resp α), phs₀[i]? = some ph →
      ps[i]? = some q → O.Follows O.ends ph q) :
    O.Covers phs₀ (Pool.start s ps) := by
  refine ⟨by simp [Pool.start, hlen], ?_⟩
  rw [phases_start O hlen]
  intro i ph t hph ht
  simp only [Pool.start, List.getElem?_map, Option.map_eq_some_iff] at ht
  obtain ⟨q, hq, rfl⟩ := ht
  exact hps i ph q hph hq

/-- One operation of thread `i` moves its phase along `next` and no other. -/
theorem phases_step (O : Outline h α) {phs₀ : List O.Phase} {p : Pool σ Op Resp α} {i : Nat}
    {ph : O.Phase} {t : Thread Op Resp α} {o : Op} {r : Resp o} {q : Prog Op Resp α} {s : σ}
    (hph : (O.phases phs₀ p)[i]? = some ph) (ht : p.threads[i]? = some t) :
    O.phases phs₀ ⟨s, p.threads.set i ⟨⟨o, r⟩ :: t.hist, q⟩⟩ =
      (O.phases phs₀ p).set i (O.next ph o r) := by
  have hi : i < p.threads.length := (List.getElem?_eq_some_iff.mp ht).1
  have hi' : i < (O.phases phs₀ p).length := (List.getElem?_eq_some_iff.mp hph).1
  apply List.ext_getElem?
  intro j
  unfold phases at hph hi' ⊢
  rw [List.getElem?_zipWith]
  by_cases hij : i = j
  · subst hij
    rw [List.getElem?_set_self hi, List.getElem?_set_self hi']
    rw [List.getElem?_zipWith, ht] at hph
    cases hp : phs₀[i]? with
    | none => rw [hp] at hph; cases hph
    | some ph₀ =>
      rw [hp] at hph
      obtain rfl := Option.some.inj hph
      rfl
  · rw [List.getElem?_set_ne hij, List.getElem?_set_ne hij, List.getElem?_zipWith]

theorem Covers.step {O : Outline h α} {phs₀ : List O.Phase} {p : Pool σ Op Resp α} {i : Nat}
    {ph : O.Phase} {t : Thread Op Resp α} {o : Op} {k : Resp o → Prog Op Resp α}
    (hc : O.Covers phs₀ p) (hph : (O.phases phs₀ p)[i]? = some ph)
    (ht : p.threads[i]? = some t) (hr : t.rest = .call o k) (hk : O.knows ph p.state) :
    O.Covers phs₀
      ⟨(h o p.state).2, p.threads.set i ⟨⟨o, (h o p.state).1⟩ :: t.hist, k (h o p.state).1⟩⟩ := by
  have hfol := hc.2 i ph t hph ht
  rw [hr] at hfol
  refine ⟨by simp [hc.1], ?_⟩
  rw [O.phases_step hph ht]
  intro j ph' t' hph' ht'
  by_cases hij : i = j
  · subst hij
    have hi : i < (O.phases phs₀ p).length := (List.getElem?_eq_some_iff.mp hph).1
    have hi' : i < p.threads.length := (List.getElem?_eq_some_iff.mp ht).1
    rw [List.getElem?_set_self hi] at hph'
    rw [List.getElem?_set_self hi'] at ht'
    obtain rfl := Option.some.inj hph'
    obtain rfl := Option.some.inj ht'
    exact hfol.2 _ hk
  · rw [List.getElem?_set_ne hij] at hph' ht'
    exact hc.2 j ph' t' hph' ht'

/-- Every thread of a covered pool has a phase. -/
theorem Covers.phase {O : Outline h α} {phs₀ : List O.Phase} {p : Pool σ Op Resp α}
    (hc : O.Covers phs₀ p) {i : Nat} {t : Thread Op Resp α} (ht : p.threads[i]? = some t) :
    ∃ ph₀, phs₀[i]? = some ph₀ ∧ (O.phases phs₀ p)[i]? = some (O.phaseAfter ph₀ t.hist) := by
  have hi : i < phs₀.length := by
    rw [hc.1]; exact (List.getElem?_eq_some_iff.mp ht).1
  have hph : phs₀[i]? = some phs₀[i] := List.getElem?_eq_getElem hi
  exact ⟨_, hph, O.phases_getElem? hph ht⟩

/-- Every phase of a covered pool is some thread's. -/
theorem Covers.thread {O : Outline h α} {phs₀ : List O.Phase} {p : Pool σ Op Resp α} {i : Nat}
    {ph : O.Phase} (hph : (O.phases phs₀ p)[i]? = some ph) :
    ∃ ph₀ t, phs₀[i]? = some ph₀ ∧ p.threads[i]? = some t ∧ ph = O.phaseAfter ph₀ t.hist := by
  unfold phases at hph
  rw [List.getElem?_zipWith] at hph
  cases h₀ : phs₀[i]? with
  | none => rw [h₀] at hph; cases hph
  | some ph₀ =>
    cases ht : p.threads[i]? with
    | none => rw [h₀, ht] at hph; cases hph
    | some t =>
      rw [h₀, ht] at hph
      exact ⟨ph₀, t, rfl, rfl, (Option.some.inj hph).symm⟩

/-- **The pool rule.** `I` relates the shared state to the threads' phases. It gives every
    thread what the thread relies on, and each operation a thread may perform, taken where
    the guard `G` allows, keeps it. Then it holds after every guarded schedule. `L` is a
    further fact about one thread, its phase and its history. -/
theorem exec_inv_hist (O : Outline h α) (phs₀ : List O.Phase) (I : σ → List O.Phase → Prop)
    (L : O.Phase → List (Event Op Resp) → Prop) (G : Pool σ Op Resp α → Nat → Prop)
    (hknows : ∀ (s : σ) (phs : List O.Phase) (i : Nat) (ph : O.Phase), I s phs →
      phs[i]? = some ph → O.knows ph s)
    (hstep : ∀ (p : Pool σ Op Resp α) (i : Nat) (ph : O.Phase) (t : Thread Op Resp α) (o : Op),
      I p.state (O.phases phs₀ p) → (O.phases phs₀ p)[i]? = some ph →
      p.threads[i]? = some t → t.next? = some o → O.sends ph o → G p i →
      I (h o p.state).2 ((O.phases phs₀ p).set i (O.next ph o (h o p.state).1)))
    (hhist : ∀ ph o r hist, O.sends ph o → L ph hist → L (O.next ph o r) (⟨o, r⟩ :: hist))
    (sched : List Nat) (p : Pool σ Op Resp α) (hc : O.Covers phs₀ p)
    (hI : I p.state (O.phases phs₀ p))
    (hL : ∀ (i : Nat) ph t, (O.phases phs₀ p)[i]? = some ph → p.threads[i]? = some t →
      L ph t.hist)
    (hG : Pool.Along h G p sched) :
    O.Covers phs₀ (p.exec h sched) ∧
      I (p.exec h sched).state (O.phases phs₀ (p.exec h sched)) ∧
      ∀ (i : Nat) ph t, (O.phases phs₀ (p.exec h sched))[i]? = some ph →
        (p.exec h sched).threads[i]? = some t → L ph t.hist := by
  refine Pool.exec_keeps (I := fun p => O.Covers phs₀ p ∧ I p.state (O.phases phs₀ p) ∧
    ∀ (i : Nat) ph t, (O.phases phs₀ p)[i]? = some ph → p.threads[i]? = some t → L ph t.hist)
    ?_ sched p ⟨hc, hI, hL⟩ hG
  rintro p i ⟨hc, hI, hL⟩ hg
  rcases Pool.step_cases h p i with hs | ⟨t, o, k, ht, hr, hs⟩
  · rw [hs]; exact ⟨hc, hI, hL⟩
  · obtain ⟨ph₀, -, hph⟩ := hc.phase ht
    have hk := hknows _ _ _ _ hI hph
    have hsend : O.sends (O.phaseAfter ph₀ t.hist) o := by
      have := hc.2 i _ t hph ht
      rw [hr] at this
      exact this.1
    rw [hs]
    refine ⟨hc.step hph ht hr hk, ?_⟩
    rw [O.phases_step hph ht]
    refine ⟨hstep p i _ t o hI hph ht (Thread.next?_of_call hr) hsend hg, ?_⟩
    intro j ph' t' hph' ht'
    rcases getElem?_set_cases ht' with ⟨rfl, rfl⟩ | ⟨hij, ht'⟩
    · rcases getElem?_set_cases hph' with ⟨-, rfl⟩ | ⟨hjj, -⟩
      · exact hhist _ o _ _ hsend (hL j _ t hph ht)
      · exact absurd rfl hjj
    · rw [List.getElem?_set_ne (Ne.symm hij)] at hph'
      exact hL j ph' t' hph' ht'

/-- The pool rule without a fact about histories. -/
theorem exec_inv (O : Outline h α) (phs₀ : List O.Phase) (I : σ → List O.Phase → Prop)
    (G : Pool σ Op Resp α → Nat → Prop)
    (hknows : ∀ (s : σ) (phs : List O.Phase) (i : Nat) (ph : O.Phase), I s phs →
      phs[i]? = some ph → O.knows ph s)
    (hstep : ∀ (p : Pool σ Op Resp α) (i : Nat) (ph : O.Phase) (t : Thread Op Resp α) (o : Op),
      I p.state (O.phases phs₀ p) → (O.phases phs₀ p)[i]? = some ph →
      p.threads[i]? = some t → t.next? = some o → O.sends ph o → G p i →
      I (h o p.state).2 ((O.phases phs₀ p).set i (O.next ph o (h o p.state).1)))
    (sched : List Nat) (p : Pool σ Op Resp α) (hc : O.Covers phs₀ p)
    (hI : I p.state (O.phases phs₀ p)) (hG : Pool.Along h G p sched) :
    O.Covers phs₀ (p.exec h sched) ∧
      I (p.exec h sched).state (O.phases phs₀ (p.exec h sched)) := by
  obtain ⟨hc', hI', -⟩ := O.exec_inv_hist phs₀ I (fun _ _ => True) G hknows hstep
    (fun _ _ _ _ _ _ => trivial) sched p hc hI (fun _ _ _ _ _ => trivial) hG
  exact ⟨hc', hI'⟩

/-- What a covered thread has returned is a result its phase allows. -/
theorem Covers.ends {O : Outline h α} {phs₀ : List O.Phase} {p : Pool σ Op Resp α}
    (hc : O.Covers phs₀ p) {i : Nat} {ph : O.Phase} {t : Thread Op Resp α} {a : α}
    (hph : (O.phases phs₀ p)[i]? = some ph) (ht : p.threads[i]? = some t)
    (ha : t.result? = some a) : O.ends ph a := by
  have := hc.2 i ph t hph ht
  rwa [Thread.result?_eq_some.mp ha] at this

end Outline

end Program
