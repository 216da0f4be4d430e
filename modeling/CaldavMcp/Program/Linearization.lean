/-
  Interleaved runs as sequential histories.

  A `Machine` says what a component is for: the actions it has, where each is possible and what
  it does. Operations are far smaller than that. `Machine.Simulated` ties the two together: an
  operation is marked, by what it is and what it was answered, with the one action it amounts to,
  or with none, and then the machine's state does not change.

  `Pool.history` lists the marks of a run with the threads that made them. It is a history of the
  machine (`run_history`), and each thread's part of it is what the thread has in its own history
  (`own_history`). So a statement about one program alone, what it has marked when it returns, is
  a statement about every interleaving: `Linearizes` collects them, and `linearizes` proves it of
  any justified programs. No thread's action stands before another that was over when the
  thread began (`Linearizes.real_time`).
-/
import CaldavMcp.Program.Justified

namespace Program

variable {Op : Type} {Resp : Op → Type} {σ α S L : Type}

/-! ## Machines -/

/-- What the actions of a machine do; `none` where one is not possible. -/
structure Machine (S L : Type) where
  act : L → S → Option S

/-- The state after some actions, if each was possible in its turn. -/
def Machine.run (M : Machine S L) : List L → S → Option S
  | [], s => some s
  | l :: ls, s => (M.act l s).bind (M.run ls)

theorem Machine.run_append (M : Machine S L) (ls ls' : List L) (s : S) :
    M.run (ls ++ ls') s = (M.run ls s).bind (M.run ls') := by
  induction ls generalizing s with
  | nil => rfl
  | cons l ls ih =>
    show (M.act l s).bind (M.run (ls ++ ls')) = ((M.act l s).bind (M.run ls)).bind (M.run ls')
    rw [Option.bind_assoc]
    exact Option.bind_congr fun s' _ => ih s'

/-- What each of some actions keeps, they keep together. -/
theorem Machine.run_keeps (M : Machine S L) {P : L → Prop} {I : S → Prop}
    (hI : ∀ l s s', P l → I s → M.act l s = some s' → I s') {ls : List L} (hls : ∀ l ∈ ls, P l)
    {s s' : S} (hs : I s) (hrun : M.run ls s = some s') : I s' := by
  induction ls generalizing s with
  | nil => exact Option.some.inj hrun ▸ hs
  | cons l ls ih =>
    obtain ⟨s₁, hact, hrest⟩ := Option.bind_eq_some_iff.mp hrun
    exact ih (fun l' hl' => hls l' (List.mem_cons_of_mem _ hl'))
      (hI l s s₁ (hls l List.mem_cons_self) hs hact) hrest

/-- Each operation does to the view of the state what its mark says. -/
structure Machine.Simulated (M : Machine S L) (h : Handler Op Resp σ) (view : σ → S)
    (mark : (o : Op) → Resp o → Option L) : Prop where
  marked : ∀ o s l, mark o (h o s).1 = some l → M.act l (view s) = some (view (h o s).2)
  silent : ∀ o s, mark o (h o s).1 = none → view (h o s).2 = view s

/-! ## Marks -/

section

variable (mark : (o : Op) → Resp o → Option L)

/-- The marks of a history, in the order in which they were made. -/
def marksOf : List (Event Op Resp) → List L
  | [] => []
  | e :: hist => marksOf hist ++ (mark e.1 e.2).toList

@[simp] theorem marksOf_nil : marksOf mark ([] : List (Event Op Resp)) = [] := rfl

@[simp] theorem marksOf_cons (e : Event Op Resp) (hist : List (Event Op Resp)) :
    marksOf mark (e :: hist) = marksOf mark hist ++ (mark e.1 e.2).toList := rfl

/-- Whatever the operation is answered, its mark is one of these. -/
def Marks (may : L → Prop) (o : Op) : Prop := ∀ r l, mark o r = some l → may l

end

/-- The part of one thread. -/
def own (i : Nat) (order : List (Nat × L)) : List L :=
  order.filterMap fun e => if e.1 = i then some e.2 else none

theorem own_append (i : Nat) (order order' : List (Nat × L)) :
    own i (order ++ order') = own i order ++ own i order' := List.filterMap_append

theorem own_self (i : Nat) (ls : List L) : own i (ls.map fun l => (i, l)) = ls := by
  unfold own
  rw [List.filterMap_map]
  simp only [Function.comp_def, if_true, List.filterMap_some]

theorem own_other {i j : Nat} (h : i ≠ j) (ls : List L) :
    own j (ls.map fun l => (i, l)) = [] := by
  unfold own
  rw [List.filterMap_eq_nil_iff]
  intro e he
  obtain ⟨l, -, rfl⟩ := List.mem_map.mp he
  exact if_neg h

theorem mem_own {i : Nat} {l : L} {order : List (Nat × L)} : l ∈ own i order ↔ (i, l) ∈ order := by
  unfold own
  rw [List.mem_filterMap]
  constructor
  · rintro ⟨⟨j, l'⟩, he, h⟩
    split at h
    · rename_i hij
      obtain rfl := Option.some.inj h
      obtain rfl : j = i := hij
      exact he
    · cases h
  · exact fun he => ⟨(i, l), he, if_pos rfl⟩

/-- One action of a thread, in the order of all. -/
theorem own_split {i : Nat} {order : List (Nat × L)} {l : L} {ls ls' : List L}
    (h : own i order = ls ++ l :: ls') :
    ∃ before after, order = before ++ (i, l) :: after ∧ own i before = ls ∧ own i after = ls' := by
  obtain ⟨o₁, o₂, rfl, h₁, h₂⟩ := List.filterMap_eq_append_iff.mp h
  obtain ⟨o₃, ⟨j, l'⟩, o₄, rfl, h₃, h₄, h₅⟩ := List.filterMap_eq_cons_iff.mp h₂
  obtain ⟨rfl, rfl⟩ : j = i ∧ l' = l := by
    split at h₄
    · rename_i hij
      exact ⟨hij, Option.some.inj h₄⟩
    · cases h₄
  refine ⟨o₁ ++ o₃, o₄, (List.append_assoc _ _ _).symm, ?_, h₅⟩
  have hnone : own j o₃ = [] := List.filterMap_eq_nil_iff.mpr h₃
  rw [own_append, hnone, List.append_nil]
  exact h₁

namespace Pool

variable {h : Handler Op Resp σ} {mark : (o : Op) → Resp o → Option L}

/-- The mark of a thread's next operation. -/
def markAt (h : Handler Op Resp σ) (mark : (o : Op) → Resp o → Option L) (p : Pool σ Op Resp α)
    (i : Nat) : Option L :=
  p.threads[i]?.bind fun t => t.next?.bind fun o => mark o (h o p.state).1

/-- The marks of a run, each with its thread. -/
def history (h : Handler Op Resp σ) (mark : (o : Op) → Resp o → Option L) :
    Pool σ Op Resp α → List Nat → List (Nat × L)
  | _, [] => []
  | p, i :: is => (p.markAt h mark i).toList.map (fun l => (i, l)) ++ history h mark (p.step h i) is

theorem history_append (p : Pool σ Op Resp α) (is js : List Nat) :
    p.history h mark (is ++ js) = p.history h mark is ++ (p.exec h is).history h mark js := by
  induction is generalizing p with
  | nil => rfl
  | cons i is ih =>
    show _ ++ (p.step h i).history h mark (is ++ js) = _ ++ (p.step h i).history h mark is ++ _
    rw [ih, List.append_assoc, exec_cons]

theorem mem_history {p : Pool σ Op Resp α} {sched : List Nat} {e : Nat × L}
    (he : e ∈ p.history h mark sched) : e.1 ∈ sched := by
  induction sched generalizing p with
  | nil => exact absurd he List.not_mem_nil
  | cons i is ih =>
    obtain he | he := List.mem_append.mp he
    · obtain ⟨l, -, rfl⟩ := List.mem_map.mp he
      exact List.mem_cons_self
    · exact List.mem_cons_of_mem _ (ih he)

/-- The mark of a step, and what it leaves of the pool. -/
theorem markAt_cases (h : Handler Op Resp σ) (mark : (o : Op) → Resp o → Option L)
    (p : Pool σ Op Resp α) (i : Nat) :
    (p.step h i = p ∧ p.markAt h mark i = none) ∨ ∃ t o k, p.threads[i]? = some t ∧
      t.rest = .call o k ∧ p.markAt h mark i = mark o (h o p.state).1 ∧
      p.step h i = ⟨(h o p.state).2,
        p.threads.set i ⟨⟨o, (h o p.state).1⟩ :: t.hist, k (h o p.state).1⟩⟩ := by
  unfold markAt step
  cases ht : p.threads[i]? with
  | none => exact Or.inl ⟨rfl, rfl⟩
  | some t =>
    cases hr : t.rest with
    | ret a =>
      refine Or.inl ⟨by simp only [hr], ?_⟩
      show t.next?.bind _ = none
      unfold Thread.next?
      rw [hr]
      rfl
    | call o k =>
      refine Or.inr ⟨t, o, k, rfl, hr, ?_, by simp only [hr]⟩
      show t.next?.bind _ = _
      rw [Thread.next?_of_call hr]
      rfl

/-- What holds of the mark of every step holds of the history. -/
theorem history_within {may : Nat → L → Prop} {p : Pool σ Op Resp α}
    (hmay : ∀ (sched : List Nat) (i : Nat) (l : L),
      (p.exec h sched).markAt h mark i = some l → may i l)
    {sched : List Nat} {i : Nat} {l : L} (he : (i, l) ∈ p.history h mark sched) : may i l := by
  induction sched generalizing p with
  | nil => exact absurd he List.not_mem_nil
  | cons j js ih =>
    obtain he | he := List.mem_append.mp he
    · obtain ⟨l', hl', heq⟩ := List.mem_map.mp he
      cases heq
      exact hmay [] i l (Option.mem_toList.mp hl')
    · exact ih (fun sched => hmay (j :: sched)) he

/-- **The marks of a run are a history of the machine**, and it ends where the run does. -/
theorem run_history {M : Machine S L} {view : σ → S} (hsim : M.Simulated h view mark)
    (p : Pool σ Op Resp α) (sched : List Nat) :
    M.run ((p.history h mark sched).map Prod.snd) (view p.state) =
      some (view (p.exec h sched).state) := by
  induction sched generalizing p with
  | nil => rfl
  | cons i is ih =>
    have hone : M.run (p.markAt h mark i).toList (view p.state) =
        some (view (p.step h i).state) := by
      obtain ⟨hstep, hmark⟩ | ⟨t, o, k, -, -, hmark, hstep⟩ := markAt_cases h mark p i
      · rw [hmark, hstep]
        rfl
      · rw [hmark, hstep]
        cases hl : mark o (h o p.state).1 with
        | none => exact congrArg some (hsim.silent o p.state hl).symm
        | some l =>
          show (M.act l (view p.state)).bind some = _
          rw [hsim.marked o p.state l hl]
          rfl
    have hsnd : ((p.markAt h mark i).toList.map fun l => (i, l)).map Prod.snd =
        (p.markAt h mark i).toList := by
      rw [List.map_map]
      exact List.map_id _
    show M.run ((_ ++ _ : List (Nat × L)).map Prod.snd) _ = _
    rw [List.map_append, hsnd, Machine.run_append, hone]
    exact ih (p.step h i)

/-- What one step adds to the marks of each thread. -/
theorem own_step {p : Pool σ Op Resp α} {i j : Nat} {t' : Thread Op Resp α}
    (ht' : (p.step h i).threads[j]? = some t') :
    ∃ t, p.threads[j]? = some t ∧ marksOf mark t'.hist =
      marksOf mark t.hist ++ own j ((p.markAt h mark i).toList.map fun l => (i, l)) := by
  obtain ⟨hstep, hmark⟩ | ⟨t, o, k, ht, -, hmark, hstep⟩ := markAt_cases h mark p i
  · rw [hstep] at ht'
    refine ⟨t', ht', ?_⟩
    rw [hmark]
    exact (List.append_nil _).symm
  · rw [hstep] at ht'
    obtain ⟨rfl, rfl⟩ | ⟨hij, ht'⟩ := getElem?_set_cases ht'
    · refine ⟨t, ht, ?_⟩
      rw [own_self, hmark]
      rfl
    · refine ⟨t', ht', ?_⟩
      rw [own_other (Ne.symm hij), List.append_nil]

/-- **Each thread's part of the history is what the thread has done.** -/
theorem own_history {p : Pool σ Op Resp α} {j : Nat} {t' : Thread Op Resp α} {sched : List Nat}
    (ht' : (p.exec h sched).threads[j]? = some t') :
    ∃ t, p.threads[j]? = some t ∧
      marksOf mark t'.hist = marksOf mark t.hist ++ own j (p.history h mark sched) := by
  induction sched generalizing p with
  | nil => exact ⟨t', ht', (List.append_nil _).symm⟩
  | cons i is ih =>
    obtain ⟨t₁, ht₁, hrest⟩ := ih ht'
    obtain ⟨t, ht, hfirst⟩ : ∃ t, p.threads[j]? = some t ∧ marksOf mark t₁.hist =
        marksOf mark t.hist ++ own j ((p.markAt h mark i).toList.map fun l => (i, l)) := own_step ht₁
    refine ⟨t, ht, ?_⟩
    show _ = _ ++ own j (_ ++ _)
    rw [hrest, hfirst, own_append, List.append_assoc]

/-- A thread that has returned does nothing more. -/
theorem exec_returned {p : Pool σ Op Resp α} {i : Nat} {t : Thread Op Resp α} {a : α}
    (ht : p.threads[i]? = some t) (ha : t.result? = some a) (sched : List Nat) :
    (p.exec h sched).threads[i]? = some t := by
  refine exec_keeps (G := fun _ _ => True) (I := fun q => q.threads[i]? = some t) ?_ sched p ht
    (Along.of_forall (fun _ _ _ => trivial) _)
  intro q j hq _
  obtain hs | ⟨t', o, k, ht', hr, hs⟩ := step_cases h q j
  · rw [hs]
    exact hq
  · rw [hs]
    have hij : j ≠ i := by
      rintro rfl
      rw [hq] at ht'
      obtain rfl := Option.some.inj ht'
      rw [Thread.result?_of_call hr] at ha
      cases ha
    exact (List.getElem?_set_ne hij).trans hq

end Pool

/-! ## Linearization -/

/-- The runs of a pool, seen as histories of a machine. `order` gives the actions that have been
    taken along a schedule, each with its thread. `may` says which actions a thread may take, and
    `spec` which it has taken when it returns a result. -/
structure Linearizes (M : Machine S L) (h : Handler Op Resp σ) (view : σ → S)
    (may : Nat → L → Prop) (spec : Nat → α → List L → Prop) (p : Pool σ Op Resp α)
    (order : List Nat → List (Nat × L)) : Prop where
  legal : ∀ sched : List Nat,
    M.run ((order sched).map Prod.snd) (view p.state) = some (view (p.exec h sched).state)
  starts : order [] = []
  grows : ∀ sched later : List Nat, ∃ rest, order (sched ++ later) = order sched ++ rest ∧
    ∀ e ∈ rest, e.1 ∈ later
  within : ∀ (sched : List Nat) (i : Nat) (l : L), (i, l) ∈ order sched → may i l
  answers : ∀ (sched : List Nat) (i : Nat) (t : Thread Op Resp α) (a : α),
    (p.exec h sched).threads[i]? = some t → t.result? = some a → spec i a (own i (order sched))
  finished : ∀ (sched later : List Nat) (i : Nat) (t : Thread Op Resp α) (a : α),
    (p.exec h sched).threads[i]? = some t → t.result? = some a →
    own i (order (sched ++ later)) = own i (order sched)

/-- **Programs that keep to a specification alone linearize.** -/
theorem linearizes {M : Machine S L} {h : Handler Op Resp σ} {view : σ → S}
    {mark : (o : Op) → Resp o → Option L} (hsim : M.Simulated h view mark)
    {A : (o : Op) → Resp o → Prop} (hA : ∀ o s, A o (h o s).1)
    {ps : List (Prog Op Resp α)} {may : Nat → L → Prop} {spec : Nat → α → List L → Prop}
    (hps : ∀ (i : Nat) (p : Prog Op Resp α), ps[i]? = some p →
      p.Justified A (fun _ o => Marks mark (may i) o)
        (fun hist a => spec i a (marksOf mark hist)) []) (s : σ) :
    Linearizes M h view may spec (Pool.start s ps)
      (Pool.history h mark (Pool.start s ps)) := by
  have hown : ∀ (sched : List Nat) (i : Nat) (t : Thread Op Resp α),
      ((Pool.start s ps).exec h sched).threads[i]? = some t →
      own i ((Pool.start s ps).history h mark sched) = marksOf mark t.hist ∧
        ∃ p, ps[i]? = some p := by
    intro sched i t ht
    obtain ⟨t₀, ht₀, heq⟩ : ∃ t₀, (Pool.start s ps).threads[i]? = some t₀ ∧ marksOf mark t.hist =
        marksOf mark t₀.hist ++ own i ((Pool.start s ps).history h mark sched) :=
      Pool.own_history ht
    unfold Pool.start at ht₀
    rw [List.getElem?_map, Option.map_eq_some_iff] at ht₀
    obtain ⟨p, hp, rfl⟩ := ht₀
    exact ⟨heq.symm, p, hp⟩
  refine ⟨Pool.run_history hsim _, rfl, ?_, ?_, ?_, ?_⟩
  · intro sched later
    exact ⟨_, Pool.history_append _ sched later, fun e he => Pool.mem_history he⟩
  · refine fun sched i l he => Pool.history_within (fun sched i l hl => ?_) he
    obtain ⟨-, hmark⟩ | ⟨t, o, k, ht, hr, hmark, -⟩ :=
      Pool.markAt_cases h mark ((Pool.start s ps).exec h sched) i
    · rw [hmark] at hl
      cases hl
    · rw [hmark] at hl
      obtain ⟨-, p, hp⟩ := hown sched i t ht
      exact Pool.next_justified hA hp (hps i p hp) sched ht (Thread.next?_of_call hr) _ l hl
  · intro sched i t a ht ha
    obtain ⟨heq, p, hp⟩ := hown sched i t ht
    rw [heq]
    exact Pool.result_justified hA hp (hps i p hp) sched ht ha
  · intro sched later i t a ht ha
    have hlater : ((Pool.start s ps).exec h (sched ++ later)).threads[i]? = some t := by
      rw [Pool.exec_append]
      exact Pool.exec_returned ht ha later
    rw [(hown _ i t hlater).1, (hown sched i t ht).1]

section

variable {M : Machine S L} {h : Handler Op Resp σ} {view : σ → S} {may : Nat → L → Prop}
  {spec : Nat → α → List L → Prop} {p : Pool σ Op Resp α} {order : List Nat → List (Nat × L)}
  {sched : List Nat} {i : Nat}

/-- A thread that has not begun has taken no action. -/
theorem Linearizes.own_unstarted (hlin : Linearizes M h view may spec p order) (hi : i ∉ sched) :
    own i (order sched) = [] := by
  obtain ⟨rest, hrest, hmem⟩ := hlin.grows [] sched
  rw [List.nil_append, hlin.starts, List.nil_append] at hrest
  rw [List.eq_nil_iff_forall_not_mem, hrest]
  exact fun l hl => hi (hmem _ (mem_own.mp hl))

/-- What is taken along a schedule leads from its first state to its last. -/
theorem Linearizes.run_rest (hlin : Linearizes M h view may spec p order) {later : List Nat}
    {rest : List (Nat × L)} (hrest : order (sched ++ later) = order sched ++ rest) :
    M.run (rest.map Prod.snd) (view (p.exec h sched).state) =
      some (view (p.exec h (sched ++ later)).state) := by
  have hall := hlin.legal (sched ++ later)
  rw [hrest, List.map_append, Machine.run_append, hlin.legal sched] at hall
  exact hall

/-- **Real time.** When a thread is over, and another has not begun, whatever the other does comes
    after it. -/
theorem Linearizes.real_time (hlin : Linearizes M h view may spec p order) {j : Nat}
    {t : Thread Op Resp α} {a : α} (ht : (p.exec h sched).threads[i]? = some t)
    (ha : t.result? = some a) (hj : j ∉ sched) (later : List Nat) :
    ∃ rest, order (sched ++ later) = order sched ++ rest ∧ (∀ e ∈ rest, e.1 ∈ later) ∧
      own i rest = [] ∧ own j rest = own j (order (sched ++ later)) := by
  obtain ⟨rest, hrest, hmem⟩ := hlin.grows sched later
  refine ⟨rest, hrest, hmem, ?_, ?_⟩
  · have hfin := hlin.finished sched later i t a ht ha
    rw [hrest, own_append] at hfin
    exact List.append_right_eq_self.mp hfin
  · rw [hrest, own_append, hlin.own_unstarted hj, List.nil_append]

end

end Program
