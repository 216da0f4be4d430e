/-
  Programs of atomic operations, and the ways to run them.

  A `Prog Op Resp α` is a finite tree: it has returned (`ret`), or it performs one
  operation `o : Op` and continues with the answer of type `Resp o` (`call`). Nothing is
  said about what an operation does. A `Handler` says that for a state type `σ`, and
  `Prog.run` runs a whole program against it, with nothing in between.

  The same tree is run in two more ways: `faulty` (below) lets chosen operations fail, and
  `Program.Pool` interleaves several trees operation by operation. A function written once
  as a `Prog` therefore has one text and three semantics.

  `Prog.Only` bounds what a program may do, and `run_only` turns that into a frame rule.
  `Prog.Uniform` compares the runs of one program from two states: the rule for two-run
  (noninterference) statements.
-/
import Mathlib

namespace Program

/-- A program over the operations `Op`, answered with `Resp`, that returns an `α`. -/
inductive Prog (Op : Type) (Resp : Op → Type) (α : Type) : Type
  | ret (a : α)
  | call (o : Op) (k : Resp o → Prog Op Resp α)

namespace Prog

variable {Op : Type} {Resp : Op → Type} {α β γ : Type}

/-- Run `p`, then continue with its result. -/
def bind : Prog Op Resp α → (α → Prog Op Resp β) → Prog Op Resp β
  | ret a, f => f a
  | call o k, f => call o fun r => (k r).bind f

instance : Monad (Prog Op Resp) where
  pure := ret
  bind := bind

/-- One operation, returning its answer. -/
def perform (o : Op) : Prog Op Resp (Resp o) := call o ret

@[simp] theorem pure_eq_ret (a : α) : (pure a : Prog Op Resp α) = ret a := rfl

@[simp] theorem ret_bind (a : α) (f : α → Prog Op Resp β) : (ret a >>= f) = f a := rfl

@[simp] theorem call_bind (o : Op) (k : Resp o → Prog Op Resp α) (f : α → Prog Op Resp β) :
    (call o k >>= f) = call o fun r => k r >>= f := rfl

@[simp] theorem perform_bind (o : Op) (f : Resp o → Prog Op Resp β) :
    (perform o >>= f) = call o f := rfl

theorem bind_ret (p : Prog Op Resp α) : (p >>= ret) = p := by
  induction p with
  | ret a => rfl
  | call o k ih => exact congrArg (call o) (funext ih)

theorem bind_assoc (p : Prog Op Resp α) (f : α → Prog Op Resp β) (g : β → Prog Op Resp γ) :
    (p >>= f >>= g) = p >>= fun a => f a >>= g := by
  induction p with
  | ret a => rfl
  | call o k ih => exact congrArg (call o) (funext ih)

instance : LawfulMonad (Prog Op Resp) :=
  LawfulMonad.mk' _ bind_ret (fun _ _ => rfl) bind_assoc

end Prog

/-! ## Handlers and whole runs -/

/-- What each operation answers and does to a state. -/
abbrev Handler (Op : Type) (Resp : Op → Type) (σ : Type) := (o : Op) → σ → Resp o × σ

variable {Op : Type} {Resp : Op → Type} {σ α β : Type}

/-- Run a program to its end, alone. -/
def Prog.run (h : Handler Op Resp σ) : Prog Op Resp α → σ → α × σ
  | .ret a, s => (a, s)
  | .call o k, s => (k (h o s).1).run h (h o s).2

@[simp] theorem run_ret (h : Handler Op Resp σ) (a : α) (s : σ) :
    (Prog.ret a : Prog Op Resp α).run h s = (a, s) := rfl

@[simp] theorem run_call (h : Handler Op Resp σ) (o : Op) (k : Resp o → Prog Op Resp α) (s : σ) :
    (Prog.call o k).run h s = (k (h o s).1).run h (h o s).2 := rfl

@[simp] theorem run_perform (h : Handler Op Resp σ) (o : Op) (s : σ) :
    (Prog.perform o : Prog Op Resp (Resp o)).run h s = h o s := rfl

theorem run_bind (h : Handler Op Resp σ) (p : Prog Op Resp α) (f : α → Prog Op Resp β) (s : σ) :
    (p >>= f).run h s = (f (p.run h s).1).run h (p.run h s).2 := by
  induction p generalizing s with
  | ret a => rfl
  | call o k ih => exact ih _ _

/-! ## Programs that may end with an error -/

section Except

variable {ε : Type}

theorem run_except_bind (h : Handler Op Resp σ) (x : ExceptT ε (Prog Op Resp) α)
    (f : α → ExceptT ε (Prog Op Resp) β) (s : σ) :
    (x >>= f).run.run h s =
      match (x.run.run h s).1 with
      | .ok a => (f a).run.run h (x.run.run h s).2
      | .error e => (.error e, (x.run.run h s).2) := by
  rw [ExceptT.run_bind, run_bind]
  cases (x.run.run h s).1 <;> rfl

theorem run_except_bind_ok {h : Handler Op Resp σ} {x : ExceptT ε (Prog Op Resp) α}
    {f : α → ExceptT ε (Prog Op Resp) β} {s s' : σ} {a : α} (hx : x.run.run h s = (.ok a, s')) :
    (x >>= f).run.run h s = (f a).run.run h s' := by
  rw [run_except_bind, hx]

theorem run_except_bind_error {h : Handler Op Resp σ} {x : ExceptT ε (Prog Op Resp) α}
    {f : α → ExceptT ε (Prog Op Resp) β} {s s' : σ} {e : ε}
    (hx : x.run.run h s = (.error e, s')) :
    (x >>= f).run.run h s = (.error e, s') := by
  rw [run_except_bind, hx]

end Except

/-! ## Fault injection -/

/-- `h` with failures: the counter numbers the operations that can fail (those with a
    `fault` answer), and operation number `n` fails when `fails n`. A failed operation
    answers its `fault` and leaves the state alone. -/
def faulty (fault : (o : Op) → Option (Resp o)) (fails : Nat → Bool) (h : Handler Op Resp σ) :
    Handler Op Resp (σ × Nat) :=
  fun o s =>
    match fault o with
    | none => ((h o s.1).1, ((h o s.1).2, s.2))
    | some e =>
      if fails s.2 then (e, (s.1, s.2 + 1)) else ((h o s.1).1, ((h o s.1).2, s.2 + 1))

/-- Without failures a program runs as it does. -/
theorem run_faulty_never (fault : (o : Op) → Option (Resp o)) (h : Handler Op Resp σ)
    (p : Prog Op Resp α) (s : σ) (n : Nat) :
    (p.run (faulty fault (fun _ => false) h) (s, n)).1 = (p.run h s).1 := by
  induction p generalizing s n with
  | ret a => rfl
  | call o k ih =>
    rw [run_call, run_call]
    unfold faulty
    cases fault o with
    | none => exact ih _ _ _
    | some e => exact ih _ _ _

/-! ## Which operations a program performs -/

/-- Every operation the program may perform, whatever the answers, satisfies `P`. -/
def Prog.Only (P : Op → Prop) : Prog Op Resp α → Prop
  | .ret _ => True
  | .call o k => P o ∧ ∀ r, (k r).Only P

theorem only_bind {P : Op → Prop} {p : Prog Op Resp α} {f : α → Prog Op Resp β}
    (hp : p.Only P) (hf : ∀ a, (f a).Only P) : (p >>= f).Only P := by
  induction p with
  | ret a => exact hf a
  | call o k ih => exact ⟨hp.1, fun r => ih r (hp.2 r)⟩

theorem Prog.Only.mono {P Q : Op → Prop} (hPQ : ∀ o, P o → Q o) {p : Prog Op Resp α}
    (hp : p.Only P) : p.Only Q := by
  induction p with
  | ret a => exact trivial
  | call o k ih => exact ⟨hPQ o hp.1, fun r => ih r (hp.2 r)⟩

theorem only_except_bind {ε : Type} {P : Op → Prop} {x : ExceptT ε (Prog Op Resp) α}
    {f : α → ExceptT ε (Prog Op Resp) β} (hx : x.run.Only P) (hf : ∀ a, (f a).run.Only P) :
    (x >>= f).run.Only P := by
  rw [ExceptT.run_bind]
  refine only_bind hx fun r => ?_
  cases r with
  | ok a => exact hf a
  | error e => exact trivial

/-- What the operations of a program keep, its run keeps. -/
theorem run_only {h : Handler Op Resp σ} {P : Op → Prop} {I : σ → Prop}
    (hI : ∀ o s, P o → I s → I (h o s).2) {p : Prog Op Resp α} (hp : p.Only P) {s : σ}
    (hs : I s) : I (p.run h s).2 := by
  induction p generalizing s with
  | ret a => exact hs
  | call o k ih => exact ih _ (hp.2 _) (hI o s hp.1 hs)

/-! ## Two runs -/

/-- From related states the program gives one answer, and ends in related states. -/
def Prog.Uniform (h : Handler Op Resp σ) (R : σ → σ → Prop) (p : Prog Op Resp α) : Prop :=
  ∀ s s', R s s' → (p.run h s).1 = (p.run h s').1 ∧ R (p.run h s).2 (p.run h s').2

section Uniform

variable {h : Handler Op Resp σ} {R : σ → σ → Prop}

theorem uniform_ret (a : α) : (Prog.ret a : Prog Op Resp α).Uniform h R := fun _ _ hR => ⟨rfl, hR⟩

/-- What holds of each operation of a program holds of its two runs. -/
theorem uniform_of_only {P : Op → Prop}
    (hP : ∀ o s s', P o → R s s' → (h o s).1 = (h o s').1 ∧ R (h o s).2 (h o s').2)
    {p : Prog Op Resp α} (hp : p.Only P) : p.Uniform h R := by
  induction p with
  | ret a => exact uniform_ret a
  | call o k ih =>
    intro s s' hR
    obtain ⟨ha, hR'⟩ := hP o s s' hp.1 hR
    rw [run_call, run_call, ← ha]
    exact ih _ (hp.2 _) _ _ hR'

end Uniform

end Program
