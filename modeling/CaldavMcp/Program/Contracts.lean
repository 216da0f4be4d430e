/-
  Contracts of operations, and what a program then promises.

  A `Contract` bounds what may be asked of an operation (`pre`) and what it answers (`post`).
  `Prog.Meets c Q p` says that `p` keeps to the preconditions and returns a value in `Q`, for any
  answers within the postconditions: it is computed along the tree and knows no state.
  `Handler.Keeps` says that a handler answers within the contract from states in `I`, and leads
  to such states again. `run_meets` puts the two together.

  `Prog.Only` is the case of a contract that promises nothing.
-/
import CaldavMcp.Program.Basic

namespace Program

/-- What an operation may be asked, and what it answers. -/
structure Contract (Op : Type) (Resp : Op → Type) where
  pre : Op → Prop
  post : (o : Op) → Resp o → Prop

variable {Op : Type} {Resp : Op → Type} {σ α β : Type} {c : Contract Op Resp}

/-- The program asks what it may, and what it returns is in `Q`. -/
def Prog.Meets (c : Contract Op Resp) (Q : α → Prop) : Prog Op Resp α → Prop
  | .ret a => Q a
  | .call o k => c.pre o ∧ ∀ r, c.post o r → (k r).Meets c Q

theorem meets_bind {Q : β → Prop} {p : Prog Op Resp α} {f : α → Prog Op Resp β} :
    (p >>= f).Meets c Q ↔ p.Meets c fun a => (f a).Meets c Q := by
  induction p with
  | ret a => exact Iff.rfl
  | call o k ih => exact and_congr_right fun _ => forall₂_congr fun r _ => ih r

theorem Prog.Meets.mono {Q Q' : α → Prop} {p : Prog Op Resp α} (hp : p.Meets c Q)
    (hQ : ∀ a, Q a → Q' a) : p.Meets c Q' := by
  induction p with
  | ret a => exact hQ a hp
  | call o k ih => exact ⟨hp.1, fun r hr => ih r (hp.2 r hr)⟩

/-- A program that asks what it may, without a promise. -/
theorem Prog.Only.meets {p : Prog Op Resp α} (hp : p.Only c.pre) : p.Meets c fun _ => True := by
  induction p with
  | ret a => exact trivial
  | call o k ih => exact ⟨hp.1, fun r _ => ih r (hp.2 r)⟩

/-- The rest of a program, whatever its first part returns. -/
theorem meets_after {Q : β → Prop} {p : Prog Op Resp α} {f : α → Prog Op Resp β}
    (hp : p.Only c.pre) (hf : ∀ a, (f a).Meets c Q) : (p >>= f).Meets c Q :=
  meets_bind.mpr (hp.meets.mono fun a _ => hf a)

section Except

variable {ε : Type}

/-- The rest of a program that may end with an error. -/
theorem meets_except_bind {Q : Except ε β → Prop} {M : α → Prop}
    {x : ExceptT ε (Prog Op Resp) α} {f : α → ExceptT ε (Prog Op Resp) β}
    (hx : x.run.Meets c fun r => ∀ a, r = .ok a → M a) (he : ∀ e, Q (.error e))
    (hf : ∀ a, M a → (f a).run.Meets c Q) : (x >>= f).run.Meets c Q := by
  rw [ExceptT.run_bind, meets_bind]
  apply hx.mono
  intro r hr
  cases r with
  | ok a => exact hf a (hr a rfl)
  | error e => exact he e

end Except

/-! ## Runs -/

/-- From a state in `I` the handler answers within the contract, and leads to a state in `I`. -/
def Handler.Keeps (h : Handler Op Resp σ) (c : Contract Op Resp) (I : σ → Prop) : Prop :=
  ∀ o s, c.pre o → I s → c.post o (h o s).1 ∧ I (h o s).2

/-- A run returns what the program promises, and keeps the invariant. -/
theorem run_meets {h : Handler Op Resp σ} {I : σ → Prop} (hI : Handler.Keeps h c I) {Q : α → Prop}
    {p : Prog Op Resp α} (hp : p.Meets c Q) {s : σ} (hs : I s) :
    Q (p.run h s).1 ∧ I (p.run h s).2 := by
  induction p generalizing s with
  | ret a => exact ⟨hp, hs⟩
  | call o k ih =>
    obtain ⟨hpost, hs'⟩ := hI o s hp.1 hs
    exact ih _ (hp.2 _ hpost) hs'

end Program
