/-
  Two runs of one program, side by side.

  `Prog.RunsAlike h h' R p s s'` says that `p` gives the same result when it runs over `h` from
  `s` and over `h'` from `s'`, and leaves two states in the relation `R`. The handlers may have
  states of different types. There is one rule for each construct of a program: the relation is
  carried from one operation to the next (`call`, `bind`, `except_bind`), and whoever uses it
  proves of each operation that it answers alike and keeps the states related.
-/
import CaldavMcp.Program.Basic

namespace Program

variable {Op : Type} {Resp : Op → Type} {σ τ α β : Type} {h : Handler Op Resp σ}
  {h' : Handler Op Resp τ} {R : σ → τ → Prop} {s : σ} {s' : τ}

/-- The two runs give the same result and leave related states. -/
structure Prog.RunsAlike (h : Handler Op Resp σ) (h' : Handler Op Resp τ) (R : σ → τ → Prop)
    (p : Prog Op Resp α) (s : σ) (s' : τ) : Prop where
  answer : (p.run h s).1 = (p.run h' s').1
  after : R (p.run h s).2 (p.run h' s').2

namespace Prog.RunsAlike

theorem ret (hR : R s s') (a : α) : RunsAlike h h' R (.ret a) s s' := ⟨rfl, hR⟩

theorem call {o : Op} {k : Resp o → Prog Op Resp α} (ha : (h o s).1 = (h' o s').1)
    (hk : (k (h o s).1).RunsAlike h h' R (h o s).2 (h' o s').2) :
    (Prog.call o k).RunsAlike h h' R s s' := by
  have hanswer := hk.answer
  have hafter := hk.after
  constructor
  · rw [run_call, run_call, ← ha]
    exact hanswer
  · rw [run_call, run_call, ← ha]
    exact hafter

theorem bind {R' : σ → τ → Prop} {p : Prog Op Resp α} {f : α → Prog Op Resp β}
    (hp : p.RunsAlike h h' R' s s')
    (hf : (f (p.run h s).1).RunsAlike h h' R (p.run h s).2 (p.run h' s').2) :
    (p >>= f).RunsAlike h h' R s s' := by
  have hanswer := hf.answer
  have hafter := hf.after
  constructor
  · rw [run_bind, run_bind, ← hp.answer]
    exact hanswer
  · rw [run_bind, run_bind, ← hp.answer]
    exact hafter

/-- What is made of a result. -/
theorem map {p : Prog Op Resp α} (hp : p.RunsAlike h h' R s s') (f : α → β) :
    (p >>= fun a => .ret (f a)).RunsAlike h h' R s s' :=
  hp.bind (ret hp.after _)

/-- Programs that may end with an error: the second one runs where the first one has not. -/
theorem except_bind {ε : Type} {x : ExceptT ε (Prog Op Resp) α}
    {f : α → ExceptT ε (Prog Op Resp) β} (hx : x.run.RunsAlike h h' R s s')
    (hf : ∀ a, (x.run.run h s).1 = .ok a →
      (f a).run.RunsAlike h h' R (x.run.run h s).2 (x.run.run h' s').2) :
    (x >>= f).run.RunsAlike h h' R s s' := by
  rw [ExceptT.run_bind]
  refine hx.bind ?_
  cases hr : (x.run.run h s).1 with
  | ok a => exact hf a hr
  | error e => exact ret hx.after _

end Prog.RunsAlike

end Program
