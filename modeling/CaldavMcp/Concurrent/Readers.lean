/-
  Reading disturbs nobody.

  PROPFIND, REPORT, GET, OPTIONS, any unknown method, and the tools that show something only read.
  By the rule of `Program.Observers` their steps can be left out of a run: the database and the
  other requests are as if they had never been sent.
-/
import CaldavMcp.Server
import CaldavMcp.Program.Observers

namespace CaldavMcp

open Program

/-- The request at this place of a list is one that observes. -/
def observesAt (requests : List ServerRequest) (i : Nat) : Bool :=
  requests[i]?.any (·.observes)

theorem serverPool_observe (lib : Lib) (w : World) (requests : List ServerRequest) :
    (serverPool lib w requests).IdleObserve Op.Reads (observesAt requests) := by
  intro i t hi ht
  obtain ⟨request, hrequest, rfl⟩ := serverPool_threads lib w ht
  unfold observesAt at hi
  rw [hrequest] at hi
  exact request.only_reads lib hi

/-- **Reading disturbs nobody.** In any interleaving of any requests, leave out every step of the
    ones that observe: the database ends the same, and each of the others has done the same, has
    been answered the same and has got as far. -/
theorem observers_unseen (env : Env) (lib : Lib) (w : World) (requests : List ServerRequest)
    (sched : List Nat) :
    ((serverPool lib w requests).exec (exec env) sched).AlikeBut (observesAt requests)
      ((serverPool lib w requests).exec (exec env)
        (sched.filter fun i => !observesAt requests i)) :=
  Pool.exec_without (exec_reads env) (serverPool_observe lib w requests) (.refl _ _) sched

end CaldavMcp
