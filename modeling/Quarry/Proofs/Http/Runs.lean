/-
# Runs of requests

What handlers do when each runs by itself.

* `Handler.run_bind` and others — runs of the parts of handlers.
* `Response.ofOutcome` — the response to the outcome of a handler.
* `serve_of_target` — a request that is allowed is answered by what its path leads to.
-/
import Quarry.Http.Service
import Quarry.Proofs.Engine.Runs

namespace Quarry.Http

open Quarry.Engine
open Quarry.Engine.Program (World)

variable {σ α β : Type}

/-! ## Parts of handlers -/

namespace Handler

/-- A handler goes on unless the one before it failed. -/
theorem run_bind (s : Store σ) (h : Handler α) (f : α → Handler β) (w : World σ) :
    (h >>= f).attempt.run s w =
      match h.attempt.run s w with
      | (.ok a, w) => (f a).attempt.run s w
      | (.error e, w) => (.error e, w) := by
  have hrun : (h >>= f).attempt.run s w = (h.attempt.bind (ExceptT.bindCont f)).run s w := rfl
  rw [hrun, Program.run_bind]
  obtain ⟨x, w'⟩ := h.attempt.run s w
  cases x <;> rfl

/-- What the engine does is done, and its errors are failures. -/
theorem run_ofEngine (s : Store σ) (p : Engine α) (w : World σ) :
    (ofEngine p).attempt.run s w =
      (((Engine.attempt p).run s w).1.mapError .engine, ((Engine.attempt p).run s w).2) :=
  Program.run_bind s (Engine.attempt p) _ w

/-- A program of which every end counts as success. -/
theorem run_lift (s : Store σ) (p : Program α) (w : World σ) :
    (attempt (ExceptT.lift p)).run s w = (.ok (p.run s w).1, (p.run s w).2) :=
  Program.run_bind s p _ w

end Handler

/-! ## Responses -/

/-- The response to the outcome of a handler. -/
def Response.ofOutcome : Except Failure Response → Response
  | .ok r => r
  | .error f => .ofFailure f

/-- A handler responds with its outcome. -/
theorem Handler.run_respond (s : Store σ) (h : Handler Response) (w : World σ) :
    h.respond.run s w = (.ofOutcome (h.attempt.run s w).1, (h.attempt.run s w).2) := by
  have hrun : h.respond.run s w = (h.attempt.bind fun x => match x with
      | .ok r => .done r
      | .error f => .done (.ofFailure f)).run s w := rfl
  rw [hrun, Program.run_bind]
  obtain ⟨x, w'⟩ := h.attempt.run s w
  cases x <;> rfl

/-- Failures are what the client got wrong, or what went wrong here. -/
theorem status_of_failure (f : Failure) : 400 ≤ f.report.status := by
  have hkind : ∀ k : FailureKind, 400 ≤ k.status := by
    intro k
    cases k with
    | body => exact Nat.le_refl 400
    | engine k => cases k <;> simp [FailureKind.status]
  exact hkind f.kind

/-- A program that ends with what the one before it ended with. -/
theorem bind_done (p : Program α) : p.bind .done = p := by
  induction p with
  | done a => rfl
  | call c next ih => exact congrArg (Program.call c) (funext ih)
  | registry next ih => exact congrArg Program.registry (funext ih)
  | register name m next ih => exact congrArg (Program.register name m) (funext ih)

/-- A request that is allowed is answered by what its path leads to. -/
theorem serve_of_target {q : Request} {t : Target} (htarget : Target.ofPath? q.path = some t)
    (hmethod : t.methods.contains q.method = true) (hhead : q.method ≠ "HEAD") :
    serve q = (answer t q.method q.body).respond := by
  have hserve : serve q = (answer t q.method q.body).respond.bind fun response =>
      .done (if q.method = "HEAD" then response.withoutBody else response) := by
    rw [serve, htarget]
    exact if_pos hmethod
  rw [hserve]
  simp only [if_neg hhead]
  exact bind_done _

end Quarry.Http
