import TensorEmit.Operator
import TensorEmit.Proofs.Outcome

/-!
# Steps with a state

A step of emission and a job on the disk are steps of one kind: they read and change a state and can
fail. `outcome` is how such a step ends, and the lemmas of this module take it apart.
-/

namespace TensorEmit

variable {σ α β : Type}

/-- The state that a step leaves, with its result or its fault. -/
def outcome (x : ExceptT Fault (StateM σ) α) (s : σ) : σ × Except Fault α :=
  let (r, s') := x.run.run s
  (s', r)

theorem outcome_bind (x : ExceptT Fault (StateM σ) α) (f : α → ExceptT Fault (StateM σ) β)
    (s : σ) :
    outcome (x >>= f) s =
      match outcome x s with
      | (s₁, .ok a) => outcome (f a) s₁
      | (s₁, .error fault) => (s₁, .error fault) := by
  simp only [outcome, ExceptT.run_bind, StateT.run_bind]
  cases x.run.run s with
  | mk r s₁ =>
    cases r with
    | ok a => rfl
    | error fault => rfl

theorem outcome_bind_eq_ok_iff {x : ExceptT Fault (StateM σ) α}
    {f : α → ExceptT Fault (StateM σ) β} {s s' : σ} {b : β} :
    outcome (x >>= f) s = (s', .ok b) ↔
      ∃ a s₁, outcome x s = (s₁, .ok a) ∧ outcome (f a) s₁ = (s', .ok b) := by
  rw [outcome_bind]
  cases outcome x s with
  | mk s₁ r =>
    cases r with
    | error fault => simp
    | ok a => simp

/-- Two steps fail if the first one fails, or the second one after it. -/
theorem outcome_bind_eq_error_iff {x : ExceptT Fault (StateM σ) α}
    {f : α → ExceptT Fault (StateM σ) β} {s s' : σ} {fault : Fault} :
    outcome (x >>= f) s = (s', .error fault) ↔
      outcome x s = (s', .error fault) ∨
        ∃ a s₁, outcome x s = (s₁, .ok a) ∧ outcome (f a) s₁ = (s', .error fault) := by
  rw [outcome_bind]
  cases outcome x s with
  | mk s₁ r =>
    cases r with
    | error fault => simp
    | ok a => simp

/-- A step that only computes leaves the state. -/
theorem outcome_lift (r : Except Fault α) (e : Emission) : outcome (Emit.lift r) e = (e, r) := by
  cases r with
  | ok a => rfl
  | error f => rfl

/-- A step on the disk ends as its job does. -/
theorem outcome_onSite (job : Job α) (e : Emission) :
    outcome (Emit.onSite job) e =
      ({ e with site := (outcome job e.site).1 }, (outcome job e.site).2) := by
  unfold Emit.onSite
  rw [outcome_bind]
  show outcome (set { e with site := (outcome job e.site).1 } >>= fun _ =>
    Emit.lift (outcome job e.site).2) e = _
  rw [outcome_bind]
  exact outcome_lift _ _

end TensorEmit
