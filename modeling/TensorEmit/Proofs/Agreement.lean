import TensorEmit.Proofs.Outcome

/-!
# Steps that agree

Two steps agree if both fail, or if both succeed with related results. Nothing is said about their
faults: two graphs with the same flaws can show another one of them first. The rules of this module
lift agreement from the parts of a step to the step, and from the rounds of a loop to the loop.
-/

namespace TensorEmit

variable {α α' β β' : Type}

/-- Two steps both fail, or they have related results. -/
inductive Agrees (R : α → α' → Prop) : Except Fault α → Except Fault α' → Prop
  | ok {a : α} {a' : α'} (related : R a a') : Agrees R (.ok a) (.ok a')
  | error (f f' : Fault) : Agrees R (.error f) (.error f')

namespace Agrees

variable {R : α → α' → Prop} {S : β → β' → Prop}

/-- A step agrees with itself. -/
theorem self (x : Except Fault α) : Agrees Eq x x := by
  cases x with
  | ok a => exact .ok rfl
  | error f => exact .error f f

theorem imp {R' : α → α' → Prop} {x : Except Fault α} {y : Except Fault α'} (agree : Agrees R x y)
    (weaker : ∀ a a', R a a' → R' a a') : Agrees R' x y := by
  cases agree with
  | ok related => exact .ok (weaker _ _ related)
  | error f f' => exact .error f f'

theorem bind {x : Except Fault α} {y : Except Fault α'} {f : α → Except Fault β}
    {g : α' → Except Fault β'} (first : Agrees R x y)
    (rest : ∀ a a', R a a' → Agrees S (f a) (g a')) : Agrees S (x >>= f) (y >>= g) := by
  cases first with
  | ok related => exact rest _ _ related
  | error f f' => exact .error f f'

/-- Steps agree if one succeeds whenever the other does, always with related results. -/
theorem of_ok {x : Except Fault α} {y : Except Fault α'}
    (left : ∀ a, x = .ok a → ∃ a', y = .ok a' ∧ R a a')
    (right : ∀ a', y = .ok a' → ∃ a, x = .ok a) : Agrees R x y := by
  cases x with
  | ok a =>
    obtain ⟨a', rfl, related⟩ := left a rfl
    exact .ok related
  | error f =>
    cases y with
    | ok a' =>
      obtain ⟨a, made⟩ := right a' rfl
      cases made
    | error f' => exact .error f f'

/-! ## Loops -/

theorem mapM {f : α → Except Fault β} {g : α' → Except Fault β'} {xs : List α} {ys : List α'}
    (members : List.Forall₂ R xs ys) (each : ∀ x y, R x y → Agrees S (f x) (g y)) :
    Agrees (List.Forall₂ S) (xs.mapM f) (ys.mapM g) := by
  induction members with
  | nil => exact .ok .nil
  | cons head _ ih =>
    rw [List.mapM_cons, List.mapM_cons]
    refine (each _ _ head).bind fun b b' first => ?_
    refine ih.bind fun bs bs' later => ?_
    exact .ok (.cons first later)

theorem mapM_self {f : α → Except Fault β} {g : α → Except Fault β'} {xs : List α}
    (each : ∀ x ∈ xs, Agrees S (f x) (g x)) :
    Agrees (List.Forall₂ S) (xs.mapM f) (xs.mapM g) := by
  have members : List.Forall₂ (fun x y => x = y ∧ x ∈ xs) xs xs :=
    List.forall₂_same.mpr fun _ member => ⟨rfl, member⟩
  refine mapM members fun x y both => ?_
  obtain ⟨rfl, member⟩ := both
  exact each x member

theorem foldlM_self {f : β → α → Except Fault β} {g : β' → α → Except Fault β'} {xs : List α}
    {b : β} {b' : β'} (start : S b b')
    (round : ∀ acc acc' x, x ∈ xs → S acc acc' → Agrees S (f acc x) (g acc' x)) :
    Agrees S (xs.foldlM f b) (xs.foldlM g b') := by
  induction xs generalizing b b' with
  | nil => exact .ok start
  | cons x xs ih =>
    rw [List.foldlM_cons, List.foldlM_cons]
    refine (round b b' x (by simp) start).bind fun acc acc' kept => ?_
    exact ih kept fun acc acc' y member => round acc acc' y (by simp [member])

end Agrees

/-- Loops with equal rounds are equal. -/
theorem foldlM_congr {f g : β → α → Except Fault β} {xs : List α}
    (rounds : ∀ acc x, x ∈ xs → f acc x = g acc x) (b : β) : xs.foldlM f b = xs.foldlM g b := by
  induction xs generalizing b with
  | nil => rfl
  | cons x xs ih =>
    rw [List.foldlM_cons, List.foldlM_cons, rounds b x (by simp)]
    refine congrArg (g b x >>= ·) (funext fun acc => ?_)
    exact ih (fun acc y member => rounds acc y (by simp [member])) acc

end TensorEmit
