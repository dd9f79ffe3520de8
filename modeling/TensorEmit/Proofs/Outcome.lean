import Mathlib.Data.List.Forall2
import TensorEmit.Fault

/-!
# Outcomes of steps that can fail

A step that can fail is a value of `Except Fault`. The lemmas of this module take a successful
step apart: what its first part gave, and what the rest made of it. Loops are runs of `mapM` and
`foldlM`; the first relates members one by one, the second keeps an invariant.
-/

namespace TensorEmit

variable {α β γ : Type}

/-! ## Single steps -/

/-- A step with a continuation succeeds if both do. -/
@[simp] theorem bind_eq_ok_iff {x : Except Fault α} {f : α → Except Fault β} {b : β} :
    (x >>= f) = .ok b ↔ ∃ a, x = .ok a ∧ f a = .ok b := by
  cases x with
  | error e =>
    constructor
    · intro h
      cases h
    · rintro ⟨a, h, _⟩
      cases h
  | ok a =>
    constructor
    · intro h
      exact ⟨a, rfl, h⟩
    · rintro ⟨a', h, rest⟩
      cases h
      exact rest

/-- What a step gave goes into the rest. -/
theorem ok_bind (a : α) (f : α → Except Fault β) : (Except.ok a >>= f) = f a := rfl

@[simp] theorem pure_eq_ok_iff {a b : α} : (pure a : Except Fault α) = .ok b ↔ a = b := by
  constructor
  · intro h
    exact Except.ok.inj h
  · rintro rfl
    rfl

@[simp] theorem throw_ne_ok {f : Fault} {b : α} : (throw f : Except Fault α) ≠ .ok b := by
  intro h
  cases h

@[simp] theorem functor_map_eq_ok_iff {x : Except Fault α} {f : α → β} {b : β} :
    (f <$> x) = .ok b ↔ ∃ a, x = .ok a ∧ f a = b := by
  cases x with
  | error e =>
    constructor
    · intro h
      cases h
    · rintro ⟨a, h, _⟩
      cases h
  | ok a =>
    constructor
    · intro h
      exact ⟨a, rfl, Except.ok.inj h⟩
    · rintro ⟨a', h, rfl⟩
      cases h
      rfl

@[simp] theorem map_eq_ok_iff {x : Except Fault α} {f : α → β} {b : β} :
    x.map f = .ok b ↔ ∃ a, x = .ok a ∧ f a = b :=
  functor_map_eq_ok_iff

/-- Whether a step gave a result can be decided without comparing faults. -/
instance decidableEqOk [DecidableEq α] (x : Except Fault α) (a : α) : Decidable (x = .ok a) :=
  match x with
  | .ok b => decidable_of_iff (b = a) ⟨congrArg _, Except.ok.inj⟩
  | .error _ => isFalse nofun

/-! ## Related lists and options -/

/-- Every member on the right of related lists has a partner on the left. -/
theorem exists_left_of_forall₂ {R : α → β → Prop} {xs : List α} {ys : List β}
    (related : List.Forall₂ R xs ys) {y : β} (member : y ∈ ys) : ∃ x ∈ xs, R x y := by
  induction related with
  | nil => cases member
  | cons head tail ih =>
    rcases List.mem_cons.mp member with rfl | later
    · exact ⟨_, by simp, head⟩
    · obtain ⟨x, inside, step⟩ := ih later
      exact ⟨x, by simp [inside], step⟩

/-- Every member on the left of related lists has a partner on the right. -/
theorem exists_right_of_forall₂ {R : α → β → Prop} {xs : List α} {ys : List β}
    (related : List.Forall₂ R xs ys) {x : α} (member : x ∈ xs) : ∃ y ∈ ys, R x y :=
  exists_left_of_forall₂ related.flip member

/-- Lists with the same views are related by them. -/
theorem forall₂_of_views {u : α → γ} {v : β → γ} {xs : List α} {ys : List β}
    (same : ys.map v = xs.map u) : List.Forall₂ (fun x y => v y = u x) xs ys := by
  have views : List.Forall₂ (fun a b => b = a) (xs.map u) (ys.map v) := by
    rw [same, List.forall₂_same]
    exact fun _ _ => rfl
  rwa [List.forall₂_map_left_iff, List.forall₂_map_right_iff] at views

theorem views_of_forall₂ {u : α → γ} {v : β → γ} {xs : List α} {ys : List β}
    (related : List.Forall₂ (fun x y => v y = u x) xs ys) : ys.map v = xs.map u := by
  induction related with
  | nil => rfl
  | cons head _ ih => rw [List.map_cons, List.map_cons, head, ih]

theorem forall₂_trans {R : α → β → Prop} {S : β → γ → Prop} {T : α → γ → Prop}
    (compose : ∀ x y z, R x y → S y z → T x z) {xs : List α} {ys : List β} {zs : List γ}
    (first : List.Forall₂ R xs ys) (second : List.Forall₂ S ys zs) : List.Forall₂ T xs zs := by
  induction first generalizing zs with
  | nil =>
    cases second
    exact .nil
  | cons head _ ih =>
    cases second with
    | cons head' tail' => exact .cons (compose _ _ _ head head') (ih tail')

/-- Related lists are related with their places. -/
theorem forall₂_zipIdx {R : α → β → Prop} {xs : List α} {ys : List β}
    (related : List.Forall₂ R xs ys) {n : Nat} :
    List.Forall₂ (fun x y : _ × Nat => R x.1 y.1) (xs.zipIdx n) (ys.zipIdx n) := by
  induction related generalizing n with
  | nil => exact .nil
  | cons head _ ih =>
    rw [List.zipIdx_cons, List.zipIdx_cons]
    exact .cons head ih

/-- If one relation turns another into a property of the left side, so it does for lists. -/
theorem forall₂_iff_forall {R S : α → β → Prop} {P : α → Prop} {xs : List α} {ys : List β}
    (related : List.Forall₂ R xs ys) (same : ∀ x y, R x y → (S x y ↔ P x)) :
    List.Forall₂ S xs ys ↔ ∀ x ∈ xs, P x := by
  induction related with
  | nil => simp only [List.forall₂_nil_left_iff, List.not_mem_nil, false_implies, implies_true]
  | cons first _ ih => rw [List.forall₂_cons, List.forall_mem_cons, same _ _ first, ih]

/-- Related options are both empty, or both hold something. -/
theorem cases_of_rel {R : α → β → Prop} {x : Option α} {y : Option β} (related : Option.Rel R x y) :
    (x = none ∧ y = none) ∨ ∃ a b, x = some a ∧ y = some b ∧ R a b := by
  cases related with
  | none => exact .inl ⟨rfl, rfl⟩
  | some both => exact .inr ⟨_, _, rfl, rfl, both⟩

/-! ## Loops -/

/-- What one round keeps, a loop keeps. -/
theorem foldlM_ok_invariant {f : β → α → Except Fault β} (P : β → Prop) {xs : List α} {b b' : β}
    (start : P b) (round : ∀ acc acc' x, x ∈ xs → P acc → f acc x = .ok acc' → P acc')
    (run : xs.foldlM f b = .ok b') : P b' := by
  induction xs generalizing b with
  | nil =>
    rw [List.foldlM_nil, pure_eq_ok_iff] at run
    exact run ▸ start
  | cons x xs ih =>
    rw [List.foldlM_cons, bind_eq_ok_iff] at run
    obtain ⟨acc, first, rest⟩ := run
    refine ih (round b acc x (by simp) start first) ?_ rest
    intro acc acc' y member
    exact round acc acc' y (by simp [member])

/-- A loop over a list that succeeds goes through its members one by one. -/
theorem mapM_eq_ok_iff {f : α → Except Fault β} {xs : List α} {ys : List β} :
    xs.mapM f = .ok ys ↔ List.Forall₂ (fun x y => f x = .ok y) xs ys := by
  induction xs generalizing ys with
  | nil =>
    rw [List.mapM_nil, pure_eq_ok_iff, List.forall₂_nil_left_iff]
    exact eq_comm
  | cons x xs ih =>
    rw [List.mapM_cons, bind_eq_ok_iff, List.forall₂_cons_left_iff]
    constructor
    · rintro ⟨y, first, rest⟩
      rw [bind_eq_ok_iff] at rest
      obtain ⟨zs, later, made⟩ := rest
      rw [pure_eq_ok_iff] at made
      exact ⟨y, zs, first, ih.mp later, made.symm⟩
    · rintro ⟨y, zs, first, later, rfl⟩
      refine ⟨y, first, ?_⟩
      rw [bind_eq_ok_iff]
      exact ⟨zs, ih.mpr later, rfl⟩

/-- A loop all of whose rounds succeed, with related results, does so as a whole. -/
theorem exists_mapM_related {f : α → Except Fault β} {R : α → β → Prop} {xs : List α}
    (each : ∀ x ∈ xs, ∃ y, f x = .ok y ∧ R x y) :
    ∃ ys, xs.mapM f = .ok ys ∧ List.Forall₂ R xs ys := by
  simp only [mapM_eq_ok_iff]
  induction xs with
  | nil => exact ⟨[], .nil, .nil⟩
  | cons x xs ih =>
    obtain ⟨y, first, related⟩ := each x (by simp)
    obtain ⟨ys, later, relatedLater⟩ := ih fun x' member => each x' (by simp [member])
    exact ⟨y :: ys, .cons first later, .cons related relatedLater⟩

/-- Every result of a loop comes from one of its rounds. -/
theorem exists_of_mem_mapM {f : α → Except Fault β} {xs : List α} {ys : List β}
    (run : xs.mapM f = .ok ys) {y : β} (member : y ∈ ys) : ∃ x ∈ xs, f x = .ok y :=
  exists_left_of_forall₂ (mapM_eq_ok_iff.mp run) member

/-- Every round of a loop gives one of its results. -/
theorem exists_result_of_mem {f : α → Except Fault β} {xs : List α} {ys : List β}
    (run : xs.mapM f = .ok ys) {x : α} (member : x ∈ xs) : ∃ y ∈ ys, f x = .ok y :=
  exists_right_of_forall₂ (mapM_eq_ok_iff.mp run) member

/-- A loop succeeds if all its rounds do. -/
theorem exists_mapM_iff {f : α → Except Fault β} {xs : List α} :
    (∃ ys, xs.mapM f = .ok ys) ↔ ∀ x ∈ xs, ∃ y, f x = .ok y := by
  constructor
  · rintro ⟨ys, run⟩ x member
    obtain ⟨y, _, made⟩ := exists_result_of_mem run member
    exact ⟨y, made⟩
  · intro each
    obtain ⟨ys, run, _⟩ := exists_mapM_related (R := fun _ _ => True) fun x member => by
      obtain ⟨y, made⟩ := each x member
      exact ⟨y, made, trivial⟩
    exact ⟨ys, run⟩

/-- A loop fails with the fault of one of its rounds. -/
theorem exists_fault_of_mapM {f : α → Except Fault β} {xs : List α} {fault : Fault}
    (run : xs.mapM f = .error fault) : ∃ x ∈ xs, f x = .error fault := by
  induction xs with
  | nil => cases run
  | cons x xs ih =>
    rw [List.mapM_cons] at run
    cases first : f x with
    | error _ =>
      rw [first] at run
      cases run
      exact ⟨x, List.mem_cons_self, first⟩
    | ok y =>
      rw [first, ok_bind] at run
      cases later : xs.mapM f with
      | error _ =>
        rw [later] at run
        cases run
        obtain ⟨x', member, failed⟩ := ih later
        exact ⟨x', List.mem_cons_of_mem _ member, failed⟩
      | ok ys =>
        rw [later] at run
        cases run

/-- If every round keeps a view of its member, the loop keeps the list of views. -/
theorem map_view_of_mapM {f : α → Except Fault β} {xs : List α} {ys : List β} {u : α → γ}
    {v : β → γ} (run : xs.mapM f = .ok ys) (keeps : ∀ x y, f x = .ok y → v y = u x) :
    ys.map v = xs.map u :=
  views_of_forall₂ ((mapM_eq_ok_iff.mp run).imp keeps)

end TensorEmit
