/-!
# Entries in order

Named values in the order in which the names were first set. Setting a name again changes its value
and keeps its place.
-/

namespace TensorEmit

/-- Values under keys, in the order of their first setting. -/
abbrev Entries (κ : Type) (α : Type) := List (κ × α)

namespace Entries

variable {κ α : Type} [DecidableEq κ]

/-- The value under a key. -/
def get? (es : Entries κ α) (k : κ) : Option α :=
  match es with
  | [] => none
  | (k', v) :: rest => if k' = k then some v else get? rest k

/-- Sets the value under a key. -/
def set (es : Entries κ α) (k : κ) (v : α) : Entries κ α :=
  match es with
  | [] => [(k, v)]
  | (k', v') :: rest => if k' = k then (k, v) :: rest else (k', v') :: set rest k v

/-- Sets several values, one after the other. -/
def setAll (es more : Entries κ α) : Entries κ α :=
  more.foldl (fun acc e => acc.set e.1 e.2) es

/-- Removes a key. -/
def remove (es : Entries κ α) (k : κ) : Entries κ α := es.filter fun e => e.1 ≠ k

/-- The keys in order. -/
def keys (es : Entries κ α) : List κ := es.map Prod.fst

/-- Whether there is a value under a key. -/
def has (es : Entries κ α) (k : κ) : Bool := (es.get? k).isSome

theorem get?_set_self (es : Entries κ α) (k : κ) (v : α) : (es.set k v).get? k = some v := by
  induction es with
  | nil => simp [set, get?]
  | cons e rest ih =>
    obtain ⟨k', v'⟩ := e
    by_cases h : k' = k <;> simp [set, get?, h, ih]

theorem get?_set_of_ne (es : Entries κ α) {k l : κ} (v : α) (h : l ≠ k) :
    (es.set k v).get? l = es.get? l := by
  induction es with
  | nil => simp [set, get?, Ne.symm h]
  | cons e rest ih =>
    obtain ⟨k', v'⟩ := e
    by_cases hk : k' = k
    · subst hk
      simp [set, get?, Ne.symm h]
    · simp only [set, hk, ↓reduceIte, get?, ih]

end Entries

end TensorEmit
