import Mathlib.Data.List.Nodup
import Mathlib.Logic.Relation
import TensorEmit.Graph.Order
import TensorEmit.Proofs.Outcome

/-!
# What the order of evaluation lists

`Graph.Ordered` says what an order of evaluation is: names of operations without repetition, each
behind the producers of its inputs. `Graph.Reachable` says which operations the outputs need.
Sorting a graph gives an order that lists exactly the needed operations
(`Graph.ordered_of_sorted`, `Graph.mem_sorted_iff`). Both notions only look at the names of
inputs, so they carry over between graphs that agree on these (`Graph.Ordered.transport`).
-/

namespace TensorEmit

namespace Graph

/-! ## Needs -/

/-- An operation reads a tensor of another one. -/
def Needs (g : Graph) (name need : String) : Prop :=
  ∃ op, g.find? name = some op ∧ ∃ t ∈ op.inputs, TensorName.producer t.name = .ok need

/-- The outputs need an operation, directly or through others. -/
def Reachable (g : Graph) (name : String) : Prop :=
  ∃ out ∈ g.outputs, Relation.ReflTransGen g.Needs out name

theorem Reachable.output {g : Graph} {name : String} (output : name ∈ g.outputs) :
    g.Reachable name :=
  ⟨name, output, .refl⟩

theorem Reachable.step {g : Graph} {name need : String} (reached : g.Reachable name)
    (needs : g.Needs name need) : g.Reachable need := by
  obtain ⟨out, output, path⟩ := reached
  exact ⟨out, output, path.tail needs⟩

/-- What holds of the outputs and passes from an operation to its needs holds of all that is
reachable. -/
theorem Reachable.induct {g : Graph} {P : String → Prop} {name : String}
    (reached : g.Reachable name) (outputs : ∀ out ∈ g.outputs, P out)
    (step : ∀ a b, P a → g.Needs a b → P b) : P name := by
  obtain ⟨out, output, path⟩ := reached
  induction path with
  | refl => exact outputs out output
  | tail _ needs ih => exact step _ _ ih needs

theorem find?_name {g : Graph} {name : String} {op : Operation} (found : g.find? name = some op) :
    op.name = name := by
  have holds := List.find?_some found
  simpa using holds

theorem mem_of_find? {g : Graph} {name : String} {op : Operation}
    (found : g.find? name = some op) : op ∈ g.ops :=
  List.mem_of_find?_eq_some found

/-- An operation is found under its name if no other operation has it. -/
theorem find?_of_mem {g : Graph} {op : Operation} (distinct : (g.ops.map Operation.name).Nodup)
    (member : op ∈ g.ops) : g.find? op.name = some op := by
  cases found : g.find? op.name with
  | none =>
    rw [find?, List.find?_eq_none] at found
    exact absurd (decide_eq_true rfl) (found op member)
  | some op' =>
    rw [List.inj_on_of_nodup_map distinct (mem_of_find? found) member (find?_name found)]

@[simp] theorem find_eq_ok_iff {g : Graph} {name : String} {op : Operation} :
    g.find name = .ok op ↔ g.find? name = some op := by
  unfold find
  cases found : g.find? name with
  | none => simp
  | some op' => simp

/-! ## Orders -/

/-- A list of operations without repetition in which each stands behind its producers. -/
inductive Ordered (g : Graph) : List String → Prop
  | nil : Ordered g []
  | snoc {names : List String} {name : String} {op : Operation} :
      Ordered g names → name ∉ names → g.find? name = some op →
      (∀ t ∈ op.inputs, ∃ p ∈ names, TensorName.producer t.name = .ok p) →
      Ordered g (names ++ [name])

theorem Ordered.nodup {g : Graph} {names : List String} (ordered : g.Ordered names) :
    names.Nodup := by
  induction ordered with
  | nil => exact List.nodup_nil
  | snoc _ fresh _ _ ih =>
    rw [← List.concat_eq_append]
    exact List.Nodup.concat fresh ih

/-- The producers of a listed operation are listed before it. -/
theorem Ordered.split {g : Graph} {names before after : List String} {name : String}
    (ordered : g.Ordered names) (parts : names = before ++ name :: after) :
    g.Ordered before ∧ name ∉ before ∧ ∃ op, g.find? name = some op ∧
      ∀ t ∈ op.inputs, ∃ p ∈ before, TensorName.producer t.name = .ok p := by
  induction ordered generalizing after with
  | nil => simp at parts
  | @snoc names last op ordered fresh found inputs ih =>
    -- Either the name is the last one, or it lies in the list that was there before.
    rcases List.eq_nil_or_concat after with rfl | ⟨after', last', rfl⟩
    · obtain ⟨rfl, tail⟩ := List.append_inj' parts rfl
      cases tail
      exact ⟨ordered, fresh, op, found, inputs⟩
    · rw [List.concat_eq_append, ← List.cons_append, ← List.append_assoc] at parts
      obtain ⟨front, _⟩ := List.append_inj' parts rfl
      exact ih front

theorem Ordered.found {g : Graph} {names : List String} (ordered : g.Ordered names)
    {name : String} (listed : name ∈ names) : ∃ op, g.find? name = some op := by
  obtain ⟨before, after, parts⟩ := List.append_of_mem listed
  obtain ⟨_, _, op, found, _⟩ := ordered.split parts
  exact ⟨op, found⟩

theorem Ordered.producer {g : Graph} {names : List String} (ordered : g.Ordered names)
    {name : String} (listed : name ∈ names) {op : Operation} (found : g.find? name = some op)
    {t : Tensor} (read : t ∈ op.inputs) : ∃ p, TensorName.producer t.name = .ok p := by
  obtain ⟨before, after, parts⟩ := List.append_of_mem listed
  obtain ⟨_, _, op', found', inputs⟩ := ordered.split parts
  rw [found] at found'
  cases found'
  obtain ⟨p, _, made⟩ := inputs t read
  exact ⟨p, made⟩

/-- The operations in the order of evaluation. -/
def orderedOps (g : Graph) : List Operation := g.order.filterMap g.find?

theorem mem_orderedOps {g : Graph} {op : Operation} :
    op ∈ g.orderedOps ↔ op.name ∈ g.order ∧ g.find? op.name = some op := by
  unfold orderedOps
  rw [List.mem_filterMap]
  constructor
  · rintro ⟨name, listed, found⟩
    cases find?_name found
    exact ⟨listed, found⟩
  · rintro ⟨listed, found⟩
    exact ⟨op.name, listed, found⟩

theorem Ordered.names_filterMap {g : Graph} {names : List String} (ordered : g.Ordered names) :
    (names.filterMap g.find?).map Operation.name = names := by
  induction ordered with
  | nil => rfl
  | snoc _ _ found _ ih =>
    rw [List.filterMap_append, List.map_append, ih, List.filterMap_cons_some found,
      List.filterMap_nil, List.map_singleton, find?_name found]

/-- An order is closed under needs. -/
theorem Ordered.needs {g : Graph} {names : List String} (ordered : g.Ordered names)
    {name need : String} (listed : name ∈ names) (needs : g.Needs name need) : need ∈ names := by
  obtain ⟨before, after, parts⟩ := List.append_of_mem listed
  obtain ⟨_, _, op, found, inputs⟩ := ordered.split parts
  obtain ⟨op', found', t, read, made⟩ := needs
  rw [found] at found'
  cases found'
  obtain ⟨p, earlier, made'⟩ := inputs t read
  rw [made] at made'
  cases made'
  rw [parts]
  exact List.mem_append_left _ earlier

/-- An order of one graph is one of another in which the listed operations read tensors of the same
names. -/
theorem Ordered.transport {g g' : Graph} {names : List String} (ordered : g.Ordered names)
    (agree : ∀ name ∈ names, ∀ op, g.find? name = some op →
      ∃ op', g'.find? name = some op' ∧ op'.inputs.map Tensor.name = op.inputs.map Tensor.name) :
    g'.Ordered names := by
  induction ordered with
  | nil => exact .nil
  | @snoc names name op _ fresh found inputs ih =>
    obtain ⟨op', found', same⟩ := agree name (by simp) op found
    refine .snoc (ih fun n listed => agree n (by simp [listed])) fresh found' ?_
    intro t' read
    have readName : t'.name ∈ op.inputs.map Tensor.name := same ▸ List.mem_map_of_mem read
    obtain ⟨t, read', name⟩ := List.mem_map.mp readName
    rw [← name]
    exact inputs t read'

/-! ## Sorting -/

/-- What a successful visit adds: it extends the names that were taken to an order that holds the
visited name and nothing but what that name needs, and it never takes a name of its own path. -/
structure Visited (g : Graph) (path taken : List String) (name : String) (taken' : List String) :
    Prop where
  extends_ : ∃ more, taken' = taken ++ more
  ordered : g.Ordered taken'
  listed : name ∈ taken'
  needed : ∀ n ∈ taken', n ∈ taken ∨ Relation.ReflTransGen g.Needs name n
  offPath : ∀ n ∈ path, n ∈ taken' → n ∈ taken

/-- The round for one input: a visit of its producer. -/
def visitInput (g : Graph) (fuel : Nat) (path acc : List String) (t : Tensor) :
    Except Fault (List String) := do
  let producer ← TensorName.producer t.name
  g.visit fuel path acc producer

/-- What the visits of all inputs of an operation add. -/
theorem visitInputs_ok {g : Graph} {fuel : Nat} {path : List String} {name : String}
    {op : Operation} (found : g.find? name = some op)
    (visits : ∀ acc p acc', g.Ordered acc → g.visit fuel (name :: path) acc p = .ok acc' →
      g.Visited (name :: path) acc p acc')
    {inputs : List Tensor} (part : ∀ t ∈ inputs, t ∈ op.inputs) {taken taken' : List String}
    (ordered : g.Ordered taken)
    (run : inputs.foldlM (g.visitInput fuel (name :: path)) taken = .ok taken') :
    (∃ more, taken' = taken ++ more) ∧ g.Ordered taken' ∧
      (∀ t ∈ inputs, ∃ p ∈ taken', TensorName.producer t.name = .ok p) ∧
      (∀ n ∈ taken', n ∈ taken ∨ Relation.ReflTransGen g.Needs name n) ∧
      (∀ n ∈ name :: path, n ∈ taken' → n ∈ taken) := by
  induction inputs generalizing taken with
  | nil =>
    rw [List.foldlM_nil, pure_eq_ok_iff] at run
    subst run
    exact ⟨⟨[], by simp⟩, ordered, by simp, fun _ h => .inl h, fun _ _ h => h⟩
  | cons t rest ih =>
    rw [List.foldlM_cons, bind_eq_ok_iff] at run
    obtain ⟨mid, first, later⟩ := run
    unfold visitInput at first
    rw [bind_eq_ok_iff] at first
    obtain ⟨p, made, visit⟩ := first
    have one := visits taken p mid ordered visit
    obtain ⟨⟨more, grown⟩, ordered', inputs', needed', path'⟩ :=
      ih (fun t' inside => part t' (by simp [inside])) one.ordered later
    obtain ⟨more', grown'⟩ := one.extends_
    have needs : g.Needs name p := ⟨op, found, t, part t (by simp), made⟩
    refine ⟨⟨more' ++ more, by rw [grown, grown', List.append_assoc]⟩, ordered', ?_, ?_, ?_⟩
    · intro t' inside
      rcases List.mem_cons.mp inside with rfl | inRest
      · exact ⟨p, by rw [grown]; exact List.mem_append_left _ one.listed, made⟩
      · exact inputs' t' inRest
    · intro n member
      rcases needed' n member with inMid | reached
      · rcases one.needed n inMid with before | reached
        · exact .inl before
        · exact .inr (.head needs reached)
      · exact .inr reached
    · intro n onPath member
      exact one.offPath n onPath (path' n onPath member)

/-- A visit that succeeds does what `Visited` says. -/
theorem visited_of_visit {g : Graph} {fuel : Nat} {path taken taken' : List String} {name : String}
    (ordered : g.Ordered taken) (run : g.visit fuel path taken name = .ok taken') :
    g.Visited path taken name taken' := by
  induction fuel generalizing path taken taken' name with
  | zero => cases run
  | succ fuel ih =>
    rw [visit] at run
    by_cases known : name ∈ taken
    · rw [if_pos known] at run
      cases run
      exact ⟨⟨[], by simp⟩, ordered, known, fun _ h => .inl h, fun _ _ h => h⟩
    · rw [if_neg known] at run
      by_cases onPath : name ∈ path
      · rw [if_pos onPath] at run
        cases run
      · rw [if_neg onPath] at run
        cases found : g.find? name with
        | none =>
          rw [found] at run
          cases run
        | some op =>
          rw [found] at run
          rw [bind_eq_ok_iff] at run
          obtain ⟨mid, inputs, made⟩ := run
          rw [pure_eq_ok_iff] at made
          subst made
          obtain ⟨⟨more, grown⟩, ordered', produced, needed, path'⟩ :=
            visitInputs_ok found (fun acc p acc' ordered visit => ih ordered visit)
              (fun _ inside => inside) ordered inputs
          -- The name is on the path of every visit below it, so none of them took it.
          have fresh : name ∉ mid := fun member => known (path' name (by simp) member)
          refine ⟨⟨more ++ [name], by rw [grown, List.append_assoc]⟩,
            ordered'.snoc fresh found produced, by simp, ?_, ?_⟩
          · intro n member
            rcases List.mem_append.mp member with inMid | last
            · exact needed n inMid
            · cases List.mem_singleton.mp last
              exact .inr .refl
          · intro n onPath' member
            rcases List.mem_append.mp member with inMid | last
            · exact path' n (by simp [onPath']) inMid
            · cases List.mem_singleton.mp last
              exact absurd onPath' onPath

/-- Visiting names one after the other gives an order that holds them and what they need. -/
theorem visits_ok {g : Graph} {fuel : Nat} {names taken taken' : List String}
    (ordered : g.Ordered taken) (run : names.foldlM (g.visit fuel []) taken = .ok taken') :
    g.Ordered taken' ∧ (∀ n ∈ taken, n ∈ taken') ∧ (∀ n ∈ names, n ∈ taken') ∧
      ∀ n ∈ taken', n ∈ taken ∨ ∃ out ∈ names, Relation.ReflTransGen g.Needs out n := by
  induction names generalizing taken with
  | nil =>
    rw [List.foldlM_nil, pure_eq_ok_iff] at run
    subst run
    exact ⟨ordered, fun _ h => h, by simp, fun _ h => .inl h⟩
  | cons name rest ih =>
    rw [List.foldlM_cons, bind_eq_ok_iff] at run
    obtain ⟨mid, first, later⟩ := run
    have one := visited_of_visit ordered first
    obtain ⟨ordered', kept, listed, needed⟩ := ih one.ordered later
    obtain ⟨more, grown⟩ := one.extends_
    refine ⟨ordered', ?_, ?_, ?_⟩
    · intro n member
      exact kept n (by rw [grown]; exact List.mem_append_left _ member)
    · intro n member
      rcases List.mem_cons.mp member with rfl | inRest
      · exact kept n one.listed
      · exact listed n inRest
    · intro n member
      rcases needed n member with inMid | ⟨out, inside, reached⟩
      · rcases one.needed n inMid with before | reached
        · exact .inl before
        · exact .inr ⟨name, by simp, reached⟩
      · exact .inr ⟨out, by simp [inside], reached⟩

/-- Sorting gives an order. -/
theorem ordered_of_sorted {g : Graph} {names : List String} (run : g.sorted = .ok names) :
    g.Ordered names :=
  (visits_ok .nil run).1

/-- Sorting lists exactly what the outputs need. -/
theorem mem_sorted_iff {g : Graph} {names : List String} (run : g.sorted = .ok names)
    (name : String) : name ∈ names ↔ g.Reachable name := by
  obtain ⟨ordered, _, outputs, needed⟩ := visits_ok .nil run
  constructor
  · intro listed
    rcases needed name listed with none | reached
    · cases none
    · exact reached
  · intro reached
    exact reached.induct outputs fun _ _ listed needs => ordered.needs listed needs

/-- Only the order of evaluation changes when a graph is put in order. -/
theorem sort_eq_ok_iff {g g' : Graph} :
    g.sort = .ok g' ↔ ∃ names, g.sorted = .ok names ∧ { g with order := names } = g' := by
  unfold sort
  rw [bind_eq_ok_iff]
  simp only [pure_eq_ok_iff]

end Graph

end TensorEmit
