import TensorEmit.Proofs.Renumbering

/-!
# When a graph can be sorted

Sorting is a search with a bound on its depth. `Graph.Explores` states the search without a bound:
a derivation is a run of it that came to an end, be it with an order or with a fault. Every graph
has such a run, and its outcome is that of sorting (`Graph.explores_iff_sorted`), so the bound is
never reached.

`Graph.Sortable` says what sorting asks of a graph: the names that the outputs need are those of
operations, the names of the inputs of these can be read, and none of them needs itself. Along a run
of the search every name on the path needs the name that is visited, so a name that is met on its
own path is one that needs itself (`Graph.Explores.exists_ok`). The other way round, the needs of a
name in an order stand before it, directly or through others (`Graph.Ordered.before_of_transGen`).
-/

namespace TensorEmit

/-- The producers that the names of the inputs give, or the faults of names that cannot be read. -/
def Operation.reads (op : Operation) : List (Except Fault String) :=
  op.inputs.map fun t => TensorName.producer t.name

namespace Graph

/-! ## The search -/

/-- Runs of the search that came to an end. `path` holds the names on the way from an output, and
`taken` the names that have their place in the order. -/
inductive Explores (g : Graph) :
    (path taken : List String) → List (Except Fault String) → Except Fault (List String) → Prop
  | done {path taken : List String} : Explores g path taken [] (.ok taken)
  | unreadable {path taken : List String} {rest : List (Except Fault String)} {f : Fault} :
      Explores g path taken (.error f :: rest) (.error f)
  | known {path taken : List String} {rest : List (Except Fault String)} {name : String}
      {result : Except Fault (List String)} :
      name ∈ taken → Explores g path taken rest result →
      Explores g path taken (.ok name :: rest) result
  | cyclic {path taken : List String} {rest : List (Except Fault String)} {name : String} :
      name ∉ taken → name ∈ path → Explores g path taken (.ok name :: rest) (.error .cyclic)
  | missing {path taken : List String} {rest : List (Except Fault String)} {name : String} :
      name ∉ taken → name ∉ path → g.find? name = none →
      Explores g path taken (.ok name :: rest) (.error (.missing name))
  | failed {path taken : List String} {rest : List (Except Fault String)} {name : String}
      {op : Operation} {f : Fault} :
      name ∉ taken → name ∉ path → g.find? name = some op →
      Explores g (name :: path) taken op.reads (.error f) →
      Explores g path taken (.ok name :: rest) (.error f)
  | entered {path taken taken' : List String} {rest : List (Except Fault String)} {name : String}
      {op : Operation} {result : Except Fault (List String)} :
      name ∉ taken → name ∉ path → g.find? name = some op →
      Explores g (name :: path) taken op.reads (.ok taken') →
      Explores g path (taken' ++ [name]) rest result →
      Explores g path taken (.ok name :: rest) result

section Explores

variable {g : Graph} {path taken : List String} {reads : List (Except Fault String)}
  {result result' : Except Fault (List String)}

/-- The search has one outcome. -/
theorem Explores.unique (first : g.Explores path taken reads result)
    (second : g.Explores path taken reads result') : result = result' := by
  induction first generalizing result' with
  | done =>
    cases second
    rfl
  | unreadable =>
    cases second
    rfl
  | known member _ ih =>
    cases second with
    | known _ later => exact ih later
    | cyclic fresh _ => exact absurd member fresh
    | missing fresh _ _ => exact absurd member fresh
    | failed fresh _ _ _ => exact absurd member fresh
    | entered fresh _ _ _ _ => exact absurd member fresh
  | cyclic fresh onPath =>
    cases second with
    | known member _ => exact absurd member fresh
    | cyclic _ _ => rfl
    | missing _ offPath _ => exact absurd onPath offPath
    | failed _ offPath _ _ => exact absurd onPath offPath
    | entered _ offPath _ _ _ => exact absurd onPath offPath
  | missing fresh offPath none =>
    cases second with
    | known member _ => exact absurd member fresh
    | cyclic _ onPath => exact absurd onPath offPath
    | missing _ _ _ => rfl
    | failed _ _ found _ => cases none.symm.trans found
    | entered _ _ found _ _ => cases none.symm.trans found
  | failed fresh offPath found _ ih =>
    cases second with
    | known member _ => exact absurd member fresh
    | cyclic _ onPath => exact absurd onPath offPath
    | missing _ _ none => cases none.symm.trans found
    | failed _ _ found' below =>
      cases found.symm.trans found'
      exact ih below
    | entered _ _ found' below _ =>
      cases found.symm.trans found'
      cases ih below
  | entered fresh offPath found _ _ ihBelow ihLater =>
    cases second with
    | known member _ => exact absurd member fresh
    | cyclic _ onPath => exact absurd onPath offPath
    | missing _ _ none => cases none.symm.trans found
    | failed _ _ found' below =>
      cases found.symm.trans found'
      cases ihBelow below
    | entered _ _ found' below later =>
      cases found.symm.trans found'
      cases ihBelow below
      exact ihLater later

end Explores

/-! ## The bound -/

/-- Visits one after the other, with a bound on their depth. -/
def explore (g : Graph) (fuel : Nat) (path taken : List String)
    (reads : List (Except Fault String)) : Except Fault (List String) :=
  reads.foldlM (fun acc read => read >>= g.visit fuel path acc) taken

theorem visitInputs_eq_explore (g : Graph) (fuel : Nat) (path taken : List String)
    (op : Operation) :
    op.inputs.foldlM (g.visitInput fuel path) taken = g.explore fuel path taken op.reads := by
  unfold explore Operation.reads
  rw [List.foldlM_map]
  rfl

/-- A visit of a name that is neither taken nor on the path. -/
theorem visit_of_found {g : Graph} {fuel : Nat} {path taken : List String} {name : String}
    {op : Operation} (fresh : name ∉ taken) (offPath : name ∉ path)
    (found : g.find? name = some op) :
    g.visit (fuel + 1) path taken name =
      (g.explore fuel (name :: path) taken op.reads >>= fun taken' => pure (taken' ++ [name])) := by
  rw [visit, if_neg fresh, if_neg offPath, found, ← visitInputs_eq_explore]
  rfl

/-- With a bound that exceeds what is left of the operations the search runs as without one. The
path has no repetition, so it cannot become longer than there are operations. -/
theorem explores_explore {g : Graph} {fuel : Nat} {path : List String} (nodup : path.Nodup)
    (inside : ∀ name ∈ path, g.has name = true) (enough : g.ops.length < fuel + path.length)
    (taken : List String) (reads : List (Except Fault String)) :
    g.Explores path taken reads (g.explore fuel path taken reads) := by
  induction fuel generalizing path taken reads with
  | zero =>
    have bounded := length_le_of_has nodup inside
    omega
  | succ fuel ih =>
    induction reads generalizing taken with
    | nil => exact .done
    | cons read rest later =>
      cases read with
      | error f => exact .unreadable
      | ok name =>
        have first : g.explore (fuel + 1) path taken (.ok name :: rest) =
            (g.visit (fuel + 1) path taken name >>= fun acc =>
              g.explore (fuel + 1) path acc rest) := by
          unfold explore
          rw [List.foldlM_cons]
          rfl
        rw [first]
        by_cases member : name ∈ taken
        · rw [visit, if_pos member]
          exact .known member (later taken)
        · by_cases onPath : name ∈ path
          · rw [visit, if_neg member, if_pos onPath]
            exact .cyclic member onPath
          · cases found : g.find? name with
            | none =>
              rw [visit, if_neg member, if_neg onPath, found]
              exact .missing member onPath found
            | some op =>
              rw [visit_of_found member onPath found]
              have nodup' : (name :: path).Nodup := List.nodup_cons.mpr ⟨onPath, nodup⟩
              have inside' : ∀ n ∈ name :: path, g.has n = true := by
                intro n listed
                rcases List.mem_cons.mp listed with rfl | before
                · simp [has, found]
                · exact inside n before
              have enough' : g.ops.length < fuel + (name :: path).length := by
                rw [List.length_cons]
                omega
              have below := ih nodup' inside' enough' taken op.reads
              cases made : g.explore fuel (name :: path) taken op.reads with
              | error f =>
                rw [made] at below
                exact .failed member onPath found below
              | ok taken' =>
                rw [made] at below
                exact .entered member onPath found below (later (taken' ++ [name]))

/-- The search from the outputs comes to an end, and it ends as sorting does. -/
theorem explores_iff_sorted (g : Graph) (result : Except Fault (List String)) :
    g.Explores [] [] (g.outputs.map .ok) result ↔ result = g.sorted := by
  have run : g.Explores [] [] (g.outputs.map .ok) g.sorted := by
    have bounded : g.Explores [] [] (g.outputs.map .ok)
        (g.explore (g.ops.length + 1) [] [] (g.outputs.map .ok)) :=
      explores_explore List.nodup_nil (by simp) (by simp) [] (g.outputs.map .ok)
    unfold explore at bounded
    rw [List.foldlM_map] at bounded
    exact bounded
  constructor
  · intro other
    exact other.unique run
  · rintro rfl
    exact run

/-! ## Graphs with the same wires -/

theorem reads_eq_wires (g : Graph) (name : String) :
    (g.find? name).map Operation.reads =
      (g.wires.find? fun wire => wire.1 = name).map fun wire => wire.2.map TensorName.producer := by
  unfold wires find?
  rw [List.find?_map, Option.map_map]
  refine congrArg (fun f => Option.map f _) (funext fun op => ?_)
  unfold Operation.reads
  rw [Function.comp_apply, List.map_map]
  rfl

/-- A run of the search looks at the names of inputs only. -/
theorem Explores.congr {g g' : Graph}
    (same : ∀ name, (g'.find? name).map Operation.reads = (g.find? name).map Operation.reads)
    {path taken : List String} {reads : List (Except Fault String)}
    {result : Except Fault (List String)} (explores : g.Explores path taken reads result) :
    g'.Explores path taken reads result := by
  have found' : ∀ {name op}, g.find? name = some op →
      ∃ op', g'.find? name = some op' ∧ op'.reads = op.reads := by
    intro name op found
    have there := same name
    rw [found] at there
    exact Option.map_eq_some_iff.mp there
  induction explores with
  | done => exact .done
  | unreadable => exact .unreadable
  | known member _ ih => exact .known member ih
  | cyclic fresh onPath => exact .cyclic fresh onPath
  | @missing _ _ _ name fresh offPath none =>
    refine .missing fresh offPath ?_
    have there := same name
    rw [none] at there
    exact Option.map_eq_none_iff.mp there
  | failed fresh offPath found _ ih =>
    obtain ⟨op', there, reads⟩ := found' found
    exact .failed fresh offPath there (reads ▸ ih)
  | entered fresh offPath found _ _ ihBelow ihLater =>
    obtain ⟨op', there, reads⟩ := found' found
    exact .entered fresh offPath there (reads ▸ ihBelow) ihLater

/-- Sorting depends on the wires and the outputs only. -/
theorem sorted_of_wires {g g' : Graph} (wires : g'.wires = g.wires)
    (outputs : g'.outputs = g.outputs) : g'.sorted = g.sorted := by
  have same : ∀ name, (g'.find? name).map Operation.reads = (g.find? name).map Operation.reads := by
    intro name
    rw [reads_eq_wires, reads_eq_wires, wires]
  have search := (explores_iff_sorted g g.sorted).mpr rfl
  rw [← outputs] at search
  exact ((explores_iff_sorted g' g.sorted).mp (search.congr same)).symm

/-! ## What sorting asks for -/

/-- The names that the outputs need have operations, the names of the inputs of these can be read,
and none of these names needs itself, directly or through others. -/
structure Sortable (g : Graph) : Prop where
  found : ∀ name, g.Reachable name → ∃ op, g.find? name = some op
  readable : ∀ name op, g.Reachable name → g.find? name = some op →
    ∀ t ∈ op.inputs, ∃ p, TensorName.producer t.name = .ok p
  acyclic : ∀ name, g.Reachable name → ¬Relation.TransGen g.Needs name name

/-- A name that can be visited: the outputs need it, and so do all names on the path. -/
def Visitable (g : Graph) (path : List String) (read : Except Fault String) : Prop :=
  ∃ name, read = .ok name ∧ g.Reachable name ∧ ∀ n ∈ path, Relation.TransGen g.Needs n name

/-- The inputs of an operation that can be visited can be visited below it. -/
theorem Sortable.visitable_reads {g : Graph} (sortable : g.Sortable) {path : List String}
    {name : String} {op : Operation} (visitable : g.Visitable path (.ok name))
    (found : g.find? name = some op) : ∀ read ∈ op.reads, g.Visitable (name :: path) read := by
  obtain ⟨_, same, reached, onPath⟩ := visitable
  cases same
  intro read member
  obtain ⟨t, input, rfl⟩ := List.mem_map.mp member
  obtain ⟨p, made⟩ := sortable.readable name op reached found t input
  have needs : g.Needs name p := ⟨op, found, t, input, made⟩
  refine ⟨p, made, reached.step needs, fun n listed => ?_⟩
  rcases List.mem_cons.mp listed with rfl | before
  · exact .single needs
  · exact (onPath n before).tail needs

/-- In a sortable graph no run of the search ends with a fault. -/
theorem Explores.exists_ok {g : Graph} {path taken : List String}
    {reads : List (Except Fault String)} {result : Except Fault (List String)}
    (explores : g.Explores path taken reads result) (sortable : g.Sortable)
    (visitable : ∀ read ∈ reads, g.Visitable path read) : ∃ names, result = .ok names := by
  induction explores with
  | done => exact ⟨_, rfl⟩
  | unreadable =>
    obtain ⟨_, same, _⟩ := visitable _ List.mem_cons_self
    cases same
  | known _ _ ih => exact ih fun read member => visitable read (by simp [member])
  | cyclic _ onPath =>
    obtain ⟨_, same, reached, needed⟩ := visitable _ List.mem_cons_self
    cases same
    exact absurd (needed _ onPath) (sortable.acyclic _ reached)
  | missing _ _ none =>
    obtain ⟨_, same, reached, _⟩ := visitable _ List.mem_cons_self
    cases same
    obtain ⟨op, found⟩ := sortable.found _ reached
    cases none.symm.trans found
  | failed _ _ found _ ih =>
    have below := sortable.visitable_reads (visitable _ List.mem_cons_self) found
    obtain ⟨names, same⟩ := ih below
    cases same
  | entered _ _ _ _ _ _ ihLater =>
    exact ihLater fun read member => visitable read (by simp [member])

/-- What a name of an order needs, directly or through others, stands before it. -/
theorem Ordered.before_of_transGen {g : Graph} {names before after : List String}
    {name need : String} (ordered : g.Ordered names) (parts : names = before ++ name :: after)
    (needed : Relation.TransGen g.Needs name need) : need ∈ before := by
  obtain ⟨front, _, op, found, inputs⟩ := ordered.split parts
  induction needed with
  | single needs =>
    obtain ⟨op', found', t, input, made⟩ := needs
    cases found.symm.trans found'
    obtain ⟨p, earlier, made'⟩ := inputs t input
    cases made.symm.trans made'
    exact earlier
  | tail _ needs ih => exact front.needs ih needs

/-- A producer has a smaller place in the order than its consumers. -/
theorem Ordered.idxOf_lt {g : Graph} {names : List String} {name need : String}
    (ordered : g.Ordered names) (listed : name ∈ names) (needs : g.Needs name need) :
    names.idxOf need < names.idxOf name := by
  obtain ⟨before, after, parts⟩ := List.append_of_mem listed
  have earlier := ordered.before_of_transGen parts (.single needs)
  obtain ⟨_, fresh, _⟩ := ordered.split parts
  have place : names.idxOf name = before.length := by
    rw [parts, List.idxOf_append_of_notMem fresh, List.idxOf_cons_self]
    rfl
  have place' : names.idxOf need = before.idxOf need := by
    rw [parts, List.idxOf_append_of_mem earlier]
  have bound := List.idxOf_lt_length_of_mem earlier
  omega

theorem sortable_of_sorted {g : Graph} {names : List String} (run : g.sorted = .ok names) :
    g.Sortable := by
  have ordered := ordered_of_sorted run
  have listed := mem_sorted_iff run
  refine ⟨fun name reached => ?_, fun name op reached found t input => ?_, ?_⟩
  · exact ordered.found ((listed name).mpr reached)
  · exact ordered.producer ((listed name).mpr reached) found input
  · intro name reached cycle
    obtain ⟨before, after, parts⟩ := List.append_of_mem ((listed name).mpr reached)
    obtain ⟨_, fresh, _⟩ := ordered.split parts
    exact fresh (ordered.before_of_transGen parts cycle)

/-- A graph can be sorted exactly if it is sortable. -/
theorem sorted_ok_iff (g : Graph) : (∃ names, g.sorted = .ok names) ↔ g.Sortable := by
  constructor
  · rintro ⟨names, run⟩
    exact sortable_of_sorted run
  · intro sortable
    have search := (explores_iff_sorted g g.sorted).mpr rfl
    refine search.exists_ok sortable fun read member => ?_
    obtain ⟨name, output, rfl⟩ := List.mem_map.mp member
    exact ⟨name, rfl, .output output, fun n onPath => by cases onPath⟩

end Graph

namespace Workspace

theorem sort_eq_ok_iff {w w' : Workspace} {id : GraphId} {u : Unit} :
    w.sort id = (w', .ok u) ↔ ∃ names, (w.graph id).sorted = .ok names ∧
      w' = w.set id { w.graph id with order := names } := by
  constructor
  · intro run
    obtain ⟨names, sorted, made⟩ := Graph.sort_eq_ok_iff.mp (graph_of_sort run)
    have sorts : (w.graph id).sort = .ok { w.graph id with order := names } :=
      Graph.sort_eq_ok_iff.mpr ⟨names, sorted, rfl⟩
    rw [(sort_of_sorted sorts).1] at run
    cases run
    exact ⟨names, sorted, rfl⟩
  · rintro ⟨names, sorted, rfl⟩
    exact (sort_of_sorted (Graph.sort_eq_ok_iff.mpr ⟨names, sorted, rfl⟩)).1

theorem eq_of_sort_failed {w w' : Workspace} {id : GraphId} {f : Fault}
    (run : w.sort id = (w', .error f)) : w' = w := by
  cases sorted : (w.graph id).sort with
  | error f' =>
    rw [sort_of_failed sorted] at run
    cases run
    rfl
  | ok g =>
    rw [(sort_of_sorted sorted).1] at run
    cases run

/-- Sorting comes to an end on every graph. It succeeds exactly if the graph is sortable; then it
sets the order of evaluation, and nothing else, to the names that the outputs need, each once and
behind its producers. If it fails, everything is as it was. -/
theorem sorts_exactly_sortable (w : Workspace) (id : GraphId) :
    (∀ result, (w.graph id).Explores [] [] ((w.graph id).outputs.map .ok) result ↔
      result = (w.graph id).sorted) ∧
    ((∃ w', w.sort id = (w', .ok ())) ↔ (w.graph id).Sortable) ∧
    (∀ w', w.sort id = (w', .ok ()) →
      ∃ names, (w.graph id).sorted = .ok names ∧
        w' = w.set id { w.graph id with order := names } ∧ names.Nodup ∧
        (∀ name, name ∈ names ↔ (w.graph id).Reachable name) ∧
        ∀ name ∈ names, ∀ need, (w.graph id).Needs name need →
          names.idxOf need < names.idxOf name) ∧
    ∀ w' f, w.sort id = (w', .error f) → w' = w := by
  refine ⟨Graph.explores_iff_sorted _, ?_, ?_, fun _ _ run => eq_of_sort_failed run⟩
  · rw [← Graph.sorted_ok_iff]
    constructor
    · rintro ⟨w', run⟩
      obtain ⟨names, sorted, _⟩ := sort_eq_ok_iff.mp run
      exact ⟨names, sorted⟩
    · rintro ⟨names, sorted⟩
      exact ⟨_, sort_eq_ok_iff.mpr ⟨names, sorted, rfl⟩⟩
  · intro w' run
    obtain ⟨names, sorted, made⟩ := sort_eq_ok_iff.mp run
    have ordered := Graph.ordered_of_sorted sorted
    refine ⟨names, sorted, made, ordered.nodup, Graph.mem_sorted_iff sorted, ?_⟩
    intro name listed need needs
    exact ordered.idxOf_lt listed needs

end Workspace

end TensorEmit
