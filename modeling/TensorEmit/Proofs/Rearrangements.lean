import TensorEmit.Code.Construct
import TensorEmit.Proofs.ReferenceCounts

/-!
# Rearrangements

An order of a list is a list of positions that names every place once, from the front or from the
end. Texts that are put into such an order are the same texts, and the order that undoes it puts
them back. The operators that take their operands first use one fixed order of six places: six
inputs are listed as often as they were given, and of a longer list the first six
(`arranged_without_loss`).
-/

namespace TensorEmit

/-! ## Entries that are set together -/

namespace Entries

variable {κ α : Type} [DecidableEq κ]

theorem get?_setAll_of_not_mem {more : Entries κ α} {k : κ} (absent : k ∉ more.keys)
    (es : Entries κ α) : (es.setAll more).get? k = es.get? k := by
  induction more generalizing es with
  | nil => rfl
  | cons e more ih =>
    unfold keys at absent ih
    rw [List.map_cons, List.mem_cons, not_or] at absent
    exact (ih absent.2 (es.set e.1 e.2)).trans (get?_set_of_ne es e.2 absent.1)

/-- Of distinct entries that are set together, each is found. -/
theorem get?_setAll {es more : Entries κ α} {k : κ} {v : α} (distinct : more.keys.Nodup)
    (found : more.get? k = some v) : (es.setAll more).get? k = some v := by
  induction more generalizing es with
  | nil => cases found
  | cons e more ih =>
    obtain ⟨absent, later⟩ := List.nodup_cons.mp distinct
    rw [get?] at found
    split at found
    case isTrue here =>
      cases found
      have kept := get?_setAll_of_not_mem (here ▸ absent) (es.set e.1 e.2)
      exact kept.trans (here ▸ get?_set_self es e.1 e.2)
    case isFalse => exact ih later found

end Entries

namespace Code

/-! ## Orders -/

/-- The place among `n` that a position names; a negative position counts from the end. -/
def placeOf (n : Nat) (i : Int) : Int := if i < 0 then i + n else i

/-- An order of `n` members names every place once. -/
def IsOrder (n : Nat) (order : List Int) : Prop :=
  (order.map (placeOf n)).Perm ((List.range n).map Int.ofNat)

instance (n : Nat) (order : List Int) : Decidable (IsOrder n order) :=
  inferInstanceAs (Decidable (List.Perm _ _))

/-- One order undoes another: each of its positions leads to the position of its own place. -/
def Undoes (n : Nat) (order back : List Int) : Prop :=
  back.length = n ∧ ∀ (k : Nat) (j : Int), back[k]? = some j →
    ∃ i, pick order j = some i ∧ placeOf n i = k

/-- For every place the position, from the front, at which an order names it. -/
def inverseOrder (n : Nat) (order : List Int) : List Int :=
  (List.range n).map fun k : Nat => ((order.map (placeOf n)).idxOf (k : Int) : Int)

section Picking

variable {α : Type} {xs : List α} {i : Int}

/-- What stands at a position stands at the place that the position names. -/
theorem pick_eq_getElem? (low : 0 ≤ placeOf xs.length i) :
    pick xs i = xs[(placeOf xs.length i).toNat]? := by
  unfold pick
  unfold placeOf at low ⊢
  split at low
  case isTrue negative =>
    have place : xs.length - (-i).toNat = (i + xs.length).toNat := by omega
    rw [if_neg (by omega), if_pos (by omega), if_pos negative, place]
  case isFalse front =>
    rw [if_pos (by omega), if_neg front]

/-- A position where something stands is not farther from the front or the end than the list is
long. -/
theorem bounds_of_pick {x : α} (found : pick xs i = some x) :
    -(xs.length : Int) ≤ i ∧ i < xs.length := by
  unfold pick at found
  split at found
  case isTrue front =>
    obtain ⟨inside, -⟩ := List.getElem?_eq_some_iff.mp found
    omega
  case isFalse negative =>
    split at found
    · omega
    · cases found

/-- Positions on both sides of a list that a word can count fit a word. -/
theorem fitsWord_of_bounds {n : Nat} (addressable : 2 * n ≤ wordSize) (low : -(n : Int) ≤ i)
    (high : i < n) : fitsWord i := by
  unfold wordSize at addressable
  simp only [fitsWord, Bool.and_eq_true, decide_eq_true_eq]
  omega

theorem pick_natCast (xs : List α) (k : Nat) : pick xs (k : Int) = xs[k]? := by
  unfold pick
  rw [if_pos (by omega), Int.toNat_natCast]

theorem exists_pickAll {positions : List Int} (each : ∀ i ∈ positions, ∃ x, pick xs i = some x) :
    ∃ ys, pickAll xs positions = .ok ys := by
  simp only [pickAll_eq_ok_iff]
  induction positions with
  | nil => exact ⟨[], .nil⟩
  | cons i positions ih =>
    obtain ⟨x, here⟩ := each i (by simp)
    obtain ⟨ys, later⟩ := ih fun j member => each j (List.mem_cons_of_mem i member)
    exact ⟨x :: ys, .cons here later⟩

/-- The members at all places are the list. -/
theorem filterMap_range (xs : List α) :
    (List.range xs.length).filterMap (fun k => xs[k]?) = xs := by
  have views : (List.range xs.length).map (fun k => xs[k]?) = xs.map some := by
    refine List.ext_getElem (by simp) fun k inside _ => ?_
    rw [List.length_map, List.length_range] at inside
    simp [inside]
  calc (List.range xs.length).filterMap (fun k => xs[k]?)
      = ((List.range xs.length).map fun k => xs[k]?).filterMap id := by rw [List.filterMap_map]; rfl
    _ = xs := by rw [views, List.filterMap_map]; exact List.filterMap_some

theorem pickAll_eq_ok_iff_map {ys : List α} {positions : List Int} :
    pickAll xs positions = .ok ys ↔ positions.map (pick xs) = ys.map some := by
  rw [pickAll_eq_ok_iff]
  constructor
  · intro related
    exact (views_of_forall₂ (related.imp fun _ _ found => found.symm)).symm
  · intro same
    exact (forall₂_of_views same.symm).imp fun _ _ found => found.symm

end Picking

namespace IsOrder

variable {n : Nat} {order : List Int}

theorem order_length (isOrder : IsOrder n order) : order.length = n := by
  have lengths := List.Perm.length_eq isOrder
  simpa using lengths

theorem place_bounds (isOrder : IsOrder n order) {i : Int} (member : i ∈ order) :
    0 ≤ placeOf n i ∧ placeOf n i < n := by
  have named : placeOf n i ∈ (List.range n).map Int.ofNat :=
    isOrder.mem_iff.mp (List.mem_map_of_mem member)
  obtain ⟨k, inside, same⟩ := List.mem_map.mp named
  have below := List.mem_range.mp inside
  rw [← same]
  simp only [Int.ofNat_eq_natCast]
  omega

theorem bounds (isOrder : IsOrder n order) {i : Int} (member : i ∈ order) :
    -(n : Int) ≤ i ∧ i < n := by
  have place := isOrder.place_bounds member
  unfold placeOf at place
  split at place
  · omega
  · omega

/-- Every order can be undone. -/
theorem undoes_inverseOrder (isOrder : IsOrder n order) :
    Undoes n order (inverseOrder n order) := by
  refine ⟨by simp [inverseOrder], fun k j found => ?_⟩
  obtain ⟨inside, rfl⟩ : k < n ∧ ((order.map (placeOf n)).idxOf (k : Int) : Int) = j := by
    simpa [inverseOrder, List.getElem?_eq_some_iff] using found
  have named : (k : Int) ∈ order.map (placeOf n) :=
    isOrder.mem_iff.mpr (List.mem_map.mpr ⟨k, List.mem_range.mpr inside, rfl⟩)
  have position := List.idxOf_lt_length_of_mem named
  have place := List.getElem_idxOf position
  rw [List.getElem_map] at place
  rw [pick_natCast]
  exact ⟨_, List.getElem?_eq_getElem (by simpa using position), place⟩

variable {α : Type} {xs : List α}

theorem exists_pick (isOrder : IsOrder xs.length order) {i : Int} (member : i ∈ order) :
    ∃ x, pick xs i = some x := by
  obtain ⟨low, high⟩ := isOrder.place_bounds member
  have inside : (placeOf xs.length i).toNat < xs.length := by omega
  exact ⟨_, (pick_eq_getElem? low).trans (List.getElem?_eq_getElem inside)⟩

/-- What is picked in some order is what there was. -/
theorem perm_of_pickAll (isOrder : IsOrder xs.length order) {ys : List α}
    (picked : pickAll xs order = .ok ys) : ys.Perm xs := by
  have places : order.filterMap (pick xs) =
      (order.map (placeOf xs.length)).filterMap fun p => xs[p.toNat]? := by
    rw [List.filterMap_map]
    refine List.filterMap_congr fun i member => ?_
    exact pick_eq_getElem? (isOrder.place_bounds member).1
  have all : ((List.range xs.length).map Int.ofNat).filterMap (fun p => xs[p.toNat]?) = xs := by
    rw [List.filterMap_map]
    exact filterMap_range xs
  have rearranged := List.Perm.filterMap (fun p : Int => xs[p.toNat]?) isOrder
  rwa [← places, all, filterMap_of_pickAll picked] at rearranged

end IsOrder

/-- The order that undoes another puts everything back. -/
theorem Undoes.pickAll_eq {α : Type} {xs ys : List α} {order back : List Int}
    (undoes : Undoes xs.length order back) (picked : pickAll xs order = .ok ys) :
    pickAll ys back = .ok xs := by
  obtain ⟨length, leads⟩ := undoes
  have views := pickAll_eq_ok_iff_map.mp picked
  rw [pickAll_eq_ok_iff_map]
  refine List.ext_getElem? fun k => ?_
  rw [List.getElem?_map, List.getElem?_map]
  cases found : back[k]? with
  | none =>
    have beyond := List.getElem?_eq_none_iff.mp found
    rw [List.getElem?_eq_none (by omega)]
    rfl
  | some j =>
    obtain ⟨i, leadsTo, place⟩ := leads k j found
    obtain ⟨listed, -⟩ := List.getElem?_eq_some_iff.mp found
    have inside : k < xs.length := by omega
    have here : pick xs i = some xs[k] := by
      rw [pick_eq_getElem? (by omega), place, Int.toNat_natCast, List.getElem?_eq_getElem inside]
    -- At `j` stands what was picked by the position that the order has there.
    have there : (pick ys j).map some = some (some xs[k]) := by
      rw [← pick_map, ← views, pick_map, leadsTo, Option.map_some, here]
    obtain ⟨y, picks, same⟩ := Option.map_eq_some_iff.mp there
    rw [Option.map_some, picks, List.getElem?_eq_getElem inside, same]
    rfl

theorem Undoes.bounds {n : Nat} {order back : List Int} (undoes : Undoes n order back)
    (length : order.length = n) {j : Int} (member : j ∈ back) : -(n : Int) ≤ j ∧ j < n := by
  obtain ⟨k, found⟩ := List.mem_iff_getElem?.mp member
  obtain ⟨i, leadsTo, -⟩ := undoes.2 k j found
  rw [← length]
  exact bounds_of_pick leadsTo

/-! ## Texts in order -/

section Texts

variable {args : List String} (unpadded : ∀ s ∈ args, Text.Unpadded s)

include unpadded

/-- Without an order texts stay as they are. -/
theorem arrange_none : arrange (.list (args.map Value.text)) .none = .ok (args.map Value.text) := by
  obtain ⟨kind, texts⟩ := ofValue_texts unpadded
  unfold arrange
  rw [texts]
  rfl

/-- Texts in some order are the same texts, at the positions of the order, and what undoes the order
puts them back. -/
theorem arrange_order {order : List Int} (addressable : 2 * args.length ≤ wordSize)
    (isOrder : IsOrder args.length order) :
    ∃ out : List String,
      arrange (.list (args.map Value.text)) (.list (order.map Value.int)) =
        .ok (out.map Value.text) ∧
      out.Perm args ∧ (∀ (k : Nat) (i : Int), order[k]? = some i → out[k]? = pick args i) ∧
      ∀ back, Undoes args.length order back →
        arrange (.list (out.map Value.text)) (.list (back.map Value.int)) =
          .ok (args.map Value.text) := by
  have inside : ∀ i ∈ order, ∃ x, pick args i = some x := fun i member =>
    isOrder.exists_pick member
  obtain ⟨out, picked⟩ := exists_pickAll inside
  have perm := isOrder.perm_of_pickAll picked
  have fits : ∀ i ∈ order, fitsWord i := fun i member =>
    fitsWord_of_bounds addressable (isOrder.bounds member).1 (isOrder.bounds member).2
  refine ⟨out, (arrange_texts unpadded fits).mpr ⟨out, picked, rfl⟩, perm, fun k i found => ?_,
    fun back undoes => ?_⟩
  · have views := congrArg (·[k]?) (pickAll_eq_ok_iff_map.mp picked)
    simp only [List.getElem?_map, found, Option.map_some] at views
    obtain ⟨y, here, same⟩ := Option.map_eq_some_iff.mp views.symm
    rw [here, same]
  · have fitsBack : ∀ j ∈ back, fitsWord j := fun j member =>
      fitsWord_of_bounds addressable (undoes.bounds isOrder.order_length member).1
        (undoes.bounds isOrder.order_length member).2
    have unpaddedOut : ∀ s ∈ out, Text.Unpadded s := fun s member =>
      unpadded s (perm.mem_iff.mp member)
    exact (arrange_texts unpaddedOut fitsBack).mpr ⟨args, undoes.pickAll_eq picked, rfl⟩

end Texts

/-! ## Operators that take their operands first -/

theorem bounds_of_mem_operandOrder : ∀ i ∈ operandOrder, 0 ≤ i ∧ i < 6 := by decide

/-- The members at the places of the operands are among the first six. -/
theorem pick_take {names : List String} {i : Int} (low : 0 ≤ i) (high : i < 6) :
    pick (names.take 6) i = pick names i := by
  unfold pick
  rw [if_pos low, if_pos low, List.getElem?_take_of_lt (by omega)]

/-- Operands first is a rearrangement of the first six inputs. -/
theorem perm_take_of_pickAll {names out : List String}
    (picked : pickAll names operandOrder = .ok out) :
    6 ≤ names.length ∧ out.Perm (names.take 6) := by
  have enough : 6 ≤ names.length := by
    obtain ⟨_, _, found⟩ := exists_right_of_forall₂ (pickAll_eq_ok_iff.mp picked)
      (show (5 : Int) ∈ operandOrder by decide)
    have bounds := bounds_of_pick found
    omega
  have first : operandOrder.filterMap (pick names) =
      operandOrder.filterMap (pick (names.take 6)) := by
    refine List.filterMap_congr fun i member => ?_
    obtain ⟨low, high⟩ := bounds_of_mem_operandOrder i member
    exact (pick_take low high).symm
  rw [← filterMap_of_pickAll picked, first]
  exact ⟨enough, Operation.perm_operandsFirst (by simp [enough])⟩

/-- Putting the operands first takes six texts or more, and no fewer. -/
theorem arrange_operandsFirst_iff {args : List String} (unpadded : ∀ s ∈ args, Text.Unpadded s) :
    (∃ out, arrange (.list (args.map Value.text)) operandsFirst = .ok out) ↔ 6 ≤ args.length := by
  have fits : ∀ i ∈ operandOrder, fitsWord i := by decide
  simp only [operandsFirst_eq, arrange_texts unpadded fits]
  constructor
  · rintro ⟨_, out, picked, -⟩
    exact (perm_take_of_pickAll picked).1
  · intro enough
    have inside : ∀ i ∈ operandOrder, ∃ x, pick args i = some x := by
      intro i member
      obtain ⟨low, high⟩ := bounds_of_mem_operandOrder i member
      obtain ⟨k, rfl⟩ := Int.eq_ofNat_of_zero_le low
      rw [pick_natCast]
      exact ⟨_, List.getElem?_eq_getElem (by omega)⟩
    obtain ⟨out, picked⟩ := exists_pickAll inside
    exact ⟨_, out, picked, rfl⟩

/-- Registrations read nothing. -/
theorem readNamesOf_registerFrom {vars : Variables} {counted : Bool} {i : Int}
    {sources : List (Except Fault TensorSource)} {ss : List Statement}
    (run : Template.registerFrom vars counted i sources = .ok ss) :
    readNamesOf (contextCalls ss) = [] := by
  induction sources generalizing i ss with
  | nil =>
    rw [Template.registerFrom] at run
    cases run
    rfl
  | cons source sources ih =>
    obtain ⟨made, name, count, later, -, -, -, rest, rfl⟩ := registerFrom_cons run
    rw [contextCalls_cons, readNamesOf_append, ih rest]
    rfl

/-- The operator of a product or a sum reads what the variables hold as inputs. -/
theorem readNamesOf_quantizedBinary {t : Template} {vars : Variables} {operator : String}
    {ins : List String} {ss : List Statement}
    (inputs : vars.get? "inputs" = some (.list (ins.map Value.text)))
    (run : t.quantizedBinary vars operator = .ok ss) :
    readNamesOf (contextCalls ss) = listed ins := by
  simp only [Template.quantizedBinary, Template.listStatements, Template.registerFloatRanged,
    Template.registerRanged, Template.registerList, Template.computeList, bind_eq_ok_iff,
    pure_eq_ok_iff] at run
  obtain ⟨_, declared, registered, ⟨_, _, adds⟩, _, _, _, ⟨_, shown, outs, _, rfl⟩, _, fetched, _,
    evaluated, rfl⟩ := run
  rw [names_of_texts inputs] at shown
  cases shown
  have pushed : readNamesOf [.push (listed ins) outs] = listed ins := List.append_nil _
  simp [contextCalls_declareHandleList declared, contextCalls_fetchHandleList fetched,
    contextCalls_evaluation evaluated, readNamesOf_append, readNamesOf_registerFrom adds,
    Statement.call?, pushed]

/-- An argument that is given is passed on. -/
theorem eq_of_arguments {t : Template} {given : Entries String Value} {arg : String → Value}
    {name : String} {v : Value} (distinct : given.keys.Nodup) (found : given.get? name = some v)
    (run : t.arguments given = .ok arg) : arg name = v := by
  unfold Template.arguments at run
  dsimp only at run
  split at run
  · cases run
    dsimp only
    rw [Entries.get?_setAll distinct found]
    rfl
  · cases run

/-- The variables of a product or a sum hold the first six inputs, rearranged. -/
theorem inputs_of_quantizedBinaryVariables {args : List String}
    {outputs leftType rightType outType counts eval : Value} {vars : Variables}
    (unpadded : ∀ s ∈ args, Text.Unpadded s)
    (run : quantizedBinaryVariables (.list (args.map Value.text)) outputs leftType rightType outType
      counts eval = .ok vars) :
    6 ≤ args.length ∧ ∃ out : List String, out.Perm (args.take 6) ∧
      vars.get? "inputs" = some (.list (out.map Value.text)) := by
  simp only [quantizedBinaryVariables, bind_eq_ok_iff, pure_eq_ok_iff] at run
  obtain ⟨_, arranged, _, _, _, isSet, _, _, _, _, _, _, rfl⟩ := run
  rw [operandsFirst_eq, arrange_texts unpadded (by decide)] at arranged
  obtain ⟨out, picked, rfl⟩ := arranged
  obtain ⟨enough, perm⟩ := perm_take_of_pickAll picked
  refine ⟨enough, out, perm, ?_⟩
  rw [Operation.get?_of_setIfTrue isSet (by decide)]
  rfl

/-- A fragment of a product or a sum holds the first six inputs, rearranged, and reads them. -/
theorem reads_of_construct {t : Template} {given : Entries String Value} {f : Fragment}
    {args : List String} (binary : t = .matMul ∨ t = .quantizedAdd)
    (unpadded : ∀ s ∈ args, Text.Unpadded s) (distinct : given.keys.Nodup)
    (inputs : given.get? "inputs" = some (.list (args.map Value.text)))
    (run : Fragment.construct t given = .ok f) :
    6 ≤ args.length ∧ ∃ out : List String, out.Perm (args.take 6) ∧
      f.vars.get? "inputs" = some (.list (out.map Value.text)) ∧
      ∀ ss, f.statements = .ok ss → readNamesOf (contextCalls ss) = out := by
  simp only [Fragment.construct, bind_eq_ok_iff, pure_eq_ok_iff] at run
  obtain ⟨arg, complete, vars, bound, rfl⟩ := run
  have made : quantizedBinaryVariables (arg "inputs") (arg "outputs") (arg "x_dtype")
      (arg "w_dtype") (arg "out_dtype") (arg "ref_counts") (arg "to_eval") = .ok vars := by
    rcases binary with rfl | rfl
    · exact bound
    · exact bound
  rw [eq_of_arguments distinct inputs complete] at made
  obtain ⟨enough, out, perm, held⟩ := inputs_of_quantizedBinaryVariables unpadded made
  refine ⟨enough, out, perm, held, fun ss rendered => ?_⟩
  have filled : out ≠ [] := by
    rintro rfl
    have length := perm.length_eq
    rw [List.length_take] at length
    simp only [List.length_nil] at length
    omega
  obtain ⟨_, rendered⟩ := Fragment.statements_of rendered
  rw [← listed_of_ne_nil filled]
  rcases binary with rfl | rfl
  · exact readNamesOf_quantizedBinary held rendered
  · exact readNamesOf_quantizedBinary held rendered

/-- Rearranging loses nothing. Texts without an order stay as they are; in an order they are the
same texts at its positions, and every order can be undone, which puts them back. Six texts or more
can be put with the operands first, and a product or a sum of quantised tensors reads exactly the
first six. -/
theorem arranged_without_loss {args : List String} (unpadded : ∀ s ∈ args, Text.Unpadded s)
    (addressable : 2 * args.length ≤ wordSize) :
    arrange (.list (args.map Value.text)) .none = .ok (args.map Value.text) ∧
    (∀ order, IsOrder args.length order → ∃ out : List String,
      arrange (.list (args.map Value.text)) (.list (order.map Value.int)) =
        .ok (out.map Value.text) ∧
      out.Perm args ∧ (∀ (k : Nat) (i : Int), order[k]? = some i → out[k]? = pick args i) ∧
      Undoes args.length order (inverseOrder args.length order) ∧
      ∀ back, Undoes args.length order back →
        arrange (.list (out.map Value.text)) (.list (back.map Value.int)) =
          .ok (args.map Value.text)) ∧
    ((∃ out, arrange (.list (args.map Value.text)) operandsFirst = .ok out) ↔ 6 ≤ args.length) ∧
    ∀ t given f, t = .matMul ∨ t = .quantizedAdd → given.keys.Nodup →
      given.get? "inputs" = some (.list (args.map Value.text)) →
      Fragment.construct t given = .ok f →
      6 ≤ args.length ∧ ∃ out : List String, out.Perm (args.take 6) ∧
        (args.length = 6 → ∀ name, out.count name = args.count name) ∧
        f.vars.get? "inputs" = some (.list (out.map Value.text)) ∧
        ∀ ss, f.statements = .ok ss → readNamesOf (contextCalls ss) = out := by
  refine ⟨arrange_none unpadded, fun order isOrder => ?_, arrange_operandsFirst_iff unpadded,
    fun t given f binary distinct inputs run => ?_⟩
  · obtain ⟨out, arranged, perm, members, undone⟩ := arrange_order unpadded addressable isOrder
    exact ⟨out, arranged, perm, members, isOrder.undoes_inverseOrder, undone⟩
  · obtain ⟨enough, out, perm, held, reads⟩ :=
      reads_of_construct binary unpadded distinct inputs run
    refine ⟨enough, out, perm, fun six name => ?_, held, reads⟩
    rw [List.take_of_length_le (Nat.le_of_eq six)] at perm
    exact perm.count_eq name

/-- The arguments of a product with the given inputs. -/
def productOf (inputs : List String) : Entries String Value :=
  [("inputs", .list (inputs.map Value.text)),
   ("outputs", .list (["y:0", "y:1", "y:2"].map Value.text)), ("x_dtype", .type .quint8),
   ("w_dtype", .type .quint8), ("out_dtype", .type .qint32)]

/-- A product that reads the given names. -/
def productReading (names : List String) : Fragment :=
  .of .matMul [("inputs", .list (names.map Value.text)),
    ("outputs", .list (["y:0", "y:1", "y:2"].map Value.text)), ("x_dtype", .text "uint8_t"),
    ("w_dtype", .text "uint8_t"), ("out_dtype", .text "int"), ("to_eval", .bool false)]

/-- The inputs of a square: a tensor twice, and the ends of its range twice. -/
def squareInputs : List String := ["x:0", "x:0", "low:0", "high:0", "low:0", "high:0"]

/-- The inputs of a square with each operand before its range. -/
def squareReads : List String := ["x:0", "low:0", "high:0", "x:0", "low:0", "high:0"]

theorem arranged_without_loss_square :
    (∀ s ∈ squareInputs, Text.Unpadded s) ∧ 2 * squareInputs.length ≤ wordSize ∧
    IsOrder squareInputs.length [-1, 0, 4, -3, 1, 2] ∧
    (∃ out : List String,
      arrange (.list (squareInputs.map Value.text)) (.list ([-1, 0, 4, -3, 1, 2].map Value.int)) =
        .ok (out.map Value.text) ∧ out.Perm squareInputs ∧
      arrange (.list (out.map Value.text)) (.list ([1, 4, 5, 3, 2, 0].map Value.int)) =
        .ok (squareInputs.map Value.text)) ∧
    ∃ f, Fragment.construct .matMul (productOf squareInputs) = .ok f ∧
      ∃ ss, f.statements = .ok ss ∧ ∀ name,
        (readNamesOf (contextCalls ss)).count name = squareInputs.count name := by
  have unpadded : ∀ s ∈ squareInputs, Text.Unpadded s := by
    unfold Text.Unpadded
    decide
  have isOrder : IsOrder squareInputs.length [-1, 0, 4, -3, 1, 2] := by decide
  obtain ⟨-, orders, -, operators⟩ := arranged_without_loss unpadded (by decide)
  obtain ⟨out, arranged, perm, -, undoes, undone⟩ := orders _ isOrder
  have made : Fragment.construct .matMul (productOf squareInputs) =
      .ok (productReading squareReads) := rfl
  have rendered : ∃ ss, (productReading squareReads).statements = .ok ss := by
    unfold productReading
    rw [Fragment.statements_eq]
    exact ⟨_, rfl⟩
  obtain ⟨-, _, -, counts, -, reads⟩ := operators _ _ _ (.inl rfl) (by decide) rfl made
  obtain ⟨ss, shown⟩ := rendered
  refine ⟨unpadded, by decide, isOrder, ⟨out, arranged, perm, undone _ undoes⟩, _, made, ss, shown,
    fun name => ?_⟩
  rw [reads ss shown]
  exact counts rfl name

/-- One input more than the order of the operands has places. -/
def sevenInputs : List String := ["a:0", "b:0", "c:0", "d:0", "e:0", "f:0", "g:0"]

theorem seventh_input_unread :
    Fragment.construct .matMul (productOf sevenInputs) =
      .ok (productReading ["a:0", "c:0", "d:0", "b:0", "e:0", "f:0"]) ∧
    ∃ ss, (productReading ["a:0", "c:0", "d:0", "b:0", "e:0", "f:0"]).statements = .ok ss ∧
      sevenInputs.count "g:0" = 1 ∧ (readNamesOf (contextCalls ss)).count "g:0" = 0 := by
  refine ⟨rfl, ?_⟩
  unfold productReading
  rw [Fragment.statements_eq]
  exact ⟨_, rfl, by decide, by decide⟩

end Code

end TensorEmit
