import TensorEmit.Proofs.ConstantFiles
import TensorEmit.Proofs.Rendering

/-!
# Literals of inlined constants

An inlined constant becomes an array of the emitted program. The type of the array is looked up by
the element type of the tensor, and its elements are the numbers of the stored value as they are. So
the two can disagree: signed bytes are declared as bytes without a sign, and words of 64 bits as
words of 32 bits. The elements of the other types always fit.
-/

namespace TensorEmit

open Code

/-! ## Ranges of element types -/

namespace ElementType

/-- The least whole number of a type. -/
def least (t : ElementType) : Int := if t.isSigned then -Nat.pow 2 (8 * t.width - 1) else 0

/-- The first whole number that is too large for a type. -/
def beyond (t : ElementType) : Int :=
  if t.isSigned then Nat.pow 2 (8 * t.width - 1) else Nat.pow 2 (8 * t.width)

/-- A whole number is in the range of a type. -/
def Holds (t : ElementType) (n : Int) : Prop := t.least ≤ n ∧ n < t.beyond

instance (t : ElementType) (n : Int) : Decidable (t.Holds n) :=
  inferInstanceAs (Decidable (t.least ≤ n ∧ n < t.beyond))

theorem width_pos (t : ElementType) : 0 < t.width := by
  unfold width
  split <;> decide

/-- The numbers in the range are those that conversion to the type leaves as they are. -/
theorem wrap_eq_self_iff (t : ElementType) (n : Int) : t.wrap n = n ↔ t.Holds n := by
  have half : Nat.pow 2 (8 * t.width) = 2 * Nat.pow 2 (8 * t.width - 1) := by
    have some := t.width_pos
    have next : 8 * t.width = 8 * t.width - 1 + 1 := by omega
    exact (congrArg (Nat.pow 2) next).trans Nat.pow_succ'
  have positive : 0 < Nat.pow 2 (8 * t.width) := Nat.two_pow_pos _
  unfold wrap Holds least beyond
  dsimp only
  split
  · have multiple : ((Nat.pow 2 (8 * t.width) : Nat) : Int) ∣ n - n :=
      Int.sub_self n ▸ Int.dvd_zero _
    rw [Int.bmod_eq_iff positive, and_iff_left multiple]
    omega
  · constructor
    · intro same
      rw [← same]
      exact ⟨Int.emod_nonneg n (by omega), Int.emod_lt_of_pos n (by omega)⟩
    · rintro ⟨low, high⟩
      exact Int.emod_eq_of_lt low high

theorem map_wrap_eq_self_iff (t : ElementType) (cells : List Int) :
    cells.map t.wrap = cells ↔ ∀ n ∈ cells, t.Holds n := by
  have ids : cells.map t.wrap = cells ↔ cells.map t.wrap = cells.map id := by rw [List.map_id]
  rw [ids, List.map_inj_left]
  exact forall₂_congr fun n _ => t.wrap_eq_self_iff n

end ElementType

/-- The element type that a type name of the emitted program stands for: a byte without a sign, a
word of 32 bits with one, or a float of 32 bits. -/
def Code.programType? : String → Option ElementType
  | "uint8_t" => some .uint8
  | "int" => some .int32
  | "float" => some .float32
  | _ => none

/-- Where the numbers of a type fit into the elements of the array that is declared for them. -/
theorem programType_holds_iff {t : ElementType} {names : TypeName}
    (accepted : TypeName.of? t = some names) (whole : t.floatFormat? = none) :
    ∃ p, programType? names.element = some p ∧ ∀ n, t.base.Holds n →
      (p.Holds n ↔ (t = .qint8 → 0 ≤ n) ∧ (t = .int64 → ElementType.int32.Holds n)) := by
  have int8 : ∀ n, ElementType.int8.Holds n ↔ -128 ≤ n ∧ n < 128 := fun n => Iff.rfl
  have uint8 : ∀ n, ElementType.uint8.Holds n ↔ 0 ≤ n ∧ n < 256 := fun n => Iff.rfl
  unfold TypeName.of? at accepted
  split at accepted <;> cases accepted
  case h_1 => cases whole
  case h_2 =>
    refine ⟨.uint8, rfl, fun n held => ?_⟩
    have signed := (int8 n).mp held
    rw [uint8]
    simp only [forall_const, reduceCtorEq, false_implies, and_true]
    omega
  case h_6 => exact ⟨.uint8, rfl, fun n held => by simp [show ElementType.uint8.Holds n from held]⟩
  case h_4 => exact ⟨.int32, rfl, fun n held => by simp⟩
  all_goals exact ⟨.int32, rfl, fun n held => by simp [show ElementType.int32.Holds n from held]⟩

/-! ## Arrays of the program -/

/-- The numbers of whole types are shown in decimal notation. -/
theorem plain_cell {t : ElementType} {names : TypeName} (accepted : TypeName.of? t = some names)
    (whole : t.floatFormat? = none) (n : Int) : (Value.cell t.base n).plain = toString n := by
  unfold TypeName.of? at accepted
  split at accepted
  case h_1 => cases whole
  case h_7 => cases accepted
  all_goals rfl

/-- The definition of an array shows the elements of its flat value one by one. -/
theorem statements_weight (type name : String) (length : Int) (a : NumArray) :
    (Fragment.of .weight [("type", .text type), ("value", .array a.flatten),
      ("length", .int length), ("inline_name", .text name)]).statements =
      .ok [.line "#include <stdint.h>", .line "",
        .defineArray type name (Value.int length).plain
          ((a.cells.map (Value.cell a.type)).map Value.plain)] := by
  rw [Fragment.statements_eq]
  rfl

/-- The array of an inlined constant is declared with the name of the type of the tensor, and its
elements are the numbers of the value. -/
theorem statements_of_weight {t : ElementType} {shape : Value} {name : String} {a : NumArray}
    {vars : Variables} (whole : t.floatFormat? = none) (typed : a.type = t.base)
    (run : weightVariables (.text name) (.type t) shape (.array a.flatten) = .ok vars) :
    ∃ names length, TypeName.of? t = some names ∧ (Fragment.of .weight vars).statements =
      .ok [.line "#include <stdint.h>", .line "",
        .defineArray names.element name length (a.cells.map toString)] := by
  simp only [weightVariables, elementOf_type_eq_ok_iff, bind_eq_ok_iff, pure_eq_ok_iff] at run
  obtain ⟨_, _, _, ⟨names, accepted, rfl⟩, length, _, rfl⟩ := run
  refine ⟨names, (Value.int length).plain, accepted, ?_⟩
  have elements : (a.cells.map (Value.cell a.type)).map Value.plain = a.cells.map toString := by
    rw [List.map_map, typed]
    exact List.map_congr_left fun n _ => plain_cell accepted whole n
  rw [← elements]
  exact statements_weight names.element name length a

/-- The literals of an inlined constant of whole numbers. They are the numbers of the stored value,
in their order. Conversion to the declared type leaves them as they are exactly if all are in its
range. A number is in that range unless it is a negative number of a tensor of signed quantised
bytes, or one of a tensor of long words that is out of the range of 32 bits. -/
theorem inlined_literals_fit_iff {target : Target} {op : Operation} {out : Tensor} {a : NumArray}
    {f : Fragment} {e e' : Emission} (isInline : op.type = OperatorKind.inline.typeName)
    (found : op.output 0 = .ok out) (whole : out.type.floatFormat? = none)
    (valued : (op.attr "value" >>= heldValue >>= heldArray) = .ok a)
    (typed : a.type = out.type.base) (held : ∀ n ∈ a.cells, a.type.Holds n)
    (run : (emitOperation target op).runOn e = (e', .ok f)) :
    ∃ w type length p, e'.weights = e.weights ++ [w] ∧
      w.statements = .ok [.line "#include <stdint.h>", .line "",
        .defineArray type (arrayName out.name) length (a.cells.map toString)] ∧
      programType? type = some p ∧
      (a.cells.map p.wrap = a.cells ↔ ∀ n ∈ a.cells, p.Holds n) ∧
      ∀ n ∈ a.cells, p.Holds n ↔
        (out.type = .qint8 → 0 ≤ n) ∧ (out.type = .int64 → ElementType.int32.Holds n) := by
  have kind : OperatorKind.ofType? op.type = some .inline := by
    rw [isInline]
    rfl
  unfold emitOperation at run
  rw [kind] at run
  obtain ⟨out', _, a', _, _, vars, _, found', _, valued', _, _, weighed, rfl, _⟩ :=
    emitInline_spec run
  cases found.symm.trans found'
  cases valued.symm.trans valued'
  obtain ⟨names, length, accepted, stated⟩ := statements_of_weight whole typed weighed
  obtain ⟨p, declared, fits⟩ := programType_holds_iff accepted whole
  refine ⟨_, names.element, length, p, rfl, stated, declared, p.map_wrap_eq_self_iff a.cells, ?_⟩
  intro n member
  exact fits n (typed ▸ held n member)

/-- An inlined row of whole numbers. -/
def inlinedRow (t : ElementType) (cells : List Int) : Operation :=
  ⟨1, "w", "Inline", [], [⟨0, "w:0", "w", t, some [.int cells.length], 0⟩],
    [("value", .attr "tensor" (.tensor ⟨t.base, [cells.length], cells⟩ (.type t)))], 0⟩

/-- What emitting an inlined row comes to. -/
def emittedRow (t : ElementType) (cells : List Int) : Emission × Except Fault Fragment :=
  (emitOperation ⟨none, none, true⟩ (inlinedRow t cells)).runOn (.start ⟨⟨[], []⟩, []⟩)

theorem inlined_literals_fit_iff_emittedRow :
    (∀ n ∈ [3, -1], ElementType.int64.Holds n) ∧ ∃ w type length p,
      (emittedRow .int64 [3, -1]).1.weights = [w] ∧
      w.statements = .ok [.line "#include <stdint.h>", .line "",
        .defineArray type "inline_w_0" length ["3", "-1"]] ∧
      programType? type = some p ∧ [3, -1].map p.wrap = [3, -1] := by
  have found : (inlinedRow .int64 [3, -1]).output 0 =
      .ok ⟨0, "w:0", "w", .int64, some [.int 2], 0⟩ := rfl
  have valued : ((inlinedRow .int64 [3, -1]).attr "value" >>= heldValue >>= heldArray) =
      .ok ⟨.int64, [2], [3, -1]⟩ := rfl
  have held : ∀ n ∈ [3, -1], ElementType.int64.Holds n := by decide
  have short : ∀ n ∈ [3, -1], ElementType.int32.Holds n := by decide
  obtain ⟨f, run⟩ : ∃ f, emittedRow .int64 [3, -1] = ((emittedRow .int64 [3, -1]).1, .ok f) :=
    ⟨_, rfl⟩
  obtain ⟨w, type, length, p, added, stated, declared, kept, fits⟩ :=
    inlined_literals_fit_iff rfl found rfl valued rfl held run
  refine ⟨held, w, type, length, p, added, stated, declared, kept.mpr fun n member => ?_⟩
  refine (fits n member).mpr ⟨fun isByte => ?_, fun _ => short n member⟩
  cases isByte

/-- The literals `-1` of signed bytes and `2147483648` of long words do not fit. -/
theorem inlined_literals_do_not_fit :
    (emittedRow .qint8 [3, -1]).1.weights.map Fragment.statements =
      [.ok [.line "#include <stdint.h>", .line "",
        .defineArray "uint8_t" "inline_w_0" "2" ["3", "-1"]]] ∧
    ElementType.int8.Holds (-1) ∧ ¬ElementType.uint8.Holds (-1) ∧
    (emittedRow .int64 [2147483648]).1.weights.map Fragment.statements =
      [.ok [.line "#include <stdint.h>", .line "",
        .defineArray "int" "inline_w_0" "1" ["2147483648"]]] ∧
    ElementType.int64.Holds 2147483648 ∧ ¬ElementType.int32.Holds 2147483648 := by
  have bytes : (emittedRow .qint8 [3, -1]).1.weights.map Fragment.statements =
      [(Fragment.of .weight [("type", .text "uint8_t"),
        ("value", .array (NumArray.flatten ⟨.int8, [2], [3, -1]⟩)), ("length", .int 2),
        ("inline_name", .text "inline_w_0")]).statements] := rfl
  have words : (emittedRow .int64 [2147483648]).1.weights.map Fragment.statements =
      [(Fragment.of .weight [("type", .text "int"),
        ("value", .array (NumArray.flatten ⟨.int64, [1], [2147483648]⟩)), ("length", .int 1),
        ("inline_name", .text "inline_w_0")]).statements] := rfl
  rw [bytes, words, statements_weight, statements_weight]
  exact ⟨rfl, by decide, by decide, rfl, by decide, by decide⟩

end TensorEmit
