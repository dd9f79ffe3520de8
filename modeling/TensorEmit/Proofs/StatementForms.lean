import TensorEmit.Proofs.EntryPoint

/-!
# Forms of statements

Which statements the code of an operation can hold. `Code.Template.Writes` lists them for a template
with its variables, and `Code.Template.writesAll_statements` says that the templates of operations
write no others. Handles on tensors are only declared and fetched if the variables ask for them, the
lines between the statements are blank or belong to a tensor that is made first, and only the code
of inlined constants registers a tensor over an array.
-/

namespace TensorEmit

/-- A text of blanks and line ends only. -/
def Text.Blank (s : String) : Prop := ∀ c ∈ s.toList, c = ' ' ∨ c = '\n'

instance (s : String) : Decidable (Text.Blank s) := List.decidableBAll _ _

namespace Code

/-! ## What is registered -/

/-- Whether what is registered is a parameter of the entry point. -/
def TensorSource.isParameter : TensorSource → Bool
  | named identifier => Text.startsWith "input_" identifier
  | _ => false

/-- Whether what is registered is a tensor over an array of the program. -/
def TensorSource.isOverArray : TensorSource → Bool
  | made className _ _ => className = "BinaryTensor"
  | _ => false

/-- The layouts of registrations. -/
def RegisterLayout.all : List RegisterLayout := [oneLine, spread "", spread " "]

/-! ## Forms -/

namespace Template

/-- The statements of the templates of operations. -/
inductive Writes (t : Template) (vars : Variables) : Statement → Prop
  | declareHandles {names : List String} {listed : Bool} (asked : ¬vars.Handleless) :
    Writes t vars (.declareHandles names listed)
  | fetch {handle name : String} (asked : ¬vars.Handleless) : Writes t vars (.fetch handle name)
  | openBlock {trail : String} (blank : Text.Blank trail) : Writes t vars (.openBlock trail)
  | closeBlock : Writes t vars .closeBlock
  | gap {text : String} (blank : Text.Blank text) : Writes t vars (.line text)
  | importer : Writes t vars (.line (blockIndent ++ "TensorIdxImporter t_import;"))
  | declareOutput (made : t ∈ extremes) : Writes t vars
      (.line (blockIndent ++ "RamTensor<" ++ vars.show "out_dtype" ++ ">* out_tensor;"))
  | makeOutput {shape : String} (made : t ∈ extremes)
      (sized : shape = "" ∨ ∃ sizes, vars.names "out_shape" = .ok sizes ∧
        shape = "\x7b " ++ ", ".intercalate sizes ++ " \x7d") : Writes t vars
      (.line (blockIndent ++ "out_tensor = new RamTensor<" ++ vars.show "out_dtype" ++ ">(" ++
        shape ++ ");"))
  | register {source : TensorSource} {name : String} {count : Option String}
      {layout : RegisterLayout} (inner : source.isParameter = false)
      (free : t ≠ .binaryTensor → source.isOverArray = false)
      (laidOut : layout ∈ RegisterLayout.all) :
    Writes t vars (.register source name count layout)
  | compute {operator : String} {ins outs : List String} (reads : ins ≠ []) (makes : outs ≠ []) :
    Writes t vars (.compute operator ins outs t.layout)
  | evaluate : Writes t vars .evaluate

/-- Statements of a template of operations. -/
def WritesAll (t : Template) (vars : Variables) (ss : List Statement) : Prop :=
  ∀ s ∈ ss, t.Writes vars s

section Parts

variable {t : Template} {vars : Variables} {ss ss' : List Statement}

@[simp] theorem writesAll_nil : t.WritesAll vars [] := by simp [WritesAll]

@[simp] theorem writesAll_cons {s : Statement} :
    t.WritesAll vars (s :: ss) ↔ t.Writes vars s ∧ t.WritesAll vars ss := by
  unfold WritesAll
  exact List.forall_mem_cons

@[simp] theorem writesAll_append :
    t.WritesAll vars (ss ++ ss') ↔ t.WritesAll vars ss ∧ t.WritesAll vars ss' := by
  unfold WritesAll
  exact List.forall_mem_append

attribute [simp] Writes.closeBlock Writes.importer Writes.evaluate

theorem asked_of_test (wanted : vars.test "create_sptr" = .ok true) : ¬vars.Handleless := by
  intro handleless
  unfold Variables.test at wanted
  rw [handleless.unwanted] at wanted
  cases wanted

/-- Statements that are only made if they are wanted. -/
theorem writesAll_when {asked : Except Fault Bool} {own : Except Fault (List Statement)}
    (writes : asked = .ok true → ∀ ss, own = .ok ss → t.WritesAll vars ss)
    (run : (asked >>= fun wanted => if wanted then own else .ok []) = .ok ss) :
    t.WritesAll vars ss := by
  obtain ⟨wanted, isAsked, made⟩ := bind_eq_ok_iff.mp run
  cases wanted with
  | false =>
    cases made
    exact writesAll_nil
  | true => exact writes isAsked ss made

theorem writesAll_declareHandle (run : declareHandle vars = .ok ss) : t.WritesAll vars ss := by
  refine writesAll_when (fun wanted ss made => ?_) run
  cases made
  simp [Writes.declareHandles (asked_of_test wanted)]

theorem writesAll_declareHandleList (run : declareHandleList vars = .ok ss) :
    t.WritesAll vars ss := by
  refine writesAll_when (fun wanted ss made => ?_) run
  obtain ⟨names, _, made⟩ := bind_eq_ok_iff.mp made
  cases made
  simp [Writes.declareHandles (asked_of_test wanted)]

theorem writesAll_fetchHandle {tensor : String} (run : fetchHandle vars tensor = .ok ss) :
    t.WritesAll vars ss := by
  refine writesAll_when (fun wanted ss made => ?_) run
  cases made
  simp [Writes.fetch (asked_of_test wanted)]

theorem writesAll_fetchHandleList (run : fetchHandleList vars = .ok ss) : t.WritesAll vars ss := by
  unfold fetchHandleList at run
  simp only [bind_eq_ok_iff, pure_eq_ok_iff] at run
  obtain ⟨_, _, handles, isListed, outputs, _, rfl⟩ := run
  intro s member
  rw [← List.map_uncurry_zip_eq_zipWith] at member
  obtain ⟨⟨h, o⟩, paired, rfl⟩ := List.mem_map.mp member
  refine .fetch fun handleless => ?_
  -- Without names of handles there is nothing to pair with the outputs.
  unfold Variables.each at isListed
  rw [handleless.unnamed] at isListed
  cases isListed
  simp at paired

theorem writesAll_evaluation (run : evaluation vars = .ok ss) : t.WritesAll vars ss := by
  refine writesAll_when (fun _ ss made => ?_) run
  cases made
  simp

theorem writesAll_registerOne {source : TensorSource} {tensor : String} {layout : RegisterLayout}
    (inner : source.isParameter = false) (free : t ≠ .binaryTensor → source.isOverArray = false)
    (laidOut : layout ∈ RegisterLayout.all) (run : registerOne vars source tensor layout = .ok ss) :
    t.WritesAll vars ss := by
  unfold registerOne at run
  simp only [bind_eq_ok_iff, pure_eq_ok_iff] at run
  obtain ⟨_, _, rfl⟩ := run
  simp [Writes.register inner free laidOut]

/-- Whether what is registered is neither a parameter nor a tensor over an array. -/
def Plain (source : Except Fault TensorSource) : Prop :=
  ∀ made, source = .ok made → made.isParameter = false ∧ made.isOverArray = false

theorem plain_map {α : Type} {f : α → TensorSource} {x : Except Fault α}
    (plain : ∀ a, (f a).isParameter = false ∧ (f a).isOverArray = false) : Plain (f <$> x) := by
  intro made isMade
  obtain ⟨a, _, rfl⟩ := functor_map_eq_ok_iff.mp isMade
  exact plain a

theorem writesAll_registerFrom {counted : Bool} {i : Int}
    {sources : List (Except Fault TensorSource)} (plain : ∀ source ∈ sources, Plain source)
    (run : registerFrom vars counted i sources = .ok ss) : t.WritesAll vars ss := by
  induction sources generalizing i ss with
  | nil =>
    rw [registerFrom] at run
    cases run
    exact writesAll_nil
  | cons source rest ih =>
    obtain ⟨made, name, count, later, isMade, _, _, registered, rfl⟩ := registerFrom_cons run
    obtain ⟨inner, free⟩ := plain source List.mem_cons_self made isMade
    rw [writesAll_cons]
    exact ⟨.register inner (fun _ => free) (by decide),
      ih (fun source member => plain source (List.mem_cons_of_mem _ member)) registered⟩

theorem writesAll_registerList {sources : List (Except Fault TensorSource)}
    (plain : ∀ source ∈ sources, Plain source) (run : registerList vars sources = .ok ss) :
    t.WritesAll vars ss := by
  unfold registerList at run
  rw [bind_eq_ok_iff] at run
  obtain ⟨_, _, registered⟩ := run
  exact writesAll_registerFrom plain registered

theorem writesAll_registerRanged {type low high : Except Fault String}
    (run : registerRanged vars type low high = .ok ss) : t.WritesAll vars ss := by
  refine writesAll_registerList ?_ run
  simp only [List.forall_mem_cons]
  exact ⟨plain_map fun _ => ⟨rfl, rfl⟩, plain_map fun _ => ⟨rfl, rfl⟩,
    plain_map fun _ => ⟨rfl, rfl⟩, List.forall_mem_nil _⟩

theorem names_ne_nil {key : String} {names : List String} (run : vars.names key = .ok names) :
    names ≠ [] := by
  unfold Variables.names at run
  simp only [bind_eq_ok_iff, pure_eq_ok_iff] at run
  obtain ⟨_, _, _, _, rfl⟩ := run
  simp

theorem writesAll_computeOne {operator : String} (run : t.computeOne vars operator = .ok ss) :
    t.WritesAll vars ss := by
  unfold computeOne at run
  simp only [bind_eq_ok_iff, pure_eq_ok_iff] at run
  obtain ⟨_, inputs, rfl⟩ := run
  simp [Writes.compute (names_ne_nil inputs)]

theorem writesAll_computeList {operator : String} (run : t.computeList vars operator = .ok ss) :
    t.WritesAll vars ss := by
  unfold computeList at run
  simp only [bind_eq_ok_iff, pure_eq_ok_iff] at run
  obtain ⟨_, inputs, _, outputs, rfl⟩ := run
  simp [Writes.compute (names_ne_nil inputs) (names_ne_nil outputs)]

/-! ## Templates -/

theorem writesAll_loadTensor (run : loadTensorStatements vars = .ok ss) :
    t.WritesAll vars ss := by
  simp only [loadTensorStatements, bind_eq_ok_iff, pure_eq_ok_iff] at run
  obtain ⟨_, declared, _, registered, _, fetched, _, evaluated, rfl⟩ := run
  have opened : t.Writes vars (.openBlock "") := .openBlock (by decide)
  simp [opened, writesAll_declareHandle declared,
    writesAll_registerOne rfl (fun _ => rfl) (by decide) registered,
    writesAll_fetchHandle fetched, writesAll_evaluation evaluated]

theorem writesAll_binaryTensor (run : binaryTensorStatements vars = .ok ss) :
    binaryTensor.WritesAll vars ss := by
  simp only [binaryTensorStatements, bind_eq_ok_iff, pure_eq_ok_iff] at run
  obtain ⟨_, declared, _, registered, _, fetched, _, evaluated, rfl⟩ := run
  have opened : binaryTensor.Writes vars (.openBlock "    ") := .openBlock (by decide)
  simp [opened, writesAll_declareHandle declared,
    writesAll_registerOne rfl (absurd rfl) (by decide) registered,
    writesAll_fetchHandle fetched, writesAll_evaluation evaluated]

theorem writesAll_simple {source : TensorSource} {operator : String} {gap : List Statement}
    (plain : Plain (.ok source)) (between : t.WritesAll vars gap)
    (run : simpleStatements t vars source operator gap = .ok ss) : t.WritesAll vars ss := by
  obtain ⟨inner, free⟩ := plain source rfl
  simp only [simpleStatements, bind_eq_ok_iff, pure_eq_ok_iff] at run
  obtain ⟨_, declared, _, registered, _, computed, _, fetched, _, evaluated, rfl⟩ := run
  have opened : t.Writes vars (.openBlock "") := .openBlock (by decide)
  simp [opened, between, writesAll_declareHandle declared,
    writesAll_registerOne inner (fun _ => free) (by decide) registered,
    writesAll_computeOne computed, writesAll_fetchHandle fetched, writesAll_evaluation evaluated]

/-- The output that is made first has a name of its own, which is not that of a parameter. -/
theorem writesAll_shaped {operator : String} (extreme : t ∈ extremes)
    (run : shapedStatements t vars operator = .ok ss) : t.WritesAll vars ss := by
  have inner : (TensorSource.named "out_tensor").isParameter = false := by decide
  have opened : t.Writes vars (.openBlock "   ") := .openBlock (by decide)
  simp only [shapedStatements, bind_eq_ok_iff] at run
  obtain ⟨_, declared, shaped, _, run⟩ := run
  cases shaped with
  | false =>
    simp only [Bool.false_eq_true, if_false, bind_eq_ok_iff, pure_eq_ok_iff] at run
    obtain ⟨shape, none, _, registered, _, computed, _, fetched, _, evaluated, rfl⟩ := run
    simp [opened, Writes.declareOutput extreme, Writes.makeOutput extreme (.inl none.symm),
      writesAll_declareHandle declared,
      writesAll_registerOne inner (fun _ => rfl) (by decide) registered,
      writesAll_computeOne computed, writesAll_fetchHandle fetched, writesAll_evaluation evaluated]
  | true =>
    simp only [if_true, bind_eq_ok_iff, pure_eq_ok_iff] at run
    obtain ⟨sizes, listed, shape, sized, _, registered, _, computed, _, fetched, _, evaluated,
      rfl⟩ := run
    simp [opened, Writes.declareOutput extreme,
      Writes.makeOutput extreme (.inr ⟨sizes, listed, sized.symm⟩),
      writesAll_declareHandle declared,
      writesAll_registerOne inner (fun _ => rfl) (by decide) registered,
      writesAll_computeOne computed, writesAll_fetchHandle fetched, writesAll_evaluation evaluated]

theorem writesAll_single {members : Except Fault (List (List Statement))} (single : t ∈ singles)
    (run : t.statements vars members = .ok ss) : t.WritesAll vars ss := by
  have made : ∀ type, Plain (.ok (ram type)) := by
    rintro type _ ⟨⟩
    exact ⟨rfl, rfl⟩
  simp only [singles, List.mem_cons, List.not_mem_nil, or_false] at single
  rcases single with rfl | rfl | rfl | rfl | rfl | rfl
  · exact writesAll_simple (made _) (by simpa using .gap (by decide)) run
  · exact writesAll_simple (made _) writesAll_nil run
  · exact writesAll_simple (made _) writesAll_nil run
  · exact writesAll_simple (made _) writesAll_nil run
  · exact writesAll_shaped (by decide) run
  · exact writesAll_shaped (by decide) run

theorem writesAll_listStatements {trail : String} {registered : Except Fault (List Statement)}
    {operator : Except Fault String} (blank : Text.Blank trail)
    (registers : ∀ ss, registered = .ok ss → t.WritesAll vars ss)
    (run : listStatements t vars trail registered operator = .ok ss) : t.WritesAll vars ss := by
  simp only [listStatements, bind_eq_ok_iff, pure_eq_ok_iff] at run
  obtain ⟨_, declared, _, isRegistered, _, _, _, computed, _, fetched, _, evaluated, rfl⟩ := run
  simp [Writes.openBlock blank, writesAll_declareHandleList declared, registers _ isRegistered,
    writesAll_computeList computed, writesAll_fetchHandleList fetched,
    writesAll_evaluation evaluated]

theorem writesAll_plainListStatements {registered : Except Fault (List Statement)}
    {operator : Except Fault String} (registers : ∀ ss, registered = .ok ss → t.WritesAll vars ss)
    (run : plainListStatements t vars registered operator = .ok ss) : t.WritesAll vars ss := by
  simp only [plainListStatements, bind_eq_ok_iff, pure_eq_ok_iff] at run
  obtain ⟨_, isRegistered, _, _, _, computed, _, evaluated, rfl⟩ := run
  have opened : t.Writes vars (.openBlock "") := .openBlock (by decide)
  simp [opened, registers _ isRegistered, writesAll_computeList computed,
    writesAll_evaluation evaluated]

theorem writesAll_maxPool (run : maxPoolStatements vars = .ok ss) : maxPool.WritesAll vars ss := by
  simp only [maxPoolStatements, bind_eq_ok_iff, pure_eq_ok_iff] at run
  obtain ⟨_, declared, _, registered, _, computed, _, fetched, _, evaluated, rfl⟩ := run
  have opened : maxPool.Writes vars (.openBlock "") := .openBlock (by decide)
  have empty : maxPool.Writes vars (.line "") := .gap (by decide)
  have indented : maxPool.Writes vars (.line "    ") := .gap (by decide)
  simp [opened, empty, indented, writesAll_declareHandleList declared,
    writesAll_registerRanged registered, writesAll_computeList computed,
    writesAll_fetchHandleList fetched, writesAll_evaluation evaluated]

theorem writesAll_several {n : Nat} {members : Except Fault (List (List Statement))}
    (several : (t, n) ∈ severals) (run : t.statements vars members = .ok ss) :
    t.WritesAll vars ss := by
  have empty : Text.Blank "" := by decide
  simp only [severals, List.mem_cons, List.not_mem_nil, or_false, Prod.mk.injEq] at several
  rcases several with ⟨rfl, _⟩ | ⟨rfl, _⟩ | ⟨rfl, _⟩ | ⟨rfl, _⟩ | ⟨rfl, _⟩ | ⟨rfl, _⟩ | ⟨rfl, _⟩ |
    ⟨rfl, _⟩ | ⟨rfl, _⟩
  · exact writesAll_maxPool run
  · exact writesAll_listStatements empty (fun _ => writesAll_registerRanged) run
  · exact writesAll_listStatements empty (fun _ => writesAll_registerRanged) run
  · exact writesAll_listStatements empty (fun _ => writesAll_registerRanged) run
  · exact writesAll_listStatements empty (fun _ => writesAll_registerRanged) run
  · refine writesAll_listStatements empty (fun _ => writesAll_registerList ?_) run
    rintro source member made rfl
    simp only [List.mem_cons, List.not_mem_nil, or_false, or_self] at member
    cases member
    exact ⟨rfl, rfl⟩
  · exact writesAll_listStatements (by decide) (fun _ => writesAll_registerRanged) run
  · exact writesAll_plainListStatements (fun _ => writesAll_registerRanged) run
  · exact writesAll_plainListStatements (fun _ => writesAll_registerRanged) run

/-- The templates of operations write statements of their forms only. -/
theorem writesAll_statements {members : Except Fault (List (List Statement))}
    (listed : t ∈ ofOperations) (run : t.statements vars members = .ok ss) :
    t.WritesAll vars ss := by
  rcases List.mem_append.mp listed with front | several
  · rcases List.mem_append.mp front with isTensor | single
    · simp only [List.mem_cons, List.not_mem_nil, or_false] at isTensor
      rcases isTensor with rfl | rfl
      · exact writesAll_loadTensor run
      · exact writesAll_binaryTensor run
    · exact writesAll_single single run
  · obtain ⟨⟨_, n⟩, isSeveral, rfl⟩ := List.mem_map.mp several
    exact writesAll_several isSeveral run

end Parts

end Template

end Code

end TensorEmit
