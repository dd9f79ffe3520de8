import TensorEmit.Proofs.ConstantFiles
import TensorEmit.Proofs.ImportedGraphs
import TensorEmit.Proofs.StatementForms
import TensorEmit.Proofs.TensorNames

/-!
# The text of the emitted function

`Code.Reads` says which calls on the context a text makes, in terms of the text alone. A text is
read piece by piece: a call that adds a tensor or pushes an operator is spelled out, a comment runs
to the end of its line, and any other piece is quiet (`Code.Quiet`), that is, neither `ctx.add` nor
`ctx.push` stands in it. Such a piece ends a line or a block, so that no call can begin in one piece
and go on in the next.

The text of a statement is one piece (`Code.Statement.Legible`), provided that the code asks for no
handles on tensors, that type names and sizes are what they can be and that the names of operations
stay on one line. So the source that a run leaves on the disk reads as the calls of its operations
(`sourceReads_of_generate`).
-/

namespace TensorEmit

theorem Text.Blank.append {s t : String} (first : Text.Blank s) (second : Text.Blank t) :
    Text.Blank (s ++ t) := by
  intro c member
  rw [String.toList_append, List.mem_append] at member
  exact member.elim (first c) (second c)

theorem Text.Blank.no_x {s : String} (blank : Text.Blank s) : 'x' ∉ s.toList := by
  intro member
  exact absurd (blank 'x' member) (by decide)

theorem Text.blank_blanks (n : Nat) : Text.Blank (Text.blanks n) := by
  intro c member
  unfold Text.blanks at member
  rw [String.toList_ofList] at member
  exact .inl (List.eq_of_mem_replicate member)

namespace Code

/-! ## Reading a text -/

/-- A text in which no tensor is added and no operator is pushed. -/
def Quiet (s : String) : Prop :=
  ¬"ctx.add".toList <:+: s.toList ∧ ¬"ctx.push".toList <:+: s.toList

/-- Names between quotation marks, with commas and blanks between them. -/
inductive Quoted : List String → String → Prop
  | last {gap gap' : String} (name : String) (blank : Text.Blank gap) (blank' : Text.Blank gap') :
    Quoted [name] (gap ++ "\"" ++ name ++ "\"" ++ gap')
  | next {gap rest : String} {names : List String} (name : String) (blank : Text.Blank gap)
      (later : Quoted names rest) :
    Quoted (name :: names) (gap ++ "\"" ++ name ++ "\"," ++ rest)

/-- What stands behind the name of a tensor that is added: the number of its uses if it is given. -/
def usesText (gap : String) : Option String → String
  | none => ""
  | some count => "," ++ gap ++ count

/-- A piece of code with the call that it makes. -/
inductive Piece : String → Option ContextCall → Prop
  | quiet {text : String} (silent : Quiet text)
      (ended : text.toList.getLast? = some '\n' ∨ text.toList.getLast? = some '\x7d') :
    Piece text none
  | comment {note : String} (oneLine : '\n' ∉ note.toList) : Piece ("// " ++ note ++ "\n") none
  | add {object name gap : String} (count : Option String) (blank : Text.Blank gap) :
    Piece ("    ctx.add(" ++ object ++ "," ++ gap ++ "\"" ++ name ++ "\"" ++ usesText gap count ++
      ");\n") (some (.add name count))
  | push {operator reads makes gap gap' : String} {ins outs : List String} (blank : Text.Blank gap)
      (blank' : Text.Blank gap') (inputs : Quoted ins reads) (outputs : Quoted outs makes) :
    Piece ("    ctx.push(new " ++ operator ++ "," ++ gap ++ "\x7b" ++ reads ++ "\x7d," ++ gap' ++
      "\x7b" ++ makes ++ "\x7d);\n") (some (.push ins outs))

/-- A text makes calls, in order. -/
inductive Reads : String → List ContextCall → Prop
  | done : Reads "" []
  | next {text rest : String} {call : Option ContextCall} {calls : List ContextCall}
      (piece : Piece text call) (later : Reads rest calls) :
    Reads (text ++ rest) (call.toList ++ calls)

/-- The text of a statement is a piece of code with the call of the statement. -/
def Statement.Legible (s : Statement) : Prop := Piece s.text s.call?

theorem textOf_cons (s : Statement) (ss : List Statement) :
    textOf (s :: ss) = s.text ++ textOf ss :=
  String.join_cons

theorem textOf_append (ss ss' : List Statement) : textOf (ss ++ ss') = textOf ss ++ textOf ss' := by
  unfold textOf
  rw [List.map_append, String.join_append]

/-- Legible statements read as the calls that they make. -/
theorem reads_textOf {ss : List Statement} (legible : ∀ s ∈ ss, s.Legible) :
    Reads (textOf ss) (contextCalls ss) := by
  induction ss with
  | nil => exact .done
  | cons s ss ih =>
    rw [textOf_cons, contextCalls_cons]
    exact .next (legible s List.mem_cons_self)
      (ih fun s member => legible s (List.mem_cons_of_mem _ member))

/-! ## Quiet texts -/

/-- A text is quiet if it lacks a character of each of the two calls. -/
theorem quiet_of_not_mem {s : String} {a b : Char} (inAdd : a ∈ "ctx.add".toList)
    (inPush : b ∈ "ctx.push".toList) (noAdd : a ∉ s.toList) (noPush : b ∉ s.toList) : Quiet s :=
  ⟨fun inside => noAdd (inside.mem inAdd), fun inside => noPush (inside.mem inPush)⟩

/-- Both calls are spelled with an `x`. -/
theorem quiet_of_no_x {s : String} (free : 'x' ∉ s.toList) : Quiet s :=
  quiet_of_not_mem (by decide) (by decide) free free

theorem getLast?_append_newline (s : String) : (s ++ "\n").toList.getLast? = some '\n' := by
  rw [String.toList_append]
  exact List.getLast?_concat

/-- A text without an `x` that ends a line. -/
theorem piece_line {text : String} (free : 'x' ∉ text.toList) : Piece (text ++ "\n") none := by
  refine .quiet (quiet_of_no_x ?_) (.inl (getLast?_append_newline text))
  rw [String.toList_append, List.mem_append]
  exact not_or.mpr ⟨free, by decide⟩

theorem legible_closeBlock : Statement.closeBlock.Legible :=
  .quiet (quiet_of_no_x (by decide)) (.inr rfl)

/-! ## Registrations and computations -/

theorem text_register_oneLine (source : TensorSource) (name : String) (count : Option String) :
    (Statement.register source name count .oneLine).text = "    ctx.add(" ++ source.text ++ "," ++
      " " ++ "\"" ++ name ++ "\"" ++ usesText " " count ++ ");\n" := by
  rw [← String.toList_inj]
  unfold Statement.text
  cases count with
  | none => simp [blockIndent, usesText]
  | some c => simp [blockIndent, usesText]

theorem text_register_spread (source : TensorSource) (name tail : String) (count : Option String) :
    (Statement.register source name count (.spread tail)).text = "    ctx.add(" ++ source.text ++
      "," ++ (tail ++ "\n" ++ Text.blanks 12) ++ "\"" ++ name ++ "\"" ++
        usesText (tail ++ "\n" ++ Text.blanks 12) count ++ ");\n" := by
  rw [← String.toList_inj]
  unfold Statement.text
  generalize Text.blanks 12 = margin
  cases count with
  | none => simp [blockIndent, usesText]
  | some c => simp [blockIndent, usesText]

theorem legible_register {source : TensorSource} {name : String} {count : Option String}
    {layout : RegisterLayout} (laidOut : layout ∈ RegisterLayout.all) :
    (Statement.register source name count layout).Legible := by
  unfold Statement.Legible
  simp only [RegisterLayout.all, List.mem_cons, List.not_mem_nil, or_false] at laidOut
  rcases laidOut with rfl | rfl | rfl
  · rw [text_register_oneLine]
    exact .add count (by decide)
  · rw [text_register_spread]
    exact .add count (by decide)
  · rw [text_register_spread]
    exact .add count (by decide)

/-- The gaps of a layout are blank. -/
def ListLayout.Blank (l : ListLayout) : Prop := Text.Blank l.eachGap ∧ Text.Blank l.lastGap

instance (l : ListLayout) : Decidable l.Blank :=
  inferInstanceAs (Decidable (Text.Blank l.eachGap ∧ Text.Blank l.lastGap))

/-- What stands behind the opening brace of a list of names. -/
def ListLayout.inner (l : ListLayout) (names : List String) : String :=
  String.join (names.dropLast.map fun n => l.eachGap ++ "\"" ++ n ++ "\", ") ++ l.lastGap ++ "\"" ++
    names.getLastD "" ++ "\" "

theorem ListLayout.inner_cons_cons (l : ListLayout) (name name' : String) (names : List String) :
    l.inner (name :: name' :: names) =
      l.eachGap ++ "\"" ++ name ++ "\"," ++ (" " ++ l.inner (name' :: names)) := by
  rw [← String.toList_inj]
  simp [inner, String.join_cons]

/-- Behind a comma one blank stands before the gap of the next name, as behind the brace. -/
theorem ListLayout.quoted_inner {l : ListLayout} (blank : l.Blank) {names : List String}
    (some : names ≠ []) {gap : String} (before : Text.Blank gap) :
    Quoted names (gap ++ l.inner names) := by
  induction names generalizing gap with
  | nil => exact absurd rfl some
  | cons name names ih =>
    cases names with
    | nil =>
      have quoted := Quoted.last name (before.append blank.2) (show Text.Blank " " by decide)
      have spelled : gap ++ l.inner [name] = gap ++ l.lastGap ++ "\"" ++ name ++ "\"" ++ " " := by
        rw [← String.toList_inj]
        simp [inner]
      rwa [spelled]
    | cons name' names =>
      have later := ih (by simp) (show Text.Blank " " by decide)
      have quoted := Quoted.next name (before.append blank.1) later
      rw [inner_cons_cons]
      simpa only [String.append_assoc] using quoted

theorem ListLayout.text_eq (l : ListLayout) (names : List String) :
    l.text names = "\x7b" ++ (" " ++ l.inner names) ++ "\x7d" := by
  rw [← String.toList_inj]
  simp [text, inner]

/-- The lists of a layout have blank gaps, and what ends its lines is a comma and blanks. -/
structure ComputeLayout.Tidy (l : ComputeLayout) : Prop where
  head : ∃ gap, l.headTail = "," ++ gap ∧ Text.Blank gap
  inputs : l.inputs.Blank
  between : ∃ gap, l.inputsTail = "," ++ gap ∧ Text.Blank gap
  outputs : l.outputs.Blank

theorem Template.layout_tidy (t : Template) : t.layout.Tidy := by
  have comma : ∃ gap, "," = "," ++ gap ∧ Text.Blank gap := ⟨"", by decide⟩
  have wide : ∃ gap, ", " = "," ++ gap ∧ Text.Blank gap := ⟨" ", by decide⟩
  unfold layout
  split
  · exact ⟨comma, by decide, wide, by decide⟩
  · exact ⟨comma, by decide, wide, by decide⟩
  · exact ⟨wide, by decide, comma, by decide⟩
  · exact ⟨wide, by decide, comma, by decide⟩
  · exact ⟨comma, by decide, comma, by decide⟩
  · exact ⟨comma, by decide, comma, by decide⟩
  · exact ⟨comma, by decide, comma, by decide⟩
  · exact ⟨comma, by decide, comma, by decide⟩
  · exact ⟨wide, by decide, comma, by decide⟩

theorem legible_compute {operator : String} {ins outs : List String} {l : ComputeLayout}
    (tidy : l.Tidy) (reads : ins ≠ []) (makes : outs ≠ []) :
    (Statement.compute operator ins outs l).Legible := by
  obtain ⟨gap, head, blank⟩ := tidy.head
  obtain ⟨gap', between, blank'⟩ := tidy.between
  have newline : Text.Blank "\n" := by decide
  have one : Text.Blank " " := by decide
  have piece := @Piece.push operator _ _ _ _ ins outs
    ((blank.append newline).append (Text.blank_blanks l.indent))
    ((blank'.append newline).append (Text.blank_blanks l.indent))
    (ListLayout.quoted_inner tidy.inputs reads one) (ListLayout.quoted_inner tidy.outputs makes one)
  have spelled : (Statement.compute operator ins outs l).text = "    ctx.push(new " ++ operator ++
      "," ++ (gap ++ "\n" ++ Text.blanks l.indent) ++ "\x7b" ++ (" " ++ l.inputs.inner ins) ++
      "\x7d," ++ (gap' ++ "\n" ++ Text.blanks l.indent) ++ "\x7b" ++
      (" " ++ l.outputs.inner outs) ++ "\x7d);\n" := by
    rw [← String.toList_inj]
    unfold Statement.text
    simp [ListLayout.text_eq, head, between, blockIndent]
  unfold Statement.Legible
  rw [spelled]
  exact piece

/-! ## Statements of operations -/

/-- The types and sizes that variables show are spelled without an `x`. -/
structure Variables.Sized (vars : Variables) : Prop where
  type : 'x' ∉ (vars.show "out_dtype").toList
  sizes : ∀ sizes, vars.names "out_shape" = .ok sizes → ∀ size ∈ sizes, 'x' ∉ size.toList

theorem no_x_intercalate {sep : String} {texts : List String} (between : 'x' ∉ sep.toList)
    (free : ∀ s ∈ texts, 'x' ∉ s.toList) : 'x' ∉ (sep.intercalate texts).toList := by
  rw [String.toList_intercalate]
  intro member
  rcases Text.mem_intercalate member with inSep | ⟨_, listed, inside⟩
  · exact between inSep
  · obtain ⟨s, given, rfl⟩ := List.mem_map.mp listed
    exact free s given inside

section Lines

variable {vars : Variables} (sized : vars.Sized)

include sized

theorem no_x_declareOutput :
    'x' ∉ (blockIndent ++ "RamTensor<" ++ vars.show "out_dtype" ++ ">* out_tensor;").toList := by
  simpa [blockIndent] using sized.type

theorem no_x_makeOutput {shape : String} (spelled : shape = "" ∨ ∃ sizes,
      vars.names "out_shape" = .ok sizes ∧ shape = "\x7b " ++ ", ".intercalate sizes ++ " \x7d") :
    'x' ∉ (blockIndent ++ "out_tensor = new RamTensor<" ++ vars.show "out_dtype" ++ ">(" ++ shape ++
      ");").toList := by
  have type := sized.type
  rcases spelled with rfl | ⟨sizes, listed, rfl⟩
  · simpa [blockIndent] using type
  · have free := @no_x_intercalate ", " sizes (by decide) (sized.sizes sizes listed)
    simpa [blockIndent, type] using free

end Lines

/-- The statements of an operation are legible if no handles are asked for. -/
theorem Template.Writes.legible {t : Template} {vars : Variables} {s : Statement}
    (writes : t.Writes vars s) (handleless : vars.Handleless)
    (sized : t ∈ extremes → vars.Sized) : s.Legible := by
  cases writes with
  | declareHandles asked => exact absurd handleless asked
  | fetch asked => exact absurd handleless asked
  | openBlock blank =>
    refine piece_line ?_
    rw [String.toList_append, List.mem_append]
    exact not_or.mpr ⟨by decide, blank.no_x⟩
  | closeBlock => exact legible_closeBlock
  | gap blank => exact piece_line blank.no_x
  | importer =>
    exact .quiet (@quiet_of_not_mem _ 'c' 'c' (by decide) (by decide) (by decide) (by decide))
      (.inl rfl)
  | declareOutput made => exact piece_line (no_x_declareOutput (sized made))
  | makeOutput made shape => exact piece_line (no_x_makeOutput (sized made) shape)
  | register _ _ laidOut => exact legible_register laidOut
  | compute reads makes => exact legible_compute t.layout_tidy reads makes
  | evaluate =>
    exact .quiet (@quiet_of_not_mem _ 'd' 'p' (by decide) (by decide) (by decide) (by decide))
      (.inl rfl)

/-! ## Sizes and types -/

theorem no_x_decimal (n : Int) : 'x' ∉ (toString n).toList := by
  have digits : ∀ m : Nat, 'x' ∉ (toString m).toList := fun m member =>
    absurd (Text.isDigit_of_mem_decimal member) (by decide)
  cases n with
  | ofNat m => exact digits m
  | negSucc m =>
    have spelled : toString (Int.negSucc m) = "-" ++ toString (m + 1) := rfl
    rw [spelled, String.toList_append, List.mem_append]
    exact not_or.mpr ⟨by decide, digits (m + 1)⟩

theorem no_x_of_isSize {v : Value} (size : Tensor.isSize v) : 'x' ∉ v.plain.toList := by
  cases v with
  | int n => exact no_x_decimal n
  | bool b =>
    cases b with
    | false => decide
    | true => decide
  | none => decide
  | _ => cases size

/-- The texts of the members of a list are those of its members. -/
theorem mem_names_of_list {vars : Variables} {key : String} {vs : List Value} {names : List String}
    (found : vars.get? key = some (.list vs)) (run : vars.names key = .ok names) :
    ∀ s ∈ names, s = "" ∨ ∃ v ∈ vs, s = v.plain := by
  unfold Variables.names Variables.allButLast Variables.at at run
  rw [found] at run
  cases run
  intro s member
  rcases List.mem_append.mp member with front | last
  · obtain ⟨v, inside, rfl⟩ := List.mem_map.mp front
    exact .inr ⟨v, (List.dropLast_sublist vs).subset inside, rfl⟩
  · rw [List.mem_singleton.mp last]
    cases picked : memberOf (.list vs) (-1) with
    | none => exact .inl rfl
    | some v => exact .inr ⟨v, mem_of_pick (show pick vs (-1) = some v from picked), rfl⟩

theorem no_x_element {t : ElementType} {names : TypeName} (known : TypeName.of? t = some names) :
    'x' ∉ names.element.toList := by
  unfold TypeName.of? at known
  split at known <;> cases known <;> decide

end Code

open Code

theorem isSize_of_shapeOrSingle {out : Tensor} (shaped : Tensor.checkShape out.shape = .ok ()) :
    ∃ vs, Operation.shapeOrSingle out = .list vs ∧ ∀ v ∈ vs, Tensor.isSize v := by
  unfold Operation.shapeOrSingle
  split
  case h_1 v vs known =>
    unfold Tensor.checkShape at shaped
    rw [known] at shaped
    split at shaped
    case isTrue sizes => exact ⟨v :: vs, rfl, List.all_eq_true.mp sizes⟩
    case isFalse => cases shaped
  case h_2 => exact ⟨[.int 1], rfl, by simp [Tensor.isSize]⟩

theorem Operation.MadeVariables.sized {vars : Variables} {out : Tensor}
    (made : MadeVariables vars out) (shaped : Tensor.checkShape out.shape = .ok ()) :
    vars.Sized := by
  obtain ⟨names, known, type⟩ := made.type
  obtain ⟨vs, isList, sizes⟩ := isSize_of_shapeOrSingle shaped
  constructor
  · rw [show_of_text type]
    exact no_x_element known
  · intro texts listed size member
    have found := made.shape
    rw [isList] at found
    rcases mem_names_of_list found listed size member with rfl | ⟨v, inside, rfl⟩
    · decide
    · exact no_x_of_isSize (sizes v inside)

/-! ## Fragments and drafts -/

/-- Operations whose code is legible: their inputs have names without padding, their tensors sizes
that can be sizes, and their own names stay on one line. -/
structure Operation.Readable (op : Operation) : Prop where
  unpadded : ∀ s ∈ op.readNames, Text.Unpadded s
  shaped : op.Shaped
  oneLine : op.OneLine

/-- What is emitted for an operation asks for no handles and shows types and sizes as they can
be. -/
theorem variables_of_emitOperation {target : Target} {op : Operation} {f : Fragment}
    {e e' : Emission} (unpadded : ∀ s ∈ op.readNames, Text.Unpadded s) (shaped : op.Shaped)
    (run : (emitOperation target op).runOn e = (e', .ok f)) :
    ∃ t vars, f = .of t vars ∧ vars.Handleless ∧ (t ∈ Template.extremes → vars.Sized) := by
  cases kind : OperatorKind.ofType? op.type with
  | none =>
    unfold emitOperation at run
    rw [kind] at run
    exact absurd run Emit.runOn_throw_ne_ok
  | some k =>
    cases emits_of_emitOperation kind unpadded run with
    | tensor _ _ fragment =>
      obtain ⟨t, vars, _, _, rfl, isTensor, _, _, held⟩ := fragment
      refine ⟨t, vars, rfl, held.handleless, fun extreme => ?_⟩
      rcases isTensor with rfl | rfl
      · exact absurd extreme (by decide)
      · exact absurd extreme (by decide)
    | single _ _ _ fragment =>
      obtain ⟨t, vars, out, _, rfl, _, found, _, held, made⟩ := fragment
      have shaped := shaped out
        (List.mem_append_right _ (List.mem_of_head? (Operation.head?_of_output found)))
      exact ⟨t, vars, rfl, held.handleless, fun extreme => (made extreme).sized shaped⟩
    | list _ _ _ fragment =>
      obtain ⟨t, vars, rfl, several, held⟩ := fragment
      have other : ∀ e ∈ Template.severals, e.1 ∉ Template.extremes := by decide
      exact ⟨t, vars, rfl, held.handleless, fun extreme => absurd extreme (other _ several)⟩

/-- The code of an operation is legible. -/
theorem emitOperation_legible {target : Target} {op : Operation} {f : Fragment} {e e' : Emission}
    {ss : List Statement} (readable : op.Readable)
    (run : (emitOperation target op).runOn e = (e', .ok f)) (stated : f.statements = .ok ss) :
    ∀ s ∈ ss, s.Legible := by
  obtain ⟨t, vars, rfl, handleless, sized⟩ :=
    variables_of_emitOperation readable.unpadded readable.shaped run
  obtain ⟨_, listed, _, same⟩ := emitOperation_template run
  cases same
  obtain ⟨_, stated⟩ := Fragment.statements_of stated
  exact fun s member =>
    (Template.writesAll_statements listed stated s member).legible handleless sized

/-- The comment behind an operation whose name stays on one line is legible. -/
theorem operationComment_legible {i : Nat} {name : String} {ss : List Statement}
    (oneLine : '\n' ∉ name.toList) (stated : (operationComment i name).statements = .ok ss) :
    ∀ s ∈ ss, s.Legible := by
  have digits : ∀ m : Nat, '\n' ∉ (toString m).toList := fun m member =>
    absurd (Text.isDigit_of_mem_decimal member) (by decide)
  have note : ∀ (front : String) (m : Nat), '\n' ∉ front.toList →
      '\n' ∉ (front ++ toString m ++ ": " ++ name).toList := by
    intro front m free
    simp only [String.toList_append, List.mem_append, not_or]
    exact ⟨⟨⟨free, digits m⟩, by decide⟩, oneLine⟩
  unfold operationComment at stated
  rw [Fragment.statements_eq] at stated
  cases stated
  exact List.forall_mem_cons.mpr ⟨.comment (note "<<< Operation id " i (by decide)),
    List.forall_mem_cons.mpr ⟨.comment (note ">>> Operation id " (i + 1) (by decide)),
      List.forall_mem_nil _⟩⟩

/-- The members of a draft are legible. -/
def Draft.Legible (d : Draft) : Prop :=
  ∀ f ∈ d.members, ∀ ss, f.statements = .ok ss → ∀ s ∈ ss, s.Legible

theorem Draft.Legible.addMember {d : Draft} {f : Fragment} (legible : d.Legible)
    (own : ∀ ss, f.statements = .ok ss → ∀ s ∈ ss, s.Legible) :
    Draft.Legible { d with members := d.members ++ [f] } := by
  intro f' member
  rcases List.mem_append.mp member with earlier | last
  · exact legible f' earlier
  · rw [List.mem_singleton.mp last]
    exact own

/-- Everything that is emitted for readable operations is legible. -/
theorem legible_addOperations {target : Target} {comments : Bool} {g : Graph} {names : List String}
    (readable : ∀ op ∈ names.filterMap g.find?, op.Readable) {i : Nat} {d : Draft} {e e' : Emission}
    (run : (addOperations target comments g i .empty names).runOn e = (e', .ok d)) : d.Legible := by
  refine addOperations_invariant (fun _ d _ => d.Legible) ?_ ?_
    (show Draft.empty.Legible from List.forall_mem_nil _) run
  · intro done op d e d' e' member legible adds
    cases adds with
    | input _ _ _ => exact legible
    | code _ emitted =>
      exact legible.addMember fun ss stated =>
        emitOperation_legible (readable op member) emitted stated
  · intro done op d e i sets member legible
    exact legible.addMember fun ss stated =>
      operationComment_legible (readable op member).oneLine stated

/-! ## Whole runs -/

theorem Draft.legible_inputStatements (d : Draft) : ∀ s ∈ d.inputStatements, s.Legible := by
  have registers : ∀ (i : Nat) (inputs : List (Value × Value)),
      ∀ s ∈ Template.registerInputs i inputs, s.Legible := by
    intro i inputs
    induction inputs generalizing i with
    | nil => exact List.forall_mem_nil _
    | cons e rest ih => exact List.forall_mem_cons.mpr ⟨legible_register (by decide), ih (i + 1)⟩
  unfold inputStatements
  split
  · exact List.forall_mem_nil _
  · simp only [List.forall_mem_append, List.forall_mem_cons]
    exact ⟨⟨⟨piece_line (by decide), piece_line (by decide), List.forall_mem_nil _⟩, registers 0 _⟩,
      piece_line (by decide), List.forall_mem_nil _⟩

/-- The function of a draft with legible members reads as the calls that it makes. -/
theorem Draft.Legible.reads {d : Draft} {graph : String} {body : List Statement}
    (legible : d.Legible) (run : d.statements graph = .ok body) :
    ∃ parameters code,
      textOf body = "void get_" ++ graph ++ "_ctx(" ++ parameters ++ ") \x7b\n" ++ code ∧
      Reads code (contextCalls body) := by
  obtain ⟨sss, made, rfl⟩ := statements_ok run
  have members : ∀ s ∈ Template.memberStatements sss, s.Legible := by
    intro s member
    obtain ⟨ss, inside, listed⟩ := List.mem_flatMap.mp member
    obtain ⟨f, given, stated⟩ := exists_of_mem_mapM made inside
    rcases List.mem_append.mp listed with own | gap
    · exact legible f given ss stated s own
    · rw [List.mem_singleton.mp gap]
      exact piece_line (by decide)
  have legible : ∀ s ∈ d.inputStatements ++ Template.memberStatements sss ++ [.closeBlock],
      s.Legible := by
    simp only [List.forall_mem_append, List.forall_mem_cons]
    exact ⟨⟨d.legible_inputStatements, members⟩, legible_closeBlock, List.forall_mem_nil _⟩
  have code := reads_textOf legible
  refine ⟨EntryPoint.parameters ⟨graph, d.inputs.length⟩, _, ?_, code⟩
  rw [List.append_assoc, List.append_assoc, List.singleton_append, textOf_cons, List.append_assoc]
  generalize textOf _ = code
  rw [← String.toList_inj]
  unfold Statement.text
  simp [EntryPoint.head]

/-- The text of a source file: a comment, the lines for headers and the function. -/
theorem sourceText_eq (hs : Headers) (body : List Statement) :
    sourceText hs body = "// Auto generated by utensor-cli\n\n" ++
      includeLines (Headers.addAll [] hs) ++ "\n\n" ++ textOf body := by
  unfold sourceText composed banner
  rw [String.join_cons, String.join_nil, String.append_empty]
  simp only [String.append_assoc]

/-- At a path there is a source file in which the function of a graph makes calls on its context. -/
def Disk.SourceReads (disk : Disk) (path graph : String) (calls : List ContextCall) : Prop :=
  ∃ place hs parameters code, disk.Takes path place ∧
    disk.files.get? place = some (.text ("// Auto generated by utensor-cli\n\n" ++
      includeLines hs ++ "\n\n" ++ "void get_" ++ graph ++ "_ctx(" ++ parameters ++ ") \x7b\n" ++
      code)) ∧
    Reads code calls

/-- After a run that succeeds the source reads as the calls of the operations of the graph that the
run comes to, in the order of evaluation. -/
theorem sourceReads_of_generate [Importer] (names : Importer.ChecksNames) {quantizer : Quantizer}
    {r : Request} {source : Value} {dataDir embedDir path : String} {g : Graph} {e e' : Emission}
    (run : (generate quantizer r source).runOn e = (e', .ok ()))
    (reaches : r.Reaches quantizer source e.site dataDir embedDir path g)
    (arity : ∀ op ∈ g.orderedOps, Operation.registeredOutputs op.type = some op.outputs.length) :
    ∃ model e₀ e₁ methods, r.model = .text model ∧
      (transformedGraph quantizer r model).runOn e₀ = (e₁, .ok (g, methods)) ∧
      e'.site.disk.SourceReads path (OutputNames.of model path).graph (callsOf g.orderedOps) := by
  obtain ⟨dataDir', site, embedDir', model, path', _, isDir, prepared, embedded, found, isSource,
    ran⟩ := generate_ok_iff.mp run
  obtain ⟨g', methods', e₁, e₂, d, e₃, transformed, _, added, written⟩ :=
    generateFromModel_ok_iff.mp ran
  obtain ⟨nodes, read, passed⟩ := passedGraph_of_transformedGraph transformed
  have isModel := modelPath_ok found
  obtain ⟨rfl, rfl⟩ := reaches.unique
    ⟨isDir, embedded, isSource, model, site, nodes, methods', isModel, prepared, read, passed⟩
  obtain ⟨hs, body, place, stated, _, takes, there, _⟩ := writeAll_ok dataDir written
  have unpadded : ∀ op ∈ g.orderedOps, ∀ s ∈ op.readNames, Text.Unpadded s := fun op member =>
    Graph.unpadded_of_transformedGraph transformed member
  have readable : ∀ op ∈ g.orderedOps, op.Readable := by
    intro op member
    have inGraph := Graph.mem_of_find? (Graph.mem_orderedOps.mp member).2
    exact ⟨unpadded op member, Graph.shaped_of_transformedGraph transformed op inGraph,
      Graph.oneLine_of_transformedGraph transformed names op inGraph⟩
  obtain ⟨parameters, code, isText, reads⟩ := (legible_addOperations readable added).reads stated
  have calls : contextCalls body = callsOf g.orderedOps := by
    have emitted := (emittedBody_of_draft (congrArg Prod.snd added)).trans stated
    exact contextCalls_emittedBody (fun op member => ⟨arity op member, unpadded op member⟩) emitted
  rw [calls] at reads
  refine ⟨model, _, e₁, methods', isModel, transformed, place, Headers.addAll [] hs, parameters,
    code, takes, ?_, reads⟩
  rw [there, sourceText_eq, isText]
  simp only [String.append_assoc]

end TensorEmit
