import TensorEmit.Proofs.Importing
import TensorEmit.Proofs.Texts
import TensorEmit.Proofs.WholeRuns

/-!
# Files of constants

Every constant that is not inlined is stored in a file of its own name, and the emitted code loads
it from there. The file's name is the name of the tensor with two marks replaced, so two constants
can have files of one name. `const_file_holds_last_value` says what is in such a file when a run has
finished: the last one of these constants, in the order of evaluation.
-/

namespace TensorEmit

open Code

/-! ## The last part of a path -/

namespace Path

theorem baseChars_append {front back : List Char} (free : '/' ∉ back) :
    baseChars (front ++ back) = baseChars front ++ back := by
  have all : ∀ c ∈ back.reverse, decide (c ≠ '/') = true := by
    intro c member
    rw [List.mem_reverse] at member
    simpa using fun same : c = '/' => free (same ▸ member)
  unfold baseChars
  rw [List.reverse_append, List.takeWhile_append_of_pos all, List.reverse_append,
    List.reverse_reverse]

theorem baseChars_of_getLast? {cs : List Char} (closed : cs = [] ∨ cs.getLast? = some '/') :
    baseChars cs = [] := by
  rcases closed with rfl | last
  · rfl
  · rw [← List.head?_reverse] at last
    obtain ⟨rest, reversed⟩ := List.head?_eq_some_iff.mp last
    unfold baseChars
    rw [reversed]
    simp

theorem base_append {front back : String} (free : '/' ∉ back.toList) :
    base (front ++ back) = base front ++ back := by
  unfold base
  rw [String.toList_append, baseChars_append free, String.ofList_append, String.ofList_toList]

theorem base_of_getLast? {path : String} (closed : path = "" ∨ path.toList.getLast? = some '/') :
    base path = "" := by
  have chars : path.toList = [] ∨ path.toList.getLast? = some '/' := by
    rcases closed with rfl | last
    · exact .inl rfl
    · exact .inr last
  unfold base
  rw [baseChars_of_getLast? chars]

/-- A name below a directory is the last part of the path. -/
theorem base_join {dir name : String} (free : '/' ∉ name.toList) : base (join dir name) = name := by
  have noPath : name.toList.head? ≠ some '/' := fun first => free (List.mem_of_head? first)
  unfold join
  rw [if_neg noPath]
  split
  case isTrue closed =>
    rw [Bool.or_eq_true, decide_eq_true_eq, decide_eq_true_eq] at closed
    rw [base_append free, base_of_getLast? closed]
    exact String.empty_append
  case isFalse =>
    have closed : (dir ++ "/").toList.getLast? = some '/' := by simp
    rw [base_append free, base_of_getLast? (.inr closed)]
    exact String.empty_append

end Path

/-- The last separator starts the last part. -/
theorem Text.splitChars_append_last {sep : Char} (front : List Char) {back : List Char}
    (free : sep ∉ back) (part : List Char) :
    splitChars [sep] (front ++ sep :: back) part 0 = splitChars [sep] front part 0 ++ [back] := by
  induction front generalizing part with
  | nil =>
    show splitChars [sep] (sep :: back) part 0 = [part.reverse, back]
    rw [splitChars, if_pos (by simp)]
    show part.reverse :: splitChars [sep] back [] 0 = _
    rw [splitChars_of_not_mem free]
    rfl
  | cons c front ih =>
    rw [List.cons_append, splitChars, splitChars]
    by_cases same : sep = c
    · subst same
      rw [if_pos (by simp), if_pos (by simp)]
      exact congrArg (_ :: ·) (ih [])
    · rw [if_neg (by simpa using same), if_neg (by simpa using same)]
      exact ih (c :: part)

namespace Path

/-- The characters of a path end in its last part, and before it there is nothing or a slash. -/
theorem exists_front (cs : List Char) :
    ∃ front, cs = front ++ baseChars cs ∧ (front = [] ∨ front.getLast? = some '/') := by
  refine ⟨(cs.reverse.dropWhile (· ≠ '/')).reverse, ?_, ?_⟩
  · unfold baseChars
    rw [← List.reverse_append, List.takeWhile_append_dropWhile, List.reverse_reverse]
  · rw [List.reverse_eq_nil_iff, List.getLast?_reverse]
    cases rest : cs.reverse.dropWhile (· ≠ '/') with
    | nil => exact .inl rfl
    | cons c cs' =>
      have slash := List.head?_dropWhile_not (· ≠ '/') cs.reverse
      rw [rest] at slash
      exact .inr (by simpa using slash)

theorem slash_not_mem_baseChars (cs : List Char) : '/' ∉ baseChars cs := by
  intro member
  have other := List.all_eq_true.mp List.all_takeWhile '/' (List.mem_reverse.mp member)
  cases other

theorem steps_ofList (cs : List Char) : steps (String.ofList cs) =
    ((Text.splitChars ['/'] cs [] 0).map String.ofList).filter (· ≠ "") := by
  unfold steps Text.splitAt
  rw [show ("/" : String).toList = ['/'] from rfl, String.toList_ofList]

/-- A slash ends a step. -/
theorem steps_slash {front back : List Char} (free : '/' ∉ back) :
    steps (String.ofList (front ++ '/' :: back)) =
      steps (String.ofList front) ++ [String.ofList back].filter (· ≠ "") := by
  rw [steps_ofList, steps_ofList, Text.splitChars_append_last front free, List.map_append,
    List.filter_append]
  rfl

/-- The steps of a path are those of the way to its last part, and that part. -/
theorem steps_append {path : String} {front back : List Char} (chars : path.toList = front ++ back)
    (closed : front = [] ∨ front.getLast? = some '/') (free : '/' ∉ back) (named : back ≠ []) :
    steps path = steps (String.ofList front) ++ [String.ofList back] := by
  have last : [String.ofList back].filter (· ≠ "") = [String.ofList back] := by
    rw [List.filter_cons_of_pos (by simpa using named)]
    rfl
  rw [← String.ofList_toList (s := path), chars]
  rcases closed with rfl | slash
  · rw [List.nil_append, steps_ofList, Text.splitChars_of_not_mem free]
    exact last
  · obtain ⟨way, rfl⟩ := List.getLast?_eq_some_iff.mp slash
    rw [List.append_assoc, List.singleton_append, steps_slash free, last,
      steps_slash List.not_mem_nil]
    exact congrArg (· ++ _) (List.append_nil _).symm

/-- The steps of a path end in its last part. -/
theorem steps_eq {path : String} (named : base path ≠ "") :
    ∃ way, steps path = way ++ [base path] := by
  obtain ⟨front, whole, closed⟩ := exists_front path.toList
  have some : baseChars path.toList ≠ [] := fun none => named (by rw [base, none])
  exact ⟨_, steps_append whole closed (slash_not_mem_baseChars _) some⟩

end Path

namespace Disk

/-- A way with a last step leads to a directory before that step, whatever path it is for. -/
theorem walk_append {d : Disk} {path : String} {p q : Place} {names : List String} {last : String}
    (run : d.walk path p (names ++ [last]) = .ok q) :
    ∃ q', (∀ path', d.walk path' p names = .ok q') ∧ d.isDir q' = true ∧ q = q'.step last := by
  induction names generalizing p with
  | nil =>
    rw [List.nil_append, walk, bind_eq_ok_iff] at run
    obtain ⟨_, passed, made⟩ := run
    exact ⟨p, fun _ => rfl, checkDir_eq_ok_iff.mp passed, (Except.ok.inj made).symm⟩
  | cons name rest ih =>
    rw [List.cons_append, walk, bind_eq_ok_iff] at run
    obtain ⟨u, passed, later⟩ := run
    obtain ⟨q', before, rest⟩ := ih later
    refine ⟨q', fun path' => ?_, rest⟩
    rw [walk, bind_eq_ok_iff]
    exact ⟨u, checkDir_eq_ok_iff.mpr (checkDir_eq_ok_iff.mp passed), before path'⟩

/-- The place of a path ends in the last part of the path, unless that stays or goes back. -/
theorem getLast?_of_placeOf {d : Disk} {path : String} {p : Place} (found : d.placeOf path = .ok p)
    (named : Path.base path ≠ "") (goes : Path.base path ≠ "." ∧ Path.base path ≠ "..") :
    p.getLast? = some (Path.base path) := by
  unfold placeOf at found
  split at found
  · cases found
  · obtain ⟨way, steps⟩ := Path.steps_eq named
    rw [steps] at found
    obtain ⟨q, _, _, rfl⟩ := walk_append found
    unfold Place.step
    rw [if_neg goes.1, if_neg goes.2]
    exact List.getLast?_concat

theorem Takes.getLast? {d : Disk} {path : String} {p : Place} (takes : d.Takes path p)
    (long : 2 < (Path.base path).length) : p.getLast? = some (Path.base path) := by
  refine getLast?_of_placeOf takes.found ?_ ⟨?_, ?_⟩
  all_goals
    intro short
    rw [short] at long
    exact absurd long (by decide)

/-- The place of a file ends in its extension. -/
theorem Takes.getLast?_append {d : Disk} {stem ext : String} {p : Place}
    (takes : d.Takes (stem ++ ext) p) (free : '/' ∉ ext.toList) (long : 2 < ext.length) :
    p.getLast? = some (Path.base stem ++ ext) := by
  have base : Path.base (stem ++ ext) = Path.base stem ++ ext := Path.base_append free
  rw [← base]
  refine takes.getLast? ?_
  rw [base, String.length_append]
  exact Nat.lt_add_left _ long

end Disk

/-! ## The file of a constant -/

/-- The name of the file in which a constant is stored. -/
def constFile (tensor : String) : String := flatName tensor ++ ".idx"

theorem slash_not_mem_constFile (tensor : String) : '/' ∉ (constFile tensor).toList := by
  unfold constFile flatName Text.replaceChar
  rw [String.toList_append, String.toList_ofList, List.mem_append, not_or]
  refine ⟨?_, by decide⟩
  intro member
  obtain ⟨c, _, replaced⟩ := List.mem_map.mp member
  split at replaced
  case isTrue => exact absurd replaced (by decide)
  case isFalse other => exact other replaced

/-- A constant is stored in a file as some bytes. They hold its own value, a single element as a
vector. -/
structure Operation.StoredIn (op : Operation) (file : String) (bytes : List UInt8) : Prop where
  isConst : op.type = OperatorKind.const.typeName
  named : ∃ out, op.output 0 = .ok out ∧ file = constFile out.name
  valued : ∃ array f, (op.attr "value" >>= heldValue >>= heldArray) = .ok array ∧
    ArrayFile.ofArray array.atLeastOneDimension = .ok f ∧ bytes = f.bytes

theorem Operation.StoredIn.file_eq {op : Operation} {file file' : String}
    {bytes bytes' : List UInt8}
    (stored : op.StoredIn file bytes) (stored' : op.StoredIn file' bytes') : file' = file := by
  obtain ⟨out, found, rfl⟩ := stored.named
  obtain ⟨out', found', rfl⟩ := stored'.named
  cases found.symm.trans found'
  rfl

theorem Disk.Takes.getLast?_constFile {d : Disk} {dir tensor : String} {p : Place}
    (takes : d.Takes (Path.join dir (constFile tensor)) p) :
    p.getLast? = some (constFile tensor) := by
  have base : Path.base (Path.join dir (constFile tensor)) = constFile tensor :=
    Path.base_join (slash_not_mem_constFile tensor)
  rw [← base]
  refine takes.getLast? ?_
  rw [base, constFile, String.length_append]
  exact Nat.lt_add_left _ (by decide)

/-! ## The code that loads a constant -/

/-- Code loads a tensor from a file. -/
def Code.Loads (ss : List Statement) (path tensor : String) : Prop :=
  ∃ importer count layout, .register (.loaded importer path) tensor count layout ∈ ss

theorem Code.Template.loads_of_loadTensor {vars : Variables} {path tensor : String}
    {members : Except Fault (List (List Statement))} {ss : List Statement}
    (filed : vars.get? "idx_path" = some (.text path))
    (named : vars.get? "tensor_name" = some (.text tensor))
    (run : loadTensor.statements vars members = .ok ss) : Loads ss path tensor := by
  simp only [statements, loadTensorStatements, registerOne, bind_eq_ok_iff, pure_eq_ok_iff] at run
  obtain ⟨_, _, _, ⟨counted, _, rfl⟩, _, _, _, _, rfl⟩ := run
  rw [show_of_text filed, show_of_text named]
  refine ⟨vars.show "importer_dtype", if counted then some (vars.show "ref_count") else none,
    .spread "", ?_⟩
  simp only [List.mem_append, List.mem_singleton]
  exact .inl (.inl (.inl (.inr trivial)))

/-- What a member of the entry point loads is loaded by the entry point. -/
theorem Draft.loads_of_member {d : Draft} {graph path tensor : String} {body : List Statement}
    (run : d.statements graph = .ok body) {f : Fragment} (member : f ∈ d.members)
    (loads : ∀ ss, f.statements = .ok ss → Loads ss path tensor) : Loads body path tensor := by
  obtain ⟨sss, made, rfl⟩ := statements_ok run
  obtain ⟨ss, inside, stated⟩ := exists_result_of_mem made member
  obtain ⟨importer, count, layout, registered⟩ := loads ss stated
  refine ⟨importer, count, layout, List.mem_append_left _ (List.mem_append_right _ ?_)⟩
  exact List.mem_flatMap.mpr ⟨ss, inside, List.mem_append_left _ registered⟩

/-- A fragment loads a constant from its file. -/
def Operation.LoadedBy (op : Operation) (embed : String) (f : Fragment) : Prop :=
  ∃ out, op.output 0 = .ok out ∧
    ∀ ss, f.statements = .ok ss → Loads ss (embed ++ "/" ++ constFile out.name) out.name

/-! ## Storing constants one after the other -/

/-- What operations do to the disk when they are emitted: constants are stored, and nothing else
is. -/
inductive Stores (dir : String) : List Operation → Disk → Disk → Prop where
  | nil (d : Disk) : Stores dir [] d d
  | const {op : Operation} {ops : List Operation} {tensor : String} {bytes : List UInt8} {p : Place}
      {d d' : Disk} (stored : op.StoredIn (constFile tensor) bytes)
      (takes : d.Takes (Path.join dir (constFile tensor)) p)
      (later : Stores dir ops (d.put p (.bytes bytes)) d') : Stores dir (op :: ops) d d'
  | other {op : Operation} {ops : List Operation} {d d' : Disk}
      (notConst : op.type ≠ OperatorKind.const.typeName) (later : Stores dir ops d d') :
      Stores dir (op :: ops) d d'

/-- Of the operations that are stored in a file, the last one is stored as some bytes. -/
def LastStored (ops : List Operation) (file : String) (bytes : List UInt8) : Prop :=
  ∃ before last after, ops = before ++ last :: after ∧ last.StoredIn file bytes ∧
    ∀ op ∈ after, ∀ bytes', ¬ op.StoredIn file bytes'

theorem LastStored.cons {ops : List Operation} {file : String} {bytes : List UInt8}
    (stored : LastStored ops file bytes) (op : Operation) : LastStored (op :: ops) file bytes := by
  obtain ⟨before, last, after, rfl, kept, none⟩ := stored
  exact ⟨op :: before, last, after, rfl, kept, none⟩

namespace Stores

variable {dir : String} {ops ops' : List Operation} {d d₁ d' : Disk}

theorem append (first : Stores dir ops d d₁) (second : Stores dir ops' d₁ d') :
    Stores dir (ops ++ ops') d d' := by
  induction first with
  | nil => exact second
  | const stored takes _ ih => exact .const stored takes (ih second)
  | other notConst _ ih => exact .other notConst (ih second)

theorem isDir_eq (stores : Stores dir ops d d') (p : Place) : d'.isDir p = d.isDir p := by
  induction stores with
  | nil => rfl
  | const _ _ _ ih => exact ih
  | other _ _ ih => exact ih

/-- Every constant has a place for its file. -/
theorem takes (stores : Stores dir ops d d') {op : Operation} (member : op ∈ ops)
    (isConst : op.type = OperatorKind.const.typeName) :
    ∃ tensor bytes p, op.StoredIn (constFile tensor) bytes ∧
      d.Takes (Path.join dir (constFile tensor)) p := by
  induction stores with
  | nil => cases member
  | const stored takes _ ih =>
    rcases List.mem_cons.mp member with rfl | later
    · exact ⟨_, _, _, stored, takes⟩
    · obtain ⟨tensor, bytes, p, stored', takes'⟩ := ih later
      exact ⟨tensor, bytes, p, stored', takes'.congr fun _ => rfl⟩
  | other notConst _ ih =>
    rcases List.mem_cons.mp member with rfl | later
    · exact absurd isConst notConst
    · exact ih later

/-- At the place of a file is what was stored there last, or what has been there before. -/
theorem content (stores : Stores dir ops d d') {tensor : String} {p : Place}
    (takes : d.Takes (Path.join dir (constFile tensor)) p) :
    (∃ bytes, LastStored ops (constFile tensor) bytes ∧ d'.files.get? p = some (.bytes bytes)) ∨
      (∀ op ∈ ops, ∀ bytes, ¬ op.StoredIn (constFile tensor) bytes) ∧
        d'.files.get? p = d.files.get? p := by
  induction stores with
  | nil => exact .inr ⟨nofun, rfl⟩
  | @const op ops tensor' bytes p' d d' stored takes' _ ih =>
    rcases ih (takes.put p' _) with ⟨bytes, last, there⟩ | ⟨none, kept⟩
    · exact .inl ⟨bytes, last.cons op, there⟩
    · -- The file names tell the places apart, since a place ends in the name of its file.
      by_cases same : constFile tensor' = constFile tensor
      · rw [same] at stored takes'
        have here : p' = p := takes'.eq takes
        subst here
        refine .inl ⟨bytes, ⟨[], op, ops, rfl, stored, none⟩, ?_⟩
        rw [kept, Disk.get?_put_self]
      · have apart : p ≠ p' := by
          intro here
          subst here
          exact same (Option.some.inj (takes'.getLast?_constFile.symm.trans
            takes.getLast?_constFile))
        refine .inr ⟨?_, ?_⟩
        · intro op' member bytes' stored'
          rcases List.mem_cons.mp member with rfl | later
          · exact same (stored'.file_eq stored)
          · exact none op' later bytes' stored'
        · rw [kept, Disk.get?_put_of_ne _ _ apart]
  | @other op ops d d' notConst _ ih =>
    rcases ih takes with ⟨bytes, last, there⟩ | ⟨none, kept⟩
    · exact .inl ⟨bytes, last.cons op, there⟩
    · refine .inr ⟨?_, kept⟩
      intro op' member bytes' stored'
      rcases List.mem_cons.mp member with rfl | later
      · exact notConst stored'.isConst
      · exact none op' later bytes' stored'

end Stores

/-! ## Emitting constants -/

/-- A constant that is emitted is stored in its file, and the code loads it from there. -/
theorem emitConst_ok {dir embed : String} {op : Operation} {f : Fragment} {e e' : Emission}
    (isConst : op.type = OperatorKind.const.typeName)
    (run : (emitConst ⟨some (.text dir), some (.text embed), true⟩ op).runOn e = (e', .ok f)) :
    Stores dir [op] e.site.disk e'.site.disk ∧ op.LoadedBy embed f := by
  obtain ⟨out, count, _, _, vars, array, _, found, _, placed, isDir, loaded, valued, saved, rfl,
    rfl⟩ := emitConst_spec run
  cases placed
  cases isDir
  simp only [Job.runOn_bind_ok_iff, Job.runOn_writeArray_ok_iff, Job.runOn_info_ok_iff] at saved
  obtain ⟨_, _, ⟨file, p, made, takes, rfl⟩, rfl⟩ := saved
  refine ⟨?_, out, found, ?_⟩
  · exact .const ⟨isConst, ⟨out, found, rfl⟩, array, file, valued, made, rfl⟩ takes (.nil _)
  · intro ss stated
    obtain ⟨_, set, _, isSet, rfl⟩ := loadTensorVariables_ok loaded
    obtain ⟨members, stated⟩ := Fragment.statements_of stated
    refine Template.loads_of_loadTensor ?_ ?_ stated
    · rw [Operation.get?_of_setIfTrue isSet (by decide)]
      rfl
    · rw [Operation.get?_of_setIfTrue isSet (by decide)]
      rfl

theorem OperatorKind.typeName_of_ofType? {s : String} {k : OperatorKind}
    (kind : ofType? s = some k) :
    s = k.typeName := by
  have same := List.find?_some kind
  exact (beq_iff_eq.mp same).symm

/-- An operation that is no constant leaves the disk alone. -/
theorem emitOperation_disk {target : Target} {op : Operation} {f : Fragment} {e e' : Emission}
    (notConst : op.type ≠ OperatorKind.const.typeName)
    (run : (emitOperation target op).runOn e = (e', .ok f)) : e'.site.disk = e.site.disk := by
  unfold emitOperation at run
  split at run
  case h_1 => exact absurd run Emit.runOn_throw_ne_ok
  case h_2 kind => exact absurd (OperatorKind.typeName_of_ofType? kind) notConst
  case h_3 =>
    obtain ⟨_, _, _, _, _, _, _, _, _, _, _, _, _, rfl, _⟩ := emitInline_spec run
    rfl
  all_goals
    obtain ⟨rfl, _⟩ := Emit.runOn_lift_ok_iff.mp run
    rfl

/-- Operations were added to a draft: their constants are on the disk, and the draft loads them. -/
structure AddedConstants (dir embed : String) (ops : List Operation) (d d' : Draft) (s s' : Disk) :
    Prop where
  stores : Stores dir ops s s'
  members : d.members ⊆ d'.members
  loaded : ∀ op ∈ ops, op.type = OperatorKind.const.typeName →
    ∃ f ∈ d'.members, op.LoadedBy embed f

theorem AddedConstants.trans {dir embed : String} {ops ops' : List Operation} {d d₁ d' : Draft}
    {s s₁ s' : Disk} (first : AddedConstants dir embed ops d d₁ s s₁)
    (second : AddedConstants dir embed ops' d₁ d' s₁ s') :
    AddedConstants dir embed (ops ++ ops') d d' s s' := by
  refine ⟨first.stores.append second.stores, fun _ member => second.members (first.members member),
    ?_⟩
  intro op member isConst
  rcases List.mem_append.mp member with earlier | later
  · obtain ⟨f, inside, loaded⟩ := first.loaded op earlier isConst
    exact ⟨f, second.members inside, loaded⟩
  · exact second.loaded op later isConst

section Adding

variable {dir embed : String}

theorem addedConstants_of_adds {op : Operation} {d d' : Draft} {e e' : Emission}
    (adds : d.Adds ⟨some (.text dir), some (.text embed), true⟩ op e d' e') :
    AddedConstants dir embed [op] d d' e.site.disk e'.site.disk := by
  have others : op.type ≠ OperatorKind.const.typeName → ∀ op' ∈ [op],
      op'.type = OperatorKind.const.typeName → ∃ f ∈ d'.members, op'.LoadedBy embed f := by
    intro notConst op' member isConst
    rw [List.mem_singleton.mp member] at isConst
    exact absurd isConst notConst
  cases adds with
  | input isInput _ _ =>
    have notConst : op.type ≠ OperatorKind.const.typeName := by
      rw [of_decide_eq_true isInput]
      decide
    exact ⟨.other notConst (.nil _), fun _ member => member, others notConst⟩
  | @code f _ _ _ emitted =>
    have members : d.members ⊆ d.members ++ [f] := List.subset_append_left _ _
    by_cases isConst : op.type = OperatorKind.const.typeName
    · have kind : OperatorKind.ofType? op.type = some .const := by
        rw [isConst]
        rfl
      unfold emitOperation at emitted
      rw [kind] at emitted
      obtain ⟨stores, loaded⟩ := emitConst_ok isConst emitted
      refine ⟨stores, members, ?_⟩
      intro op' member _
      rw [List.mem_singleton.mp member]
      exact ⟨f, by simp, loaded⟩
    · rw [← emitOperation_disk isConst emitted]
      exact ⟨.other isConst (.nil _), members, others isConst⟩

theorem addedConstants_addOperations {comments : Bool} {g : Graph} {names : List String} {i : Nat}
    {d d' : Draft} {e e' : Emission}
    (run : (addOperations ⟨some (.text dir), some (.text embed), true⟩ comments g i d
      names).runOn e = (e', .ok d')) :
    AddedConstants dir embed (names.filterMap g.find?) d d' e.site.disk e'.site.disk := by
  have none : ∀ op ∈ ([] : List Operation), op.type = OperatorKind.const.typeName →
      ∃ f ∈ d.members, op.LoadedBy embed f := List.forall_mem_nil _
  refine addOperations_invariant
    (fun done d' e' => AddedConstants dir embed done d d' e.site.disk e'.site.disk) ?_ ?_
    ⟨.nil _, fun _ member => member, none⟩ run
  · intro done op d₁ e₁ d₂ e₂ _ added adds
    exact added.trans (addedConstants_of_adds adds)
  · intro done op d₁ e₁ i sets _ added
    have kept : d₁.members ⊆ d₁.members ++ [operationComment i op.name] :=
      List.subset_append_left _ _
    refine ⟨added.stores, fun _ member => kept (added.members member), ?_⟩
    intro op member isConst
    obtain ⟨f, inside, loaded⟩ := added.loaded op member isConst
    exact ⟨f, kept inside, loaded⟩

end Adding

/-! ## Files that are written behind the constants -/

/-- Equal texts have equal last characters. -/
theorem lastChar_eq_of_append_eq {stem ext other ext' : String} {a b : Char}
    (same : stem ++ ext = other ++ ext') (last : ext.toList.getLast? = some a)
    (last' : ext'.toList.getLast? = some b) : a = b := by
  have ends := congrArg (fun s : String => s.toList.getLast?) same
  simp only [String.toList_append, List.getLast?_append, last, last'] at ends
  exact Option.some.inj ends

/-- A header is at another place than the file of a constant. -/
theorem Disk.Takes.ne_of_header {d d' : Disk} {stem ext dir tensor : String} {p q : Place}
    (isHeader : ext.toList.getLast? = some 'p') (free : '/' ∉ ext.toList) (long : 2 < ext.length)
    (header : d.Takes (stem ++ ext) q) (file : d'.Takes (Path.join dir (constFile tensor)) p) :
    p ≠ q := by
  intro same
  subst same
  have names : Path.base stem ++ ext = constFile tensor :=
    Option.some.inj ((header.getLast?_append free long).symm.trans file.getLast?_constFile)
  exact absurd (lastChar_eq_of_append_eq names isHeader rfl) (by decide)

/-- The files of a program leave those of constants as they are, unless the source file is one. -/
theorem writeAll_ok {inlined : Bool} {model path : String} {d : Draft} {e e' : Emission}
    (dir : String) (run : (writeAll inlined (.of model path) d).runOn e = (e', .ok ())) :
    ∃ hs body q, d.statements (OutputNames.of model path).graph = .ok body ∧
      (∀ p, e'.site.disk.isDir p = e.site.disk.isDir p) ∧ e'.site.disk.Takes path q ∧
      e'.site.disk.files.get? q = some (.text (sourceText hs body)) ∧
      ∀ tensor p, e'.site.disk.Takes (Path.join dir (constFile tensor)) p → p ≠ q →
        e'.site.disk.files.get? p = e.site.disk.files.get? p := by
  obtain ⟨_, e₁, weighed, written⟩ := Emit.runOn_bind_ok_iff.mp run
  have before : (∀ p, e₁.site.disk.isDir p = e.site.disk.isDir p) ∧
      ∀ d' tensor p, Disk.Takes d' (Path.join dir (constFile tensor)) p →
        e₁.site.disk.files.get? p = e.site.disk.files.get? p := by
    unfold writeWeights at weighed
    cases inlined with
    | false =>
      simp only [Emit.runOn_bind_ok_iff, Emit.runOn_get_ok_iff, if_neg Bool.false_ne_true,
        Emit.runOn_set_ok_iff] at weighed
      obtain ⟨_, _, ⟨rfl, rfl⟩, rfl⟩ := weighed
      exact ⟨fun _ => rfl, fun _ _ _ _ => rfl⟩
    | true =>
      simp only [Emit.runOn_bind_ok_iff, Emit.runOn_get_ok_iff, if_pos, Emit.runOn_onSite_ok_iff,
        Job.runOn_bind_ok_iff, Job.runOn_info_ok_iff, Job.runOn_writeText_ok_iff] at weighed
      obtain ⟨_, _, ⟨rfl, rfl⟩, _, ⟨_, _, rfl, _, p', _, takes, rfl⟩, rfl⟩ := weighed
      refine ⟨fun _ => rfl, fun d' tensor p file => ?_⟩
      exact Disk.get?_put_of_ne _ _ (takes.ne_of_header rfl (by decide) (by decide) file)
  obtain ⟨h, p', body, q, _, header, stated, source, rfl⟩ := writeProgram_ok_iff.mp written
  refine ⟨_, body, q, stated, before.1, (source.put p' _).put q _, Disk.get?_put_self _ _ _, ?_⟩
  intro tensor p file apart
  have kept := before.2 _ tensor p file
  show Entries.get? (Disk.put _ q _).files p = _
  rw [Disk.get?_put_of_ne _ _ apart, Disk.get?_put_of_ne _ _ (header.ne_of_header rfl (by decide)
    (by decide) file), kept]

/-! ## Whole runs -/

/-- What a run that succeeds takes from its request, and the graph it comes to. -/
structure Request.Reaches [Importer] (quantizer : Quantizer) (r : Request) (source : Value)
    (start : Site) (dataDir embedDir path : String) (g : Graph) : Prop where
  isDir : r.dataDir = .text dataDir
  isEmbedDir : r.embedPath = .ok embedDir
  isSource : source = .text path
  passed : ∃ model site nodes methods, r.model = .text model ∧
    (Job.ensureDirs dataDir).runOn start = (site, .ok ()) ∧
    (site.disk.read model >>= Content.nodes) = .ok nodes ∧
    passedGraph quantizer r nodes = .ok (g, methods)

/-- A run comes to one graph only. -/
theorem Request.Reaches.unique [Importer] {quantizer : Quantizer} {r : Request} {source : Value}
    {start : Site} {dataDir dataDir' embedDir embedDir' path path' : String} {g g' : Graph}
    (first : r.Reaches quantizer source start dataDir embedDir path g)
    (second : r.Reaches quantizer source start dataDir' embedDir' path' g') :
    path = path' ∧ g = g' := by
  obtain ⟨isDir, _, isSource, model, site, nodes, methods, isModel, made, read, passed⟩ := first
  obtain ⟨isDir', _, isSource', model', site', nodes', methods', isModel', made', read', passed'⟩ :=
    second
  cases isDir.symm.trans isDir'
  cases isSource.symm.trans isSource'
  cases isModel.symm.trans isModel'
  cases made.symm.trans made'
  cases read.symm.trans read'
  cases passed.symm.trans passed'
  exact ⟨rfl, rfl⟩

theorem Request.reaches_withModel [Importer] {quantizer : Quantizer} {methods outputs : List String}
    {nodes : List Node} {g : Graph}
    (passed : passedGraph quantizer (.ofModel methods outputs) nodes = .ok (g, methods)) :
    (Request.ofModel methods outputs).Reaches quantizer (.text "m.cpp")
      (Emission.withModel nodes).site "data" "data" "m.cpp" g :=
  ⟨rfl, rfl, rfl, "m.pb", _, nodes, methods, rfl, ensureDirs_withModel nodes, rfl, passed⟩

/-- The code loads every constant of a graph from the file of its name, and in this file is the last
one of the constants with this file in the order of evaluation. Only the place `q` is left open. -/
def LoadsLastValues (g : Graph) (dataDir embedDir : String) (body : List Statement) (d : Disk)
    (q : Place) : Prop :=
  ∀ op ∈ g.orderedOps, op.type = OperatorKind.const.typeName →
    ∃ out bytes p, op.output 0 = .ok out ∧
      Loads body (embedDir ++ "/" ++ constFile out.name) out.name ∧
      LastStored g.orderedOps (constFile out.name) bytes ∧
      d.Takes (Path.join dataDir (constFile out.name)) p ∧
      (p ≠ q → d.files.get? p = some (.bytes bytes))

/-- After a run that succeeds, the file of a constant holds the last value that was stored in a file
of this name, unless the source file itself was written there. -/
theorem const_file_holds_last_value [Importer] {quantizer : Quantizer} {r : Request}
    {source : Value}
    {e e' : Emission} (run : (generate quantizer r source).runOn e = (e', .ok ())) :
    ∃ dataDir embedDir path g hs body q,
      r.Reaches quantizer source e.site dataDir embedDir path g ∧
      e'.site.disk.Takes path q ∧
      e'.site.disk.files.get? q = some (.text (sourceText hs body)) ∧
      LoadsLastValues g dataDir embedDir body e'.site.disk q := by
  obtain ⟨dataDir, site, embedDir, model, path, _, isDir, prepared, embedded, found, rfl, ran⟩ :=
    generate_ok_iff.mp run
  obtain ⟨g, methods, e₁, e₂, d, e₃, transformed, _, added, written⟩ :=
    generateFromModel_ok_iff.mp ran
  obtain ⟨nodes, read, passed⟩ := passedGraph_of_transformedGraph transformed
  have emitted := addedConstants_addOperations added
  obtain ⟨hs, body, q, stated, dirs, takes, there, kept⟩ := writeAll_ok dataDir written
  refine ⟨dataDir, embedDir, path, g, hs, body, q,
    ⟨isDir, embedded, rfl, model, site, nodes, methods, modelPath_ok found, prepared, read, passed⟩,
    takes, there, ?_⟩
  intro op member isConst
  obtain ⟨f, inside, out, isOut, loads⟩ := emitted.loaded op member isConst
  obtain ⟨tensor, bytes, p, stored, takes'⟩ := emitted.stores.takes member isConst
  have named : constFile tensor = constFile out.name := by
    obtain ⟨out', isOut', named⟩ := stored.named
    cases isOut.symm.trans isOut'
    exact named
  rw [named] at stored takes'
  have takesAfter : e'.site.disk.Takes (Path.join dataDir (constFile out.name)) p :=
    takes'.congr fun p => (dirs p).trans (emitted.stores.isDir_eq p)
  rcases emitted.stores.content takes' with ⟨bytes, last, stays⟩ | ⟨none, _⟩
  · exact ⟨out, bytes, p, isOut, Draft.loads_of_member stated inside loads, last, takesAfter,
      fun apart => (kept _ p takesAfter apart).trans stays⟩
  · exact absurd stored (none op member bytes)

/-- A constant with one element. -/
def oneElement (name : String) (value : Int) : Node :=
  ⟨name, "Const", [], .text "",
    [("value", .wireAttr (some "tensor") (.wireTensor (.array ⟨.int32, [1], [value]⟩)))],
    [⟨.int32, some [.int 1]⟩]⟩

/-- Two constants whose files have one name. -/
def sharedFile : List Node := [oneElement "a/b" 1, oneElement "a_b" 2]

/-- The operation for a constant with one element. -/
def oneElementOperation (id : Nat) (name : String) (value : Int) : Operation :=
  ⟨id + 1, name, "Const", [], [⟨id, name ++ ":0", name, .int32, some [.int 1], 0⟩],
    [("value", .attr "tensor" (.tensor ⟨.int32, [1], [value]⟩ (.type .int32))),
     (deviceKey, .text "")], 0⟩

/-- The graph of these constants. -/
def sharedFileGraph : Graph :=
  ⟨[oneElementOperation 0 "a/b" 1, oneElementOperation 2 "a_b" 2], ["a/b", "a_b"], ["a/b", "a_b"],
    tensorBackend⟩

/-- The fragment that loads a constant from the file that both have. -/
def sharedFileFragment (name : String) : Fragment :=
  .of .loadTensor [("idx_path", .text "data/a_b_0.idx"), ("tensor_name", .text (name ++ ":0")),
    ("importer_dtype", .text "int"), ("to_eval", .bool false)]

/-- What is emitted for these constants. -/
def sharedFileDraft : Draft := ⟨[], [], [sharedFileFragment "a/b", sharedFileFragment "a_b"]⟩

/-- The disk with the graph file and a directory for data. -/
def sharedFileDisk : Disk := ⟨[["data"]], [(["m.pb"], .model sharedFile)]⟩

/-- The bytes of a file with one element. -/
def oneElementBytes (value : Int) : List UInt8 := ArrayFile.bytes ⟨.int32, [1], [value]⟩

theorem addOperations_sharedFile {e : Emission} (disk : e.site.disk = sharedFileDisk) :
    ∃ e', (addOperations .inData false sharedFileGraph 0 .empty sharedFileGraph.order).runOn e =
        (e', .ok sharedFileDraft) ∧
      e'.site.disk = sharedFileDisk.put ["data", "a_b_0.idx"] (.bytes (oneElementBytes 2)) := by
  obtain ⟨⟨_, log⟩, sets, weights, handovers⟩ := e
  cases disk
  obtain ⟨⟨⟨_, log₁⟩, sets₁, weights₁, handovers₁⟩, first, disk₁⟩ : ∃ e₁,
      (addOperation .inData .empty (oneElementOperation 0 "a/b" 1)).runOn
        ⟨⟨sharedFileDisk, log⟩, sets, weights, handovers⟩ =
          (e₁, .ok ⟨[], [], [sharedFileFragment "a/b"]⟩) ∧
      e₁.site.disk = sharedFileDisk.put ["data", "a_b_0.idx"] (.bytes (oneElementBytes 1)) :=
    ⟨_, Prod.ext rfl rfl, rfl⟩
  cases disk₁
  obtain ⟨e₂, second, disk₂⟩ : ∃ e₂,
      (addOperation .inData ⟨[], [], [sharedFileFragment "a/b"]⟩
        (oneElementOperation 2 "a_b" 2)).runOn
          ⟨⟨sharedFileDisk.put ["data", "a_b_0.idx"] (.bytes (oneElementBytes 1)), log₁⟩, sets₁,
            weights₁, handovers₁⟩ = (e₂, .ok sharedFileDraft) ∧
      e₂.site.disk = sharedFileDisk.put ["data", "a_b_0.idx"] (.bytes (oneElementBytes 2)) :=
    ⟨_, Prod.ext rfl rfl, rfl⟩
  refine ⟨e₂, addOperations_cons_ok_iff.mpr ⟨_, _, _, _, _, rfl, first, rfl, ?_⟩, disk₂⟩
  exact addOperations_cons_ok_iff.mpr ⟨_, _, _, _, _, rfl, second, rfl, rfl⟩

attribute [local instance] Importer.strict

theorem generate_sharedFile : ∃ e' hs body,
    (generate (fun h => .ok h.nodes) (.ofModel [] ["a/b", "a_b"]) (.text "m.cpp")).runOn
      (.withModel sharedFile) = (e', .ok ()) ∧
    sharedFileDraft.statements "m" = .ok body ∧
    e'.site.disk.dirs = [["data"]] ∧
    e'.site.disk.files.get? ["m.cpp"] = some (.text (sourceText hs body)) ∧
    e'.site.disk.files.get? ["data", "a_b_0.idx"] = some (.bytes (oneElementBytes 2)) := by
  obtain ⟨body, stated⟩ : ∃ body, sharedFileDraft.statements "m" = .ok body := by
    simp only [sharedFileDraft, sharedFileFragment, Draft.statements_eq, List.mapM_cons,
      Fragment.statements_eq]
    exact ⟨_, rfl⟩
  have passed : passedGraph (fun h => .ok h.nodes) (.ofModel [] ["a/b", "a_b"]) sharedFile =
      .ok (sharedFileGraph, []) := rfl
  obtain ⟨e₁, same, emits⟩ := generate_ofModel outputNames_withModel
    (ensureDirs_withModel sharedFile) rfl passed rfl
  obtain ⟨e₃, added, disk₃⟩ := addOperations_sharedFile same.disk
  obtain ⟨e', h, run, _, disk⟩ := emits e₃ sharedFileDraft body ["m.hpp"] ["m.cpp"] added stated
    (by rw [disk₃]; exact ⟨rfl, rfl, rfl⟩) (by rw [disk₃]; exact ⟨rfl, rfl, rfl⟩)
  refine ⟨e', e'.sets.of (.builtIn .context), body, run, stated, ?_, ?_, ?_⟩
  · rw [disk, disk₃]
    rfl
  · rw [disk, Disk.get?_put_self]
  · rw [disk, Disk.get?_put_of_ne _ _ (by decide), Disk.get?_put_of_ne _ _ (by decide), disk₃,
      Disk.get?_put_self]

theorem const_file_holds_last_value_sharedFile : ∃ e',
    (generate (fun h => .ok h.nodes) (.ofModel [] ["a/b", "a_b"]) (.text "m.cpp")).runOn
      (.withModel sharedFile) = (e', .ok ()) ∧
    ∃ dataDir embedDir path g hs body q,
      (Request.ofModel [] ["a/b", "a_b"]).Reaches (fun h => .ok h.nodes) (.text "m.cpp")
        (Emission.withModel sharedFile).site dataDir embedDir path g ∧
      e'.site.disk.Takes path q ∧
      e'.site.disk.files.get? q = some (.text (sourceText hs body)) ∧
      LoadsLastValues g dataDir embedDir body e'.site.disk q := by
  obtain ⟨e', _, _, run, _⟩ := generate_sharedFile
  exact ⟨e', run, const_file_holds_last_value run⟩

/-- Of two constants with one file, the first one is loaded with the value of the second one. -/
theorem first_constant_loses_its_value : ∃ e' hs body,
    (generate (fun h => .ok h.nodes) (.ofModel [] ["a/b", "a_b"]) (.text "m.cpp")).runOn
      (.withModel sharedFile) = (e', .ok ()) ∧
    (Request.ofModel [] ["a/b", "a_b"]).Reaches (fun h => .ok h.nodes) (.text "m.cpp")
      (Emission.withModel sharedFile).site "data" "data" "m.cpp" sharedFileGraph ∧
    e'.site.disk.Takes "m.cpp" ["m.cpp"] ∧
    e'.site.disk.files.get? ["m.cpp"] = some (.text (sourceText hs body)) ∧
    oneElementOperation 0 "a/b" 1 ∈ sharedFileGraph.orderedOps ∧
    Loads body "data/a_b_0.idx" "a/b:0" ∧
    (oneElementOperation 0 "a/b" 1).StoredIn "a_b_0.idx" (oneElementBytes 1) ∧
    e'.site.disk.Takes "data/a_b_0.idx" ["data", "a_b_0.idx"] ∧
    e'.site.disk.files.get? ["data", "a_b_0.idx"] ≠ some (.bytes (oneElementBytes 1)) := by
  obtain ⟨e', hs, body, run, stated, dirs, source, file⟩ := generate_sharedFile
  have isDir : ∀ p, e'.site.disk.isDir p = sharedFileDisk.isDir p := by
    intro p
    unfold Disk.isDir
    rw [dirs]
    rfl
  have takesSource : sharedFileDisk.Takes "m.cpp" ["m.cpp"] := ⟨rfl, rfl, rfl⟩
  have takesFile : sharedFileDisk.Takes "data/a_b_0.idx" ["data", "a_b_0.idx"] := ⟨rfl, rfl, rfl⟩
  have loads : Loads body "data/a_b_0.idx" "a/b:0" := by
    refine Draft.loads_of_member stated (f := sharedFileFragment "a/b")
      (by simp [sharedFileDraft]) ?_
    intro ss made
    obtain ⟨_, made⟩ := Fragment.statements_of made
    exact Template.loads_of_loadTensor rfl rfl made
  have stored : (oneElementOperation 0 "a/b" 1).StoredIn "a_b_0.idx" (oneElementBytes 1) :=
    ⟨rfl, ⟨_, rfl, by decide⟩, _, _, rfl, rfl, rfl⟩
  refine ⟨e', hs, body, run,
    ⟨rfl, rfl, rfl, "m.pb", ⟨sharedFileDisk, []⟩, sharedFile, [], rfl, rfl, rfl, rfl⟩,
    takesSource.congr isDir, source, List.mem_of_mem_head? rfl, loads, stored,
    takesFile.congr isDir, ?_⟩
  intro same
  rw [file] at same
  have bytes : oneElementBytes 2 ≠ oneElementBytes 1 := by decide
  exact bytes (Content.bytes.inj (Option.some.inj same))

end TensorEmit
