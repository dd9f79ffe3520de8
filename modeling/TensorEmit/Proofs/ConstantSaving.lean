import Mathlib.Data.List.TakeWhile
import TensorEmit.Disk.Save
import TensorEmit.Proofs.ConstantFiles
import TensorEmit.Proofs.Rendering

/-!
# Two ways to save a constant

A constant is saved by the step that emits it, and an array can be saved on its own. Both write the
same file format, which has no code for whole numbers of 64 bits, but only the second cuts them to
32. `constant_files_agree_unless_long` compares the two on one array and one path: they leave the
same file unless the tensor has elements of 64 bits. For these the first one fails, and the file it
has begun is left empty.

Saving an array also makes the directory of its file. Where a file can be written this changes
nothing, since the path before the last part then leads to a directory (`Disk.leads_parent`).
-/

namespace TensorEmit

open Code

/-! ## The path before the last part -/

namespace Path

/-- Slashes at the end add no step. -/
theorem steps_slashes (front : List Char) (n : Nat) :
    steps (String.ofList (front ++ List.replicate n '/')) = steps (String.ofList front) := by
  induction n with
  | zero => rw [List.replicate_zero, List.append_nil]
  | succ n ih =>
    rw [List.replicate_succ', ← List.append_assoc, steps_slash List.not_mem_nil, ih]
    exact List.append_nil _

theorem exists_front_of_slash {path : String} (slash : '/' ∈ path.toList) :
    ∃ front, path.toList = front ++ '/' :: baseChars path.toList ∧
      path.toList.reverse.dropWhile (· ≠ '/') = '/' :: front.reverse := by
  obtain ⟨back, front, whole, free⟩ := List.eq_append_cons_of_mem (List.mem_reverse.mpr slash)
  have before : ∀ c ∈ back, decide (c ≠ '/') = true := by
    intro c member
    simpa using fun same : c = '/' => free (same ▸ member)
  refine ⟨front.reverse, ?_, ?_⟩
  · have last : baseChars path.toList = back.reverse := by
      unfold baseChars
      rw [whole, List.takeWhile_append_of_pos before, List.takeWhile_cons_of_neg (by simp),
        List.append_nil]
    rw [last]
    simpa using congrArg List.reverse whole
  · rw [whole, List.dropWhile_append_of_pos before, List.dropWhile_cons_of_neg (by simp),
      List.reverse_reverse]

/-- Slashes at the end of a path can be taken off. -/
theorem exists_slashes (cs : List Char) :
    ∃ n, cs = (cs.reverse.dropWhile (· = '/')).reverse ++ List.replicate n '/' := by
  have slashes : cs.reverse.takeWhile (· = '/') =
      List.replicate (cs.reverse.takeWhile (· = '/')).length '/' :=
    List.eq_replicate_of_mem fun c member => by
      simpa using List.all_eq_true.mp List.all_takeWhile c member
  refine ⟨(cs.reverse.takeWhile (· = '/')).length, ?_⟩
  rw [← List.reverse_replicate, ← slashes, ← List.reverse_append, List.takeWhile_append_dropWhile,
    List.reverse_reverse]

/-- What is before the last part has the steps of what is before its slash, and starts the path. -/
theorem exists_parent {path : String} {front : List Char}
    (head : path.toList.reverse.dropWhile (· ≠ '/') = '/' :: front.reverse) :
    ∃ kept, parent path = String.ofList kept ∧ kept ≠ [] ∧ kept <+: front ++ ['/'] ∧
      steps (String.ofList kept) = steps (String.ofList front) := by
  unfold parent
  rw [head]
  dsimp only
  split
  case isTrue all =>
    obtain ⟨n, rfl⟩ : ∃ n, front = List.replicate n '/' := by
      refine ⟨_, List.eq_replicate_of_mem fun c member => ?_⟩
      have same := List.all_eq_true.mp all c (List.mem_cons_of_mem _ (List.mem_reverse.mpr member))
      simpa using same
    have turned : '/' :: (List.replicate n '/').reverse = List.replicate n '/' ++ ['/'] := by
      rw [List.reverse_replicate, ← List.replicate_succ, List.replicate_succ']
    refine ⟨_, rfl, List.cons_ne_nil _ _, ?_, ?_⟩
    · exact turned ▸ List.prefix_rfl
    · rw [turned, steps_slash List.not_mem_nil]
      exact List.append_nil _
  case isFalse some =>
    obtain ⟨n, trailing⟩ := exists_slashes front
    have kept : ('/' :: front.reverse).dropWhile (· = '/') = front.reverse.dropWhile (· = '/') :=
      List.dropWhile_cons_of_pos (by decide)
    refine ⟨_, rfl, ?_, ?_, ?_⟩
    · rw [kept]
      intro none
      rw [List.reverse_eq_nil_iff, List.dropWhile_eq_nil_iff] at none
      exact some (List.all_eq_true.mpr (List.forall_mem_cons.mpr ⟨rfl, none⟩))
    · rw [kept]
      refine ⟨List.replicate n '/' ++ ['/'], ?_⟩
      rw [← List.append_assoc, ← trailing]
    · rw [kept]
      conv_rhs => rw [trailing]
      rw [steps_slashes]

/-- The path before the last part of a path with slashes: it has the same steps less the last one,
from the same start on. -/
theorem parent_of_slash {path : String} (slash : '/' ∈ path.toList) (named : base path ≠ "") :
    parent path ≠ "" ∧ steps path = steps (parent path) ++ [base path] ∧
      isRooted (parent path) = isRooted path := by
  obtain ⟨front, chars, head⟩ := exists_front_of_slash slash
  obtain ⟨kept, parent, some, ⟨rest, starts⟩, way⟩ := exists_parent head
  have last : [base path].filter (· ≠ "") = [base path] :=
    List.filter_cons_of_pos (by simpa using named)
  have whole : path.toList = kept ++ (rest ++ baseChars path.toList) := by
    rw [← List.append_assoc, starts, List.append_assoc]
    exact chars
  refine ⟨?_, ?_, ?_⟩
  · rw [parent]
    intro none
    exact some (by simpa using congrArg String.toList none)
  · rw [parent, way, ← last]
    refine Eq.trans ?_ (steps_slash (slash_not_mem_baseChars path.toList))
    rw [← chars, String.ofList_toList]
  · unfold isRooted
    rw [parent, whole, String.toList_ofList, List.head?_append_of_ne_nil _ some]

theorem parent_of_no_slash {path : String} (free : '/' ∉ path.toList) : parent path = "" := by
  have none : path.toList.reverse.dropWhile (· ≠ '/') = [] := by
    rw [List.dropWhile_eq_nil_iff]
    intro c member
    simpa using fun same : c = '/' => free (same ▸ List.mem_reverse.mp member)
  unfold parent
  rw [none]
  rfl

end Path

namespace Disk

variable {d : Disk} {path : String} {p : Place}

/-- Where a file can be written, there is a directory to write it into. -/
theorem leads_parent (takes : d.Takes path p) (named : Path.base path ≠ "")
    (slash : '/' ∈ path.toList) : d.leads (Path.parent path) = true := by
  obtain ⟨some, steps, rooted⟩ := Path.parent_of_slash slash named
  have found := takes.found
  unfold placeOf at found
  split at found
  case isTrue => cases found
  case isFalse =>
    rw [steps] at found
    obtain ⟨q, walked, isDir, _⟩ := walk_append found
    have parent : d.placeOf (Path.parent path) = .ok q := by
      unfold placeOf Place.start
      rw [if_neg some, rooted]
      exact walked _
    unfold leads
    rw [parent]
    dsimp only
    rw [isDir, Bool.true_or]

end Disk

/-! ## Writing and saving an array -/

namespace Job

variable {s : Site} {path : String} {p : Place}

/-- If an array cannot be written, its file is left empty. -/
theorem runOn_writeArray_of_error {a : NumArray} {f : Fault} (takes : s.disk.Takes path p)
    (refused : ArrayFile.ofArray a = .error f) : (writeArray path a).runOn s =
      ({ s with disk := s.disk.put p (.bytes []) }, .error f) := by
  have begun : (write path (.bytes [])).runOn s =
      ({ s with disk := s.disk.put p (.bytes []) }, .ok ()) :=
    runOn_write_ok_iff.mpr ⟨p, takes, rfl⟩
  unfold writeArray
  rw [runOn_bind_of_ok begun, refused]
  rfl

theorem runOn_writeArray_of_ok {a : NumArray} {file : ArrayFile} (takes : s.disk.Takes path p)
    (made : ArrayFile.ofArray a = .ok file) : (writeArray path a).runOn s =
      ({ s with disk := s.disk.put p (.bytes file.bytes) }, .ok ()) :=
  runOn_writeArray_ok_iff.mpr ⟨file, p, made, takes, rfl⟩

/-- Where a file can be written, its directory does not have to be made. -/
theorem runOn_ensureParent (takes : s.disk.Takes path p) (named : Path.base path ≠ "")
    (inner : Path.parent path ≠ "") : (ensureDirs (Path.parent path)).runOn s = (s, .ok ()) := by
  have slash : '/' ∈ path.toList := by
    by_contra free
    exact inner (Path.parent_of_no_slash free)
  rw [ensureDirs, runOn_onDisk, Disk.ensureDirs, if_pos (Disk.leads_parent takes named slash)]

/-- An array that a file can hold is written where the file can be written. -/
theorem runOn_save {a : NumArray} {file : ArrayFile} (takes : s.disk.Takes path p)
    (named : Path.base path ≠ "") (made : ArrayFile.ofArray a = .ok file) :
    Job.runOn (do
      let path ← lift (Value.text path).asText
      if Path.parent path ≠ "" then ensureDirs (Path.parent path)
      writeArray path a
      info (path ++ " saved")) s =
    (⟨s.disk.put p (.bytes file.bytes), s.log ++ [⟨.info, path ++ " saved"⟩]⟩, .ok ()) := by
  have written : (writeArray path a >>= fun _ => info (path ++ " saved")).runOn s =
      (⟨s.disk.put p (.bytes file.bytes), s.log ++ [⟨.info, path ++ " saved"⟩]⟩, .ok ()) := by
    rw [runOn_bind_of_ok (runOn_writeArray_of_ok takes made)]
    rfl
  change Job.runOn (if Path.parent path ≠ "" then _ else _) s = _
  by_cases inner : Path.parent path ≠ ""
  · rw [if_pos inner]
    exact (runOn_bind_of_ok (runOn_ensureParent takes named inner) _).trans written
  · rw [if_neg inner]
    exact written

end Job

/-- Saving an array where a file can be written changes this file and the log. -/
theorem runOn_saveArray {s : Site} {path : String} {p : Place} {a : NumArray} {file : ArrayFile}
    (takes : s.disk.Takes path p) (named : Path.base path ≠ "")
    (made : ArrayFile.ofArray (narrowed a.atLeastOneDimension) = .ok file) :
    ∃ log, (saveArray a (.text path)).runOn s =
      (⟨s.disk.put p (.bytes file.bytes), log⟩, .ok ()) := by
  unfold saveArray
  dsimp only
  split
  case isTrue =>
    rw [Job.runOn_bind_of_ok rfl]
    exact ⟨_, Job.runOn_save takes named made⟩
  case isFalse => exact ⟨_, Job.runOn_save takes named made⟩

/-! ## Emitting a constant -/

theorem Emit.lift_ok_bind {α β : Type} (a : α) (f : α → Emit β) :
    (Emit.lift (.ok a) >>= f) = f a := rfl

/-- A constant whose parts are found is emitted as its array is written. -/
theorem emitConst_eq {target : Target} {dir : String} {op : Operation} {out : Tensor}
    {count : Value} {vars : Variables} {a : NumArray}
    (placed : target.dataDir = some (.text dir)) (found : op.output 0 = .ok out)
    (counted : op.useCount = .ok count)
    (loaded : loadTensorVariables (target.embedDir.getD (.text (Path.join boardRoot dir)))
      (.text out.name) (.type out.type) count (.text (constFile out.name)) .none (.bool false)
      (.bool false) = .ok vars)
    (valued : (op.attr "value" >>= heldValue >>= heldArray) = .ok a) :
    emitConst target op =
      (Emit.onSite (do
        Job.writeArray (Path.join dir (constFile out.name)) a.atLeastOneDimension
        Job.info ("saving " ++ Path.join dir (constFile out.name))) >>= fun _ =>
      pure (.of .loadTensor vars)) := by
  have text : (Value.text dir).asText = .ok dir := rfl
  unfold emitConst
  rw [found, Emit.lift_ok_bind, counted, Emit.lift_ok_bind, placed]
  dsimp only
  rw [text, Emit.lift_ok_bind, show flatName out.name ++ ".idx" = constFile out.name from rfl,
    loaded, Emit.lift_ok_bind, valued, Emit.lift_ok_bind]

/-- Emission ends as its job on the disk does. -/
theorem runOn_onSite_pure {job : Job Unit} {f : Fragment} {e : Emission} {site : Site}
    {r : Except Fault Unit} (ran : job.runOn e.site = (site, r)) :
    (Emit.onSite job >>= fun _ => pure f).runOn e = ({ e with site }, r.map fun _ => f) := by
  change outcome (Emit.onSite job >>= fun _ => pure f) e = _
  rw [outcome_bind, outcome_onSite, ← Job.runOn_eq_outcome, ran]
  cases r with
  | ok u => rfl
  | error fault => rfl

theorem exists_loadTensorVariables {t : ElementType} {count : Value}
    (accepted : (TypeName.of? t).isSome) (decided : Decided count) (dir : Value)
    (tensor file : String) :
    ∃ vars, loadTensorVariables dir (.text tensor) (.type t) count (.text file) .none (.bool false)
      (.bool false) = .ok vars := by
  obtain ⟨names, named⟩ := Option.isSome_iff_exists.mp accepted
  obtain ⟨b, isTrue⟩ := decided
  have type : tensorType (.type t) = .ok names := by
    unfold tensorType TypeName.find?
    rw [ok_bind, named]
    rfl
  have tested : truth count = .ok b := by
    unfold truth holds
    dsimp only
    rw [isTrue]
  unfold loadTensorVariables setIfTrue
  rw [type, tested]
  exact ⟨_, rfl⟩

/-- A constant that emitted code can name is emitted as its array is written. -/
theorem exists_emitOperation_const {target : Target} {dir : String} {op : Operation} {out : Tensor}
    {count : Value} {a : NumArray} (placed : target.dataDir = some (.text dir))
    (isConst : op.type = OperatorKind.const.typeName) (found : op.output 0 = .ok out)
    (accepted : (TypeName.of? out.type).isSome)
    (valued : (op.attr "value" >>= heldValue >>= heldArray) = .ok a)
    (counted : op.useCount = .ok count) (decided : Decided count) :
    ∃ f, emitOperation target op =
      (Emit.onSite (do
        Job.writeArray (Path.join dir (constFile out.name)) a.atLeastOneDimension
        Job.info ("saving " ++ Path.join dir (constFile out.name))) >>= fun _ => pure f) := by
  have kind : OperatorKind.ofType? op.type = some .const := by
    rw [isConst]
    rfl
  obtain ⟨vars, loaded⟩ := exists_loadTensorVariables accepted decided
    (target.embedDir.getD (.text (Path.join boardRoot dir))) out.name (constFile out.name)
  unfold emitOperation
  rw [kind]
  exact ⟨_, emitConst_eq placed found counted loaded valued⟩

/-! ## Arrays that a file can hold -/

@[simp] theorem NumArray.type_atLeastOneDimension (a : NumArray) :
    a.atLeastOneDimension.type = a.type := by
  unfold atLeastOneDimension
  split <;> rfl

@[simp] theorem NumArray.cells_atLeastOneDimension (a : NumArray) :
    a.atLeastOneDimension.cells = a.cells := by
  unfold atLeastOneDimension
  split <;> rfl

namespace ArrayFile

theorem exists_ofArray {a : NumArray} (some : a.cells ≠ []) (coded : (code? a.type).isSome) :
    ∃ file, ofArray a = .ok file := by
  obtain ⟨code, has⟩ := Option.isSome_iff_exists.mp coded
  unfold ofArray
  rw [if_neg (by simpa using some), if_neg (by simp [has])]
  exact ⟨_, rfl⟩

theorem ofArray_of_no_code {a : NumArray} (some : a.cells ≠ []) (uncoded : code? a.type = none) :
    ofArray a = .error .unsupportedArray := by
  unfold ofArray
  rw [if_neg (by simpa using some), if_pos (by simp [uncoded])]

/-- All types that emitted code can name have a code, but for the words of 64 bits. -/
theorem code?_of_accepted {t : ElementType} (accepted : (TypeName.of? t).isSome)
    (short : t ≠ .int64) : (code? t.base).isSome := by
  unfold TypeName.of? at accepted
  split at accepted
  case h_4 => exact absurd rfl short
  case h_7 => cases accepted
  all_goals rfl

end ArrayFile

theorem ElementType.base_eq_int64_iff {t : ElementType} : t.base = .int64 ↔ t = .int64 := by
  cases t <;> decide

theorem base_join_constFile (dir tensor : String) :
    Path.base (Path.join dir (constFile tensor)) ≠ "" := by
  rw [Path.base_join (slash_not_mem_constFile tensor), constFile]
  intro none
  exact absurd (String.append_eq_empty_iff.mp none).2 (by decide)

/-- An array of a type that emitted code can name can be written once it is narrowed. -/
theorem exists_file_of_narrowed {t : ElementType} {a : NumArray}
    (accepted : (TypeName.of? t).isSome) (typed : a.type = t.base) (nonempty : a.cells ≠ []) :
    ∃ file, ArrayFile.ofArray (narrowed a) = .ok file := by
  unfold narrowed
  by_cases long : a.type = .int64
  · rw [if_pos long]
    exact ArrayFile.exists_ofArray (by simpa [NumArray.cast] using nonempty) rfl
  · rw [if_neg long]
    rw [typed, ElementType.base_eq_int64_iff] at long
    exact ArrayFile.exists_ofArray nonempty (typed ▸ ArrayFile.code?_of_accepted accepted long)

/-! ## Comparing the two -/

/-- A constant that emitted code can name, saved in two ways. Where its file can be written, saving
its array on its own succeeds and leaves a file there. Emitting the constant leaves the same file,
unless the tensor has whole numbers of 64 bits: then it fails and leaves the file empty. Where its
file cannot be written, emitting the constant fails and changes nothing. -/
theorem constant_files_agree_unless_long {target : Target} {dir : String} {op : Operation}
    {out : Tensor} {count : Value} {a : NumArray} (placed : target.dataDir = some (.text dir))
    (isConst : op.type = OperatorKind.const.typeName) (found : op.output 0 = .ok out)
    (accepted : (TypeName.of? out.type).isSome)
    (valued : (op.attr "value" >>= heldValue >>= heldArray) = .ok a)
    (typed : a.type = out.type.base) (nonempty : a.cells ≠ [])
    (counted : op.useCount = .ok count) (decided : Decided count) (e : Emission) :
    (∀ p, e.site.disk.Takes (Path.join dir (constFile out.name)) p →
      ∃ file log, ArrayFile.ofArray (narrowed a.atLeastOneDimension) = .ok file ∧
        (saveArray a (.text (Path.join dir (constFile out.name)))).runOn e.site =
          (⟨e.site.disk.put p (.bytes file.bytes), log⟩, .ok ()) ∧
        (out.type ≠ .int64 → ∃ e' f, (emitOperation target op).runOn e = (e', .ok f) ∧
          e'.site.disk = e.site.disk.put p (.bytes file.bytes)) ∧
        (out.type = .int64 → ∃ e',
          (emitOperation target op).runOn e = (e', .error .unsupportedArray) ∧
          e'.site.disk = e.site.disk.put p (.bytes []))) ∧
    ((∀ p, ¬e.site.disk.Takes (Path.join dir (constFile out.name)) p) →
      ∃ f, (emitOperation target op).runOn e = (e, .error f)) := by
  obtain ⟨f, emits⟩ :=
    exists_emitOperation_const placed isConst found accepted valued counted decided
  rw [emits]
  have typed' : a.atLeastOneDimension.type = out.type.base := by
    rw [NumArray.type_atLeastOneDimension, typed]
  have nonempty' : a.atLeastOneDimension.cells ≠ [] := by
    rw [NumArray.cells_atLeastOneDimension]
    exact nonempty
  constructor
  · intro p takes
    obtain ⟨file, made⟩ := exists_file_of_narrowed accepted typed' nonempty'
    obtain ⟨log, saved⟩ := runOn_saveArray takes (base_join_constFile dir out.name) made
    refine ⟨file, log, made, saved, fun short => ?_, fun long => ?_⟩
    · have same : narrowed a.atLeastOneDimension = a.atLeastOneDimension := by
        refine if_neg ?_
        rw [typed', ElementType.base_eq_int64_iff]
        exact short
      rw [same] at made
      have job := Job.runOn_bind_of_ok (Job.runOn_writeArray_of_ok takes made)
        fun _ => Job.info ("saving " ++ Path.join dir (constFile out.name))
      exact ⟨_, f, runOn_onSite_pure (job.trans rfl), rfl⟩
    · have uncoded : ArrayFile.code? a.atLeastOneDimension.type = none := by
        rw [typed', long]
        rfl
      have refused := Job.runOn_writeArray_of_error takes
        (ArrayFile.ofArray_of_no_code nonempty' uncoded)
      exact ⟨_, runOn_onSite_pure (Job.runOn_bind_of_error refused _), rfl⟩
  · intro nowhere
    rcases Job.runOn_write_cases (Path.join dir (constFile out.name)) e.site with
      ⟨fault, fails⟩ | ⟨p, takes, _⟩
    · have refused : (Job.writeArray (Path.join dir (constFile out.name))
          a.atLeastOneDimension).runOn e.site = (e.site, .error fault) :=
        Job.runOn_bind_of_error (fails _) _
      exact ⟨fault, runOn_onSite_pure (Job.runOn_bind_of_error refused _)⟩
    · exact absurd takes (nowhere p)

/-- A constant of a shape. -/
def storedConstant (t : ElementType) (shape : List Nat) (cells : List Int) : Operation :=
  ⟨1, "w", "Const", [], [⟨0, "w:0", "w", t, some (shape.map fun n : Nat => .int n), 0⟩],
    [("value", .attr "tensor" (.tensor ⟨t.base, shape, cells⟩ (.type t)))], 0⟩

/-- A site with a directory for constants. -/
def Site.withData : Site := ⟨⟨[["data"]], []⟩, []⟩

/-- Emission of a constant at this site. -/
def emittedConstant (t : ElementType) (shape : List Nat) (cells : List Int) :
    Emission × Except Fault Fragment :=
  (emitOperation ⟨some (.text "data"), none, true⟩ (storedConstant t shape cells)).runOn
    (.start .withData)

theorem constant_files_agree_unless_long_storedConstant : ∃ e' f,
    emittedConstant .qint8 [] [-1] = (e', .ok f) ∧
    e'.site.disk =
      ((saveArray ⟨.int8, [], [-1]⟩ (.text "data/w_0.idx")).runOn .withData).1.disk := by
  have placed : (⟨some (.text "data"), none, true⟩ : Target).dataDir = some (.text "data") := rfl
  have found : (storedConstant .qint8 [] [-1]).output 0 =
      .ok ⟨0, "w:0", "w", .qint8, some [], 0⟩ := rfl
  have valued : ((storedConstant .qint8 [] [-1]).attr "value" >>= heldValue >>= heldArray) =
      .ok ⟨.int8, [], [-1]⟩ := rfl
  have takes : (Emission.start .withData).site.disk.Takes (Path.join "data" (constFile "w:0"))
      ["data", "w_0.idx"] := ⟨rfl, rfl, rfl⟩
  obtain ⟨written, _⟩ := constant_files_agree_unless_long placed rfl found rfl valued rfl
    (by decide) rfl ⟨_, rfl⟩ (.start .withData)
  obtain ⟨file, log, _, saved, agrees, _⟩ := written _ takes
  obtain ⟨e', f, run, disk⟩ := agrees (by decide)
  refine ⟨e', f, run, disk.trans ?_⟩
  exact (congrArg (fun result => result.1.disk) saved).symm

/-- Emitting a constant of 64 bits fails over its file, and saving its array narrows it. -/
theorem long_constant_cannot_be_emitted :
    let emitted := emittedConstant .int64 [2] [3, 4]
    let saved := (saveArray ⟨.int64, [2], [3, 4]⟩ (.text "data/w_0.idx")).runOn .withData
    emitted.2 = .error .unsupportedArray ∧
    emitted.1.site.disk.files = [(["data", "w_0.idx"], .bytes [])] ∧
    saved.2 = .ok () ∧
    saved.1.disk.files = [(["data", "w_0.idx"],
      .bytes [0, 0, 12, 1, 0, 0, 0, 2, 0, 0, 0, 3, 0, 0, 0, 4])] :=
  ⟨rfl, rfl, rfl, rfl⟩

end TensorEmit
