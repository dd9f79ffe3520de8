import TensorEmit.Generate
import TensorEmit.Proofs.Steps

/-!
# Files on the disk

Writing a file changes what is at one place and nothing else: it makes no directory, so every path
leads on to where it led before. `Disk.Takes` says at which place a file is written; this does not
depend on what is written. The lemmas on jobs say what is on the disk after a job that succeeded.
-/

namespace TensorEmit

theorem Entries.set_set {κ α : Type} [DecidableEq κ] (es : Entries κ α) (k : κ) (v v' : α) :
    (es.set k v).set k v' = es.set k v' := by
  induction es with
  | nil => simp [set]
  | cons e rest ih =>
    obtain ⟨k', old⟩ := e
    by_cases same : k' = k
    · simp [set, same]
    · simp [set, same, ih]

namespace Disk

/-- The disk with a file at a place. -/
def put (d : Disk) (p : Place) (c : Content) : Disk := { d with files := d.files.set p c }

theorem put_put (d : Disk) (p : Place) (c c' : Content) : (d.put p c).put p c' = d.put p c' := by
  unfold put
  rw [Entries.set_set]

theorem get?_put_self (d : Disk) (p : Place) (c : Content) :
    (d.put p c).files.get? p = some c :=
  Entries.get?_set_self _ _ _

theorem get?_put_of_ne (d : Disk) {p q : Place} (c : Content) (differs : q ≠ p) :
    (d.put p c).files.get? q = d.files.get? q :=
  Entries.get?_set_of_ne _ _ differs

/-! ## Ways -/

theorem checkDir_eq_ok_iff {d : Disk} {path : String} {p : Place} {u : Unit} :
    d.checkDir path p = .ok u ↔ d.isDir p = true := by
  unfold checkDir
  cases d.isDir p with
  | true => simp
  | false =>
    constructor
    · intro run
      rw [if_neg Bool.false_ne_true] at run
      split at run
      · cases run
      · cases run
    · intro isTrue
      cases isTrue

/-- Where a way leads is a matter of the directories alone. -/
theorem walk_congr {d d' : Disk} (same : ∀ p, d'.isDir p = d.isDir p) {path : String}
    {p q : Place} {names : List String} (run : d.walk path p names = .ok q) :
    d'.walk path p names = .ok q := by
  induction names generalizing p with
  | nil => exact run
  | cons name rest ih =>
    rw [walk, bind_eq_ok_iff] at run ⊢
    obtain ⟨u, passed, later⟩ := run
    rw [checkDir_eq_ok_iff] at passed
    exact ⟨u, checkDir_eq_ok_iff.mpr ((same p).trans passed), ih later⟩

theorem placeOf_congr {d d' : Disk} (same : ∀ p, d'.isDir p = d.isDir p) {path : String}
    {p : Place} (run : d.placeOf path = .ok p) : d'.placeOf path = .ok p := by
  unfold placeOf at run ⊢
  split at run
  · cases run
  · rename_i some
    rw [if_neg some]
    exact walk_congr same run

/-- A file that is written to a path comes to a place. -/
structure Takes (d : Disk) (path : String) (p : Place) : Prop where
  found : d.placeOf path = .ok p
  notDir : d.isDir p = false
  noSlash : Path.endsInSlash path = false

theorem Takes.congr {d d' : Disk} {path : String} {p : Place} (takes : d.Takes path p)
    (same : ∀ q, d'.isDir q = d.isDir q) : d'.Takes path p :=
  ⟨placeOf_congr same takes.found, (same p).trans takes.notDir, takes.noSlash⟩

theorem Takes.put {d : Disk} {path : String} {p : Place} (takes : d.Takes path p) (q : Place)
    (c : Content) : (d.put q c).Takes path p :=
  takes.congr fun _ => rfl

theorem Takes.eq {d : Disk} {path : String} {p q : Place} (takes : d.Takes path p)
    (takes' : d.Takes path q) : p = q :=
  Except.ok.inj (takes.found.symm.trans takes'.found)

/-- Whether a file can be written, and where, does not depend on what is written. -/
theorem write_cases (d : Disk) (path : String) :
    (∃ f, ∀ c, d.write path c = .error f) ∨
      ∃ p, d.Takes path p ∧ ∀ c, d.write path c = .ok (d.put p c) := by
  unfold write
  cases found : d.placeOf path with
  | error f => exact .inl ⟨f, fun _ => rfl⟩
  | ok p =>
    by_cases refused : (d.isDir p || Path.endsInSlash path) = true
    · refine .inl ⟨.fileIsDirectory, fun c => ?_⟩
      rw [ok_bind, if_pos refused]
      rfl
    · have free := Bool.or_eq_false_iff.mp (Bool.eq_false_iff.mpr refused)
      refine .inr ⟨p, ⟨found, free.1, free.2⟩, fun c => ?_⟩
      rw [ok_bind, if_neg refused]
      rfl

theorem write_eq_ok_iff {d d' : Disk} {path : String} {c : Content} :
    d.write path c = .ok d' ↔ ∃ p, d.Takes path p ∧ d' = d.put p c := by
  constructor
  · intro run
    rcases d.write_cases path with ⟨f, fails⟩ | ⟨p, takes, writes⟩
    · rw [fails] at run
      cases run
    · rw [writes] at run
      exact ⟨p, takes, (Except.ok.inj run).symm⟩
  · rintro ⟨p, takes, rfl⟩
    unfold write
    rw [takes.found, ok_bind, takes.notDir, takes.noSlash]
    rfl

end Disk

/-! ## Jobs -/

namespace Job

variable {α β : Type} {s s' : Site}

theorem runOn_eq_outcome (x : Job α) (s : Site) : x.runOn s = outcome x s := rfl

theorem runOn_bind_of_ok {x : Job α} {a : α} (ran : x.runOn s = (s', .ok a)) (f : α → Job β) :
    (x >>= f).runOn s = (f a).runOn s' := by
  rw [runOn_eq_outcome] at ran
  rw [runOn_eq_outcome, outcome_bind, ran, runOn_eq_outcome]

theorem runOn_bind_of_error {x : Job α} {fault : Fault} (ran : x.runOn s = (s', .error fault))
    (f : α → Job β) : (x >>= f).runOn s = (s', .error fault) := by
  rw [runOn_eq_outcome] at ran
  rw [runOn_eq_outcome, outcome_bind, ran]

@[simp] theorem runOn_bind_ok_iff {x : Job α} {f : α → Job β} {b : β} :
    (x >>= f).runOn s = (s', .ok b) ↔
      ∃ a s₁, x.runOn s = (s₁, .ok a) ∧ (f a).runOn s₁ = (s', .ok b) :=
  outcome_bind_eq_ok_iff

@[simp] theorem runOn_lift_ok_iff {r : Except Fault α} {a : α} :
    (lift r).runOn s = (s', .ok a) ↔ s = s' ∧ r = .ok a := by
  cases r with
  | error f =>
    constructor
    · intro run
      cases run
    · rintro ⟨_, run⟩
      cases run
  | ok b =>
    constructor
    · intro run
      cases run
      exact ⟨rfl, rfl⟩
    · rintro ⟨rfl, run⟩
      cases run
      rfl

@[simp] theorem runOn_info_ok_iff {text : String} {u : Unit} :
    (info text).runOn s = (s', .ok u) ↔ s.logged .info text = s' := by
  constructor
  · intro run
    cases run
    rfl
  · rintro rfl
    rfl

theorem runOn_onDisk (f : Disk → Disk × Except Fault Unit) (s : Site) :
    (onDisk f).runOn s = ({ s with disk := (f s.disk).1 }, (f s.disk).2) := by
  show runOn (set { s with disk := (f s.disk).1 } >>= fun _ => lift (f s.disk).2) s = _
  cases (f s.disk).2 with
  | ok u => rfl
  | error fault => rfl

/-- A job that writes a file fails or puts it at a place, whatever is written. -/
theorem runOn_write_cases (path : String) (s : Site) :
    (∃ f, ∀ c, (write path c).runOn s = (s, .error f)) ∨
      ∃ p, s.disk.Takes path p ∧
        ∀ c, (write path c).runOn s = ({ s with disk := s.disk.put p c }, .ok ()) := by
  rcases s.disk.write_cases path with ⟨f, fails⟩ | ⟨p, takes, writes⟩
  · refine .inl ⟨f, fun c => ?_⟩
    rw [write, runOn_onDisk, fails]
    rfl
  · refine .inr ⟨p, takes, fun c => ?_⟩
    rw [write, runOn_onDisk, writes]
    rfl

theorem runOn_write_ok_iff {path : String} {c : Content} {u : Unit} :
    (write path c).runOn s = (s', .ok u) ↔
      ∃ p, s.disk.Takes path p ∧ { s with disk := s.disk.put p c } = s' := by
  constructor
  · intro run
    rcases runOn_write_cases path s with ⟨f, fails⟩ | ⟨p, takes, writes⟩
    · rw [fails] at run
      cases run
    · rw [writes] at run
      cases run
      exact ⟨p, takes, rfl⟩
  · rintro ⟨p, takes, rfl⟩
    have written : s.disk.write path c = .ok (s.disk.put p c) :=
      Disk.write_eq_ok_iff.mpr ⟨p, takes, rfl⟩
    rw [write, runOn_onDisk, written]
    rfl

/-- Of a file that is written twice the second text counts. -/
theorem runOn_write_write_ok_iff {path : String} {first second : Content} {u : Unit} :
    (write path first >>= fun _ => write path second).runOn s = (s', .ok u) ↔
      ∃ p, s.disk.Takes path p ∧ { s with disk := s.disk.put p second } = s' := by
  simp only [runOn_bind_ok_iff, runOn_write_ok_iff]
  constructor
  · rintro ⟨_, _, ⟨p, takes, rfl⟩, p', takes', rfl⟩
    have same : p = p' := (takes.put p first).eq takes'
    subst same
    exact ⟨p, takes, by rw [Disk.put_put]⟩
  · rintro ⟨p, takes, rfl⟩
    exact ⟨(), _, ⟨p, takes, rfl⟩, p, takes.put p first, by rw [Disk.put_put]⟩

theorem runOn_writeArray_ok_iff {path : String} {a : NumArray} {u : Unit} :
    (writeArray path a).runOn s = (s', .ok u) ↔
      ∃ f p, ArrayFile.ofArray a = .ok f ∧ s.disk.Takes path p ∧
        { s with disk := s.disk.put p (.bytes f.bytes) } = s' := by
  unfold writeArray
  cases ArrayFile.ofArray a with
  | error f =>
    constructor
    · intro run
      simp only [runOn_bind_ok_iff, runOn_lift_ok_iff] at run
      obtain ⟨_, _, _, _, _, ⟨_, fails⟩, _⟩ := run
      cases fails
    · rintro ⟨_, _, fails, _⟩
      cases fails
  | ok f =>
    refine runOn_write_write_ok_iff.trans ?_
    constructor
    · rintro ⟨p, written⟩
      exact ⟨f, p, rfl, written⟩
    · rintro ⟨_, p, same, written⟩
      cases same
      exact ⟨p, written⟩

/-- A job that writes a text fails on its path, or it puts at a place what there is of the text. -/
theorem runOn_writeText_cases (path : String) (s : Site) :
    (∃ f, ∀ text, (writeText path text).runOn s = (s, .error f)) ∨
      ∃ p, s.disk.Takes path p ∧
        (∀ f, (writeText path (.error f)).runOn s =
          ({ s with disk := s.disk.put p (.text banner) }, .error f)) ∧
        ∀ t, (writeText path (.ok t)).runOn s =
          ({ s with disk := s.disk.put p (.text (banner ++ t)) }, .ok ()) := by
  rcases runOn_write_cases path s with ⟨f, fails⟩ | ⟨p, takes, writes⟩
  · exact .inl ⟨f, fun text => runOn_bind_of_error (fails _) _⟩
  · refine .inr ⟨p, takes, fun f => ?_, fun t => ?_⟩
    · exact runOn_bind_of_ok (writes _) _
    · exact runOn_write_write_ok_iff.mpr ⟨p, takes, rfl⟩

theorem runOn_writeText_ok_iff {path : String} {text : Except Fault String} {u : Unit} :
    (writeText path text).runOn s = (s', .ok u) ↔
      ∃ t p, text = .ok t ∧ s.disk.Takes path p ∧
        { s with disk := s.disk.put p (.text (banner ++ t)) } = s' := by
  constructor
  · intro run
    rcases runOn_writeText_cases path s with ⟨f, fails⟩ | ⟨p, takes, refuses, writes⟩
    · rw [fails] at run
      cases run
    · cases text with
      | error f =>
        rw [refuses] at run
        cases run
      | ok t =>
        rw [writes] at run
        cases run
        exact ⟨t, p, rfl, takes, rfl⟩
  · rintro ⟨t, p, rfl, takes, rfl⟩
    exact runOn_write_write_ok_iff.mpr ⟨p, takes, rfl⟩

end Job

end TensorEmit
