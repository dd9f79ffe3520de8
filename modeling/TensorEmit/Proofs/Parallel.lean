import TensorEmit.Generate
import TensorEmit.Proofs.OperatorCalls
import TensorEmit.Proofs.Steps

/-!
# Two runs side by side

What two runs have in common is shown by running them side by side. `Parallel E R R' S x y` says
that, from states related by `R`, the steps `x` and `y` either both succeed, with states related by
`R'` and results related by `S`, or both fail, with states and faults related by `E`.

A `Pairing` says how the disks, the sets of headers and the faults of two runs of emission are
related. The laws of `Pairing.Lawful` are about single writes and single changes of a set;
`Pairing.Lawful.addOperations` lifts them to the emission of a whole graph.
-/

namespace TensorEmit

open Code

/-! ## Steps side by side -/

section Steps

variable {σ α β : Type}

/-- Two steps end alike. -/
inductive Matched (E : σ × Fault → σ × Fault → Prop) (R : σ → σ → Prop) (S : α → α → Prop) :
    σ × Except Fault α → σ × Except Fault α → Prop
  | ok {s s' : σ} {a a' : α} : R s s' → S a a' → Matched E R S (s, .ok a) (s', .ok a')
  | error {s s' : σ} {f f' : Fault} : E (s, f) (s', f') →
      Matched E R S (s, .error f) (s', .error f')

/-- From states related by `R`, two steps end alike. -/
def Parallel (E : σ × Fault → σ × Fault → Prop) (R R' : σ → σ → Prop) (S : α → α → Prop)
    (x y : ExceptT Fault (StateM σ) α) : Prop :=
  ∀ s s', R s s' → Matched E R' S (outcome x s) (outcome y s')

variable {E : σ × Fault → σ × Fault → Prop} {R R' R'' : σ → σ → Prop}

namespace Parallel

theorem bind {S : α → α → Prop} {T : β → β → Prop} {x y : ExceptT Fault (StateM σ) α}
    {f g : α → ExceptT Fault (StateM σ) β} (first : Parallel E R R' S x y)
    (rest : ∀ a b, S a b → Parallel E R' R'' T (f a) (g b)) :
    Parallel E R R'' T (x >>= f) (y >>= g) := by
  intro s s' start
  rw [outcome_bind, outcome_bind]
  have ended := first s s' start
  revert ended
  generalize outcome x s = r, outcome y s' = r'
  intro ended
  cases ended with
  | ok states results => exact rest _ _ results _ _ states
  | error faults => exact .error faults

theorem pure {S : α → α → Prop} {a b : α} (results : S a b) :
    Parallel E R R S (Pure.pure a) (Pure.pure b) :=
  fun _ _ states => .ok states results

theorem fail {S : α → α → Prop} {f f' : Fault} (faults : ∀ s s', R s s' → E (s, f) (s', f')) :
    Parallel E R R' S (throw f) (throw f') :=
  fun s s' states => .error (faults s s' states)

/-- A step beside itself, from one state. -/
theorem self (x : ExceptT Fault (StateM σ) α) : Parallel Eq Eq Eq Eq x x := by
  intro s s' same
  subst same
  rcases outcome x s with ⟨s₁, r⟩
  cases r with
  | ok a => exact .ok rfl rfl
  | error f => exact .error rfl

theorem state : Parallel E R R R (get : ExceptT Fault (StateM σ) σ) get :=
  fun _ _ states => .ok states states

theorem put {s s' : σ} (states : R' s s') :
    Parallel E R R' Eq (set s : ExceptT Fault (StateM σ) PUnit) (set s') :=
  fun _ _ _ => .ok states rfl

theorem update {f g : σ → σ} (states : ∀ s s', R s s' → R' (f s) (g s')) :
    Parallel E R R' Eq (modify f : ExceptT Fault (StateM σ) PUnit) (modify g) :=
  fun s s' start => .ok (states s s' start) rfl

/-- A step that is made only if asked for, and the rest behind it. -/
theorem optional {S : α → α → Prop} {asked : Bool} {x y : ExceptT Fault (StateM σ) PUnit}
    {f g : PUnit → ExceptT Fault (StateM σ) α} (first : Parallel E R R Eq x y)
    (rest : ∀ u, Parallel E R R' S (f u) (g u)) :
    Parallel E R R' S (if asked then x >>= f else f ()) (if asked then y >>= g else g ()) := by
  cases asked with
  | false => exact rest ()
  | true =>
    refine first.bind fun a b same => ?_
    exact same ▸ rest a

theorem imp {S T : α → α → Prop} {E' : σ × Fault → σ × Fault → Prop}
    {x y : ExceptT Fault (StateM σ) α} (both : Parallel E R R' S x y)
    (faults : ∀ a b, E a b → E' a b) (states : ∀ s s', R' s s' → R'' s s')
    (results : ∀ a b, S a b → T a b) : Parallel E' R R'' T x y := by
  intro s s' start
  have ended := both s s' start
  revert ended
  generalize outcome x s = r, outcome y s' = r'
  intro ended
  cases ended with
  | ok kept made => exact .ok (states _ _ kept) (results _ _ made)
  | error failed => exact .error (faults _ _ failed)

end Parallel

end Steps

section OnSite

variable {α : Type}

/-- What two jobs do to the disks, two steps do to the disks of their states. -/
theorem Parallel.onSite {E : Site × Fault → Site × Fault → Prop}
    {R R' : Site → Site → Prop} {F : Emission × Fault → Emission × Fault → Prop}
    {Q Q' : Emission → Emission → Prop} {S : α → α → Prop} {x y : Job α}
    (jobs : Parallel E R R' S x y) (start : ∀ e e', Q e e' → R e.site e'.site)
    (done : ∀ e e' s s', Q e e' → R' s s' → Q' { e with site := s } { e' with site := s' })
    (failed : ∀ e e' s s' f f', Q e e' → E (s, f) (s', f') →
      F ({ e with site := s }, f) ({ e' with site := s' }, f')) :
    Parallel F Q Q' S (Emit.onSite x) (Emit.onSite y) := by
  intro e e' paired
  rw [outcome_onSite, outcome_onSite]
  have ended := jobs _ _ (start e e' paired)
  revert ended
  generalize outcome x e.site = r, outcome y e'.site = r'
  intro ended
  cases ended with
  | ok sites results => exact .ok (done e e' _ _ paired sites) results
  | error faults => exact .error (failed e e' _ _ _ _ paired faults)

end OnSite

/-! ## Pairings of emissions -/

/-- How the disks, the sets of headers, the inlined constants and the faults of two runs are
related. -/
structure Pairing where
  site : Site → Site → Prop
  sets : HeaderSets → HeaderSets → Prop
  weights : List Fragment → List Fragment → Prop
  fault : Fault → Fault → Prop

namespace Pairing

/-- The states of two runs are paired. -/
structure States (p : Pairing) (e e' : Emission) : Prop where
  site : p.site e.site e'.site
  sets : p.sets e.sets e'.sets
  weights : p.weights e.weights e'.weights

/-- The states and faults of two runs that failed are paired. -/
def Failures (p : Pairing) (x y : Emission × Fault) : Prop := p.States x.1 y.1 ∧ p.fault x.2 y.2

/-- Two jobs on paired disks end alike. -/
def Jobs {α : Type} (p : Pairing) (S : α → α → Prop) (x y : Job α) : Prop :=
  Parallel (fun a b => p.site a.1 b.1 ∧ p.fault a.2 b.2) p.site p.site S x y

/-- Two steps on paired states end alike. -/
def Steps {α : Type} (p : Pairing) (S : α → α → Prop) (x y : Emit α) : Prop :=
  Parallel p.Failures p.States p.States S x y

/-- Two runs of one step stay paired and give the same. -/
def Keeps {α : Type} (p : Pairing) (x : Emit α) : Prop := p.Steps Eq x x

/-- A pairing is kept by headers for a container and by one more inlined constant, and the headers
of all but containers are the same. -/
structure LawfulSets (p : Pairing) : Prop where
  owned : ∀ hs hs' t, p.sets hs hs' → t.isContainer = false →
    hs.of (.builtIn t) = hs'.of (.builtIn t)
  addAll : ∀ hs hs' t more, p.sets hs hs' → t.isContainer = true →
    p.sets (hs.addAll (.builtIn t) more) (hs'.addAll (.builtIn t) more)
  push : ∀ ws ws' f, p.weights ws ws' → p.weights (ws ++ [f]) (ws' ++ [f])

theorem LawfulSets.of_eq {p : Pairing} (sets : p.sets = Eq) (weights : p.weights = Eq) :
    p.LawfulSets where
  owned hs hs' t same _ := by
    rw [sets] at same
    rw [same]
  addAll hs hs' t more same _ := by
    rw [sets] at same ⊢
    rw [same]
  push ws ws' f same := by
    rw [weights] at same ⊢
    rw [same]

/-- What the steps of emission ask of a pairing: that it is also kept by writing to the log and by
writing a file. -/
structure Lawful (p : Pairing) : Prop extends p.LawfulSets where
  refl : ∀ f, p.fault f f
  logged : ∀ s s' level text, p.site s s' → p.site (s.logged level text) (s'.logged level text)
  write : ∀ path c, p.Jobs Eq (Job.write path c) (Job.write path c)

variable {p : Pairing} {α : Type}

/-! ## Jobs -/

theorem Lawful.liftJob (lawful : p.Lawful) (r : Except Fault α) :
    p.Jobs Eq (Job.lift r) (Job.lift r) := by
  cases r with
  | ok a => exact .pure rfl
  | error f => exact .fail fun s s' paired => ⟨paired, lawful.refl f⟩

theorem Lawful.info (lawful : p.Lawful) (text : String) : p.Jobs Eq (Job.info text)
    (Job.info text) :=
  .update fun s s' paired => lawful.logged s s' .info text paired

theorem Lawful.writeArray (lawful : p.Lawful) (path : String) (a : NumArray) :
    p.Jobs Eq (Job.writeArray path a) (Job.writeArray path a) := by
  unfold Job.writeArray
  refine (lawful.write path (.bytes [])).bind fun _ _ _ => ?_
  refine (lawful.liftJob (ArrayFile.ofArray a)).bind fun f f' same => ?_
  subst same
  exact lawful.write path (.bytes f.bytes)

theorem Lawful.writeText (lawful : p.Lawful) (path : String) (text : Except Fault String) :
    p.Jobs Eq (TensorEmit.writeText path text) (TensorEmit.writeText path text) := by
  unfold TensorEmit.writeText
  refine (lawful.write path (.text banner)).bind fun _ _ _ => ?_
  cases text with
  | ok s => exact lawful.write path (.text (banner ++ s))
  | error f => exact .fail fun s s' paired => ⟨paired, lawful.refl f⟩

/-! ## Steps of emission -/

theorem Lawful.lift (lawful : p.Lawful) (r : Except Fault α) : p.Keeps (Emit.lift r) := by
  cases r with
  | ok a => exact .pure rfl
  | error f => exact .fail fun s s' paired => ⟨paired, lawful.refl f⟩

theorem Jobs.onSite {S : α → α → Prop} {x y : Job α} (jobs : p.Jobs S x y) :
    p.Steps S (Emit.onSite x) (Emit.onSite y) :=
  Parallel.onSite jobs (fun _ _ paired => paired.site)
    (fun _ _ _ _ paired site => ⟨site, paired.sets, paired.weights⟩)
    (fun _ _ _ _ _ _ paired failed => ⟨⟨failed.1, paired.sets, paired.weights⟩, failed.2⟩)

/-- What is known of every result of a step is known of the first of two results. -/
theorem Steps.and {S : α → α → Prop} {P : α → Prop} {x y : Emit α} (steps : p.Steps S x y)
    (each : ∀ e e' a, x.runOn e = (e', .ok a) → P a) : p.Steps (fun a b => S a b ∧ P a) x y := by
  intro e e' paired
  have ended := steps e e' paired
  rcases left : outcome x e with ⟨e₁, r⟩
  rw [left] at ended
  revert ended
  generalize outcome y e' = r'
  intro ended
  cases ended with
  | ok states related => exact .ok states ⟨related, each _ _ _ left⟩
  | error failed => exact .error failed

end Pairing

/-! ## Fragments of operations -/

/-- A fragment of a template that is no container. -/
def Code.Fragment.Plain (f : Fragment) : Prop := ∃ t vars, f = .of t vars ∧ t.isContainer = false

theorem emitOperation_plain {target : Target} {op : Operation} {f : Fragment} {e e' : Emission}
    (run : (emitOperation target op).runOn e = (e', .ok f)) : f.Plain := by
  obtain ⟨t, emitted, vars, rfl⟩ := emitOperation_template run
  have plain : ∀ t ∈ Template.ofOperations, t.isContainer = false := by decide
  exact ⟨t, vars, rfl, plain t emitted⟩

/-! ## Emission of graphs -/

namespace Pairing

variable {p : Pairing}

theorem Lawful.headers (lawful : p.Lawful) {f : Fragment} (plain : f.Plain) {hs hs' : HeaderSets}
    (paired : p.sets hs hs') : f.headers hs = f.headers hs' := by
  obtain ⟨t, vars, rfl, isPlain⟩ := plain
  exact congrArg Except.ok (lawful.owned hs hs' t paired isPlain)

theorem Lawful.addWeight (lawful : p.Lawful) {f : Fragment} (plain : f.Plain) :
    p.Keeps (Emit.addWeight f) := by
  refine Parallel.state.bind fun e e' paired => ?_
  rw [lawful.headers plain paired.sets]
  refine (lawful.lift _).bind fun hs hs' same => ?_
  subst same
  have kept := lawful.addAll _ _ .weights hs paired.sets rfl
  exact .put ⟨paired.site, kept, lawful.push _ _ f paired.weights⟩

theorem Lawful.addMember (lawful : p.Lawful) (d : Draft) {f : Fragment} (plain : f.Plain) :
    p.Keeps (TensorEmit.addMember d f) := by
  refine Parallel.state.bind fun e e' paired => ?_
  rw [lawful.headers plain paired.sets]
  refine (lawful.lift _).bind fun hs hs' same => ?_
  subst same
  have kept := lawful.addAll _ _ .context hs paired.sets rfl
  exact (Parallel.put ⟨paired.site, kept, paired.weights⟩).bind fun _ _ _ => .pure rfl

theorem Lawful.emitConst (lawful : p.Lawful) (target : Target) (op : Operation) :
    p.Keeps (TensorEmit.emitConst target op) := by
  unfold TensorEmit.emitConst
  refine (lawful.lift _).bind fun out _ same => ?_
  subst same
  refine (lawful.lift _).bind fun count _ same => ?_
  subst same
  dsimp only
  cases target.dataDir with
  | none => exact .fail fun s s' paired => ⟨paired, lawful.refl _⟩
  | some dir =>
    refine (lawful.lift _).bind fun dir _ same => ?_
    subst same
    refine (lawful.lift _).bind fun vars _ same => ?_
    subst same
    refine (lawful.lift _).bind fun array _ same => ?_
    subst same
    have stored := (lawful.writeArray (Path.join dir (flatName out.name ++ ".idx"))
      array.atLeastOneDimension).bind fun _ _ _ =>
        lawful.info ("saving " ++ Path.join dir (flatName out.name ++ ".idx"))
    exact (Jobs.onSite stored).bind fun _ _ _ => .pure rfl

theorem Lawful.emitInline (lawful : p.Lawful) (target : Target) (op : Operation) :
    p.Keeps (TensorEmit.emitInline target op) := by
  unfold TensorEmit.emitInline
  refine (lawful.lift _).bind fun out _ same => ?_
  subst same
  refine (lawful.lift _).bind fun count _ same => ?_
  subst same
  refine (lawful.lift _).bind fun array _ same => ?_
  subst same
  refine (lawful.lift _).bind fun vars _ same => ?_
  subst same
  refine (lawful.lift _).bind fun weight _ same => ?_
  subst same
  refine .optional (.fail fun s s' paired => ⟨paired, lawful.refl _⟩) fun _ => ?_
  exact (lawful.addWeight ⟨.weight, weight, rfl, rfl⟩).bind fun _ _ _ => .pure rfl

theorem Lawful.emitOperation (lawful : p.Lawful) (target : Target) (op : Operation) :
    p.Keeps (TensorEmit.emitOperation target op) := by
  unfold TensorEmit.emitOperation
  split
  · exact .fail fun s s' paired => ⟨paired, lawful.refl _⟩
  · exact lawful.emitConst target op
  · exact lawful.emitInline target op
  all_goals exact lawful.lift _

theorem Lawful.addOperation (lawful : p.Lawful) (target : Target) (d : Draft) (op : Operation) :
    p.Keeps (TensorEmit.addOperation target d op) := by
  unfold TensorEmit.addOperation
  split
  · refine (lawful.lift _).bind fun out _ same => ?_
    subst same
    refine (lawful.lift _).bind fun count _ same => ?_
    subst same
    exact .pure rfl
  · refine ((lawful.emitOperation target op).and fun _ _ _ run => emitOperation_plain run).bind ?_
    rintro f _ ⟨rfl, plain⟩
    exact lawful.addMember d plain

/-- Two runs of the emission of a graph stay paired and give the same entry point. -/
theorem Lawful.addOperations (lawful : p.Lawful) (target : Target) (comments : Bool) (g : Graph)
    (i : Nat) (d : Draft) (names : List String) :
    p.Keeps (TensorEmit.addOperations target comments g i d names) := by
  induction names generalizing i d with
  | nil => exact .pure rfl
  | cons name rest ih =>
    refine (lawful.lift _).bind fun op _ same => ?_
    subst same
    refine (lawful.addOperation target d op).bind fun d₁ _ same => ?_
    subst same
    cases comments with
    | false => exact (Parallel.pure rfl).bind fun d₂ _ same => same ▸ ih (i + 1) d₂
    | true =>
      have commented := lawful.addMember d₁ (f := operationComment i name) ⟨.comment, _, rfl, rfl⟩
      exact commented.bind fun d₂ _ same => same ▸ ih (i + 1) d₂

end Pairing

end TensorEmit
