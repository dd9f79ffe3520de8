import Mathlib.Data.List.Induction
import TensorEmit.Code.Workbench
import TensorEmit.Proofs.LaterRuns

/-!
# Histories of a workbench

`Workbench.Step` lists what can be done on a workbench, and `Workbench.after` is the workbench after
a history of steps, of which some may fail. `Workbench.Effect` says what a single step can change,
failed steps included, and `Workbench.effect_step` that this is all.

An item keeps its kind and the owner of its headers, and it loses no members
(`Workbench.Change.keeps`). What items name are items (`Workbench.Sound`): a composer names
fragments and containers, and what a container names was made before it or is a fragment.
-/

namespace TensorEmit.Code

/-! ## Sets of headers -/

/-- One set of headers may have grown, and the others are as before. -/
structure HeaderSets.Grows (o : HeaderOwner) (sets sets' : HeaderSets) : Prop where
  others : ∀ other, other ≠ o → sets'.of other = sets.of other
  keeps : ∀ h ∈ sets.of o, h ∈ sets'.of o

namespace HeaderSets.Grows

variable {o : HeaderOwner} {sets sets' sets'' : HeaderSets}

theorem refl : Grows o sets sets := ⟨fun _ _ => rfl, fun _ => id⟩

theorem trans (first : Grows o sets sets') (second : Grows o sets' sets'') : Grows o sets sets'' :=
  ⟨fun other differs => (second.others other differs).trans (first.others other differs),
    fun h member => second.keeps h (first.keeps h member)⟩

theorem addAll (o : HeaderOwner) (sets : HeaderSets) (more : Headers) :
    Grows o sets (sets.addAll o more) := by
  refine ⟨fun other differs => of_addAll_of_ne more differs, fun h member => ?_⟩
  rw [of_addAll, Headers.mem_addAll]
  exact .inl member

theorem mem {p : HeaderOwner} {h : String} (grows : Grows o sets sets') (member : h ∈ sets.of p) :
    h ∈ sets'.of p := by
  by_cases same : p = o
  · subst same
    exact grows.keeps h member
  · rwa [grows.others p same]

/-- What a set takes over from another one before it grows, it holds afterwards. -/
theorem takes {p : HeaderOwner} (grows : Grows o sets sets')
    (taken : ∀ h ∈ sets.of p, h ∈ sets.of o) : ∀ h ∈ sets'.of p, h ∈ sets'.of o := by
  intro h member
  by_cases same : p = o
  · rwa [same] at member
  · rw [grows.others p same] at member
    exact grows.keeps h (taken h member)

theorem takes_addAll (o p : HeaderOwner) (sets : HeaderSets) :
    ∀ h ∈ (sets.addAll o (sets.of p)).of p, h ∈ (sets.addAll o (sets.of p)).of o := by
  intro h member
  by_cases same : p = o
  · rwa [same] at member ⊢
  · rw [of_addAll_of_ne _ same] at member
    rw [of_addAll, Headers.mem_addAll]
    exact .inr member

end HeaderSets.Grows

/-! ## Items -/

/-- What becomes of an item: it keeps its kind and the owner of its headers and loses no members. -/
inductive Item.Becomes : Item → Item → Prop
  | fragment {f g : Fragment} (owner : g.owner = f.owner) : Becomes (.fragment f) (.fragment g)
  | container {f g : Fragment} {ms ms' : List Nat} {isSealed : Bool} (owner : g.owner = f.owner)
      (more : ms <+: ms') : Becomes (.container f ms isSealed) (.container g ms' isSealed)
  | composer {ms ms' : List Nat} {isSealed : Bool} {kept kept' : Option String}
      (more : ms <+: ms') : Becomes (.composer ms isSealed kept) (.composer ms' isSealed kept')

namespace Item.Becomes

theorem refl (item : Item) : Becomes item item := by
  cases item with
  | fragment f => exact .fragment rfl
  | container f ms isSealed => exact .container rfl (List.prefix_refl ms)
  | composer ms isSealed kept => exact .composer (List.prefix_refl ms)

theorem mapFragment {g : Fragment → Fragment} (owner : ∀ f, (g f).owner = f.owner) (item : Item) :
    item.Becomes (item.mapFragment g) := by
  cases item with
  | fragment f => exact .fragment (owner f)
  | container f ms isSealed => exact .container (owner f) (List.prefix_refl ms)
  | composer ms isSealed kept => exact .composer (List.prefix_refl ms)

/-- What has headers keeps their owner. -/
theorem fragment? {item item' : Item} (becomes : item.Becomes item') {f : Fragment}
    (has : item.fragment? = some f) : ∃ g, item'.fragment? = some g ∧ g.owner = f.owner := by
  cases becomes with
  | fragment owner =>
    cases has
    exact ⟨_, rfl, owner⟩
  | container owner more =>
    cases has
    exact ⟨_, rfl, owner⟩
  | composer more => cases has

end Item.Becomes

namespace Workbench

/-! ## Steps -/

/-- What can be done on a workbench. -/
inductive Step where
  | make (name : String) (c : ItemClass) (given : Entries String Value)
      (members : Option (List Member))
  | makeCustom (name : String) (c : CustomClass)
  | addMember (name : String) (member : Member)
  | addHeader (name header : String)
  | dropHeader (name header : String)
  | setVariables (name : String) (more : Variables)
  | appendToVariable (name var : String) (v : Value)
  | clearHeaders (name : String)
  | clearTemplate (name : String)
  | compose (name : String)

/-- Whether a step changes a fragment or what stands around the members of a container. -/
def Step.isEdit : Step → Bool
  | setVariables .. | appendToVariable .. | clearHeaders .. | clearTemplate .. => true
  | _ => false

/-- The workbench after a step, whether it fails or not. -/
def step (w : Workbench) : Step → Workbench
  | .make name c given members => (w.make name c given members).1
  | .makeCustom name c => (w.makeCustom name c).1
  | .addMember name member => (w.addMember name member).1
  | .addHeader name header => (w.addHeader name header).1
  | .dropHeader name header => (w.dropHeader name header).1
  | .setVariables name more => (w.setVariables name more).1
  | .appendToVariable name var v => (w.appendToVariable name var v).1
  | .clearHeaders name => (w.clearHeaders name).1
  | .clearTemplate name => (w.clearTemplate name).1
  | .compose name => (w.compose name).1

/-- The workbench after further steps. -/
def run (w : Workbench) (steps : List Step) : Workbench := steps.foldl step w

/-- The workbench after a history of steps. -/
def after (steps : List Step) : Workbench := empty.run steps

theorem run_append (w : Workbench) (steps more : List Step) :
    w.run (steps ++ more) = (w.run steps).run more :=
  List.foldl_append

theorem after_append (steps : List Step) (s : Step) : after (steps ++ [s]) = (after steps).step s :=
  run_append empty steps [s]

/-- Something holds of every step of a run and of the workbench on which it is done. -/
def Along (P : Workbench → Step → Prop) (w : Workbench) : List Step → Prop
  | [] => True
  | s :: later => P w s ∧ Along P (w.step s) later

theorem along_append {P : Workbench → Step → Prop} {w : Workbench} {steps more : List Step} :
    w.Along P (steps ++ more) ↔ w.Along P steps ∧ (w.run steps).Along P more := by
  induction steps generalizing w with
  | nil => simp [Along, run]
  | cons s later ih => rw [List.cons_append, Along, Along, ih, and_assoc]; rfl

theorem along_and {P Q : Workbench → Step → Prop} {w : Workbench} {steps : List Step}
    (first : w.Along P steps) (second : w.Along Q steps) :
    w.Along (fun w s => P w s ∧ Q w s) steps := by
  induction steps generalizing w with
  | nil => exact trivial
  | cons s later ih => exact ⟨⟨first.1, second.1⟩, ih first.2 second.2⟩

theorem Along.imp {P Q : Workbench → Step → Prop} (weaker : ∀ w s, P w s → Q w s) {w : Workbench}
    {steps : List Step} (along : w.Along P steps) : w.Along Q steps := by
  induction steps generalizing w with
  | nil => exact trivial
  | cons s later ih => exact ⟨weaker w s along.1, ih along.2⟩

theorem along_of_forall {Q : Step → Prop} {w : Workbench} {steps : List Step}
    (all : ∀ s ∈ steps, Q s) : w.Along (fun _ s => Q s) steps := by
  induction steps generalizing w with
  | nil => exact trivial
  | cons s later ih =>
    obtain ⟨first, rest⟩ := List.forall_mem_cons.mp all
    exact ⟨first, ih rest⟩

/-- The fragment that an item is or that stands around its members, by number. -/
def fragmentAt (w : Workbench) (n : Nat) : Option Fragment := w.items[n]?.bind Item.fragment?

/-- Whose headers an item with a number can have: those of a template of its kind, or those of a
class of its own. -/
def OwnerFits (isContainer : Bool) (n : Nat) (o : HeaderOwner) : Prop :=
  o = .custom n ∨ ∃ t : Template, o = .builtIn t ∧ t.isContainer = isContainer

/-- What an item with a number names are items, and a container was made after those of its members
that are containers. -/
inductive Fits (w : Workbench) (n : Nat) : Item → Prop
  | fragment {f : Fragment} (owner : OwnerFits false n f.owner) : Fits w n (.fragment f)
  | container {f : Fragment} {ms : List Nat} {isSealed : Bool} (owner : OwnerFits true n f.owner)
      (nested : ∀ m ∈ ms,
        (m < n ∧ ∃ g, w.fragmentAt m = some g) ∨ ∃ g, w.items[m]? = some (.fragment g)) :
      Fits w n (.container f ms isSealed)
  | composer {ms : List Nat} {isSealed : Bool} {kept : Option String}
      (held : ∀ m ∈ ms, ∃ f, w.fragmentAt m = some f) : Fits w n (.composer ms isSealed kept)

/-- What is named on the workbench is on it. -/
structure Sound (w : Workbench) : Prop where
  named : ∀ (name : String) (n : Nat), w.names.get? name = some n → n < w.items.length
  fits : ∀ (n : Nat) (item : Item), w.items[n]? = some item → w.Fits n item

/-- The number of a member that is an item. -/
def memberNumber? (w : Workbench) : Member → Option Nat
  | .item name => w.names.get? name
  | .value _ => none

/-! ## Effects -/

/-- A step adds an item to a composer. If the composer is sealed, the step fails, but the composer
forgets the text it keeps all the same. -/
def Adds (w : Workbench) (s : Step) (n m : Nat) : Prop :=
  ∃ name member ms isSealed kept item f, s = .addMember name (.item member) ∧
    w.find name = .ok (n, .composer ms isSealed kept) ∧ w.find member = .ok (m, item) ∧
    item.fragment? = some f

/-- A step makes a composer compose a text and keep it. -/
def Composes (w : Workbench) (s : Step) (n : Nat) (ms : List Nat) (t : String) : Prop :=
  ∃ name isSealed, s = .compose name ∧ w.find name = .ok (n, .composer ms isSealed none) ∧
    w.composeNow ms = .ok t

/-- What a step changes. -/
inductive Effect (w : Workbench) : Step → Workbench → Prop
  | idle {s : Step} (adds : ∀ n m, ¬w.Adds s n m) (composes : ∀ n ms t, ¬w.Composes s n ms t) :
      Effect w s w
  | newFragment {name : String} {c : ItemClass} {given : Entries String Value}
      {members : Option (List Member)} {t : Template} {vars : Variables}
      (plain : t.isContainer = false) :
      Effect w (.make name c given members) (w.put name (.fragment (.of t vars)))
  | newContainer {name : String} {c : ItemClass} {given : Entries String Value}
      {members : Option (List Member)} {t : Template} {vars : Variables} {ms : List Nat}
      {isSealed : Bool} {sets : HeaderSets} (isContainer : t.isContainer = true)
      (grows : w.sets.Grows (.builtIn t) sets)
      (taken : ∀ m ∈ ms, ∃ f, w.fragmentAt m = some f ∧
        ∀ h ∈ sets.of f.owner, h ∈ sets.of (.builtIn t)) :
      Effect w (.make name c given members)
        (put { w with sets } name (.container (.of t vars) ms isSealed))
  /-- A container cannot be made, but the headers of members were merged already. -/
  | merged {name : String} {c : ItemClass} {given : Entries String Value}
      {members : Option (List Member)} {t : Template} {sets : HeaderSets}
      (isContainer : t.isContainer = true) (grows : w.sets.Grows (.builtIn t) sets) :
      Effect w (.make name c given members) { w with sets }
  | newComposer {name : String} {c : ItemClass} {given : Entries String Value}
      {members : Option (List Member)} {ms : List Nat} {isSealed : Bool}
      (held : ∀ m ∈ ms, ∃ f, w.fragmentAt m = some f)
      (listed : (members.getD []).map w.memberNumber? = ms.map some) :
      Effect w (.make name c given members) (w.put name (.composer ms isSealed none))
  | newCustom {name : String} {c : CustomClass} {f : Fragment} {hs : Headers} {item : Item}
      (owner : f.owner = .custom w.items.length) (headed : f.headless = false)
      (isItem : item = .fragment f ∨ item = .container f [] false) :
      Effect w (.makeCustom name c)
        (put { w with sets := w.sets.addAll (.custom w.items.length) hs } name item)
  | containerGrown {name member : String} {n m : Nat} {f g : Fragment} {ms : List Nat}
      (found : w.find name = .ok (n, .container f ms false))
      (isFragment : w.items[m]? = some (.fragment g)) :
      Effect w (.addMember name (.item member))
        (replace { w with sets := w.sets.addAll f.owner (w.sets.of g.owner) } n
          (.container f (ms ++ [m]) false))
  | containerSealed {name member : String} {n m : Nat} {f g : Fragment} {ms : List Nat}
      (found : w.find name = .ok (n, .container f ms true))
      (isFragment : w.items[m]? = some (.fragment g)) :
      Effect w (.addMember name (.item member))
        { w with sets := w.sets.addAll f.owner (w.sets.of g.owner) }
  | composerGrown {s : Step} {n m : Nat} {ms : List Nat} {isSealed : Bool} {kept : Option String}
      (adds : w.Adds s n m) (found : w.items[n]? = some (.composer ms isSealed kept)) :
      Effect w s (w.replace n (.composer (if isSealed then ms else ms ++ [m]) isSealed none))
  | headerAdded {name header : String} {n : Nat} {f : Fragment}
      (found : w.findFragment name = .ok (n, f)) :
      Effect w (.addHeader name header) { w with sets := w.sets.addAll f.owner [header] }
  | headerDropped {name header : String} {n : Nat} {f : Fragment}
      (found : w.findFragment name = .ok (n, f)) :
      Effect w (.dropHeader name header) { w with sets := w.sets.drop f.owner header }
  | edited {s : Step} {n : Nat} {item : Item} {g : Fragment → Fragment} (edit : s.isEdit = true)
      (found : w.items[n]? = some item) (owner : ∀ f, (g f).owner = f.owner)
      (headless : (∀ name, s ≠ .clearHeaders name) → ∀ f, (g f).headless = f.headless) :
      Effect w s (w.replace n (item.mapFragment g))
  | composed {s : Step} {n : Nat} {ms : List Nat} {isSealed : Bool} {t : String}
      (composes : w.Composes s n ms t)
      (found : w.items[n]? = some (.composer ms isSealed none)) :
      Effect w s (w.replace n (.composer ms isSealed (some t)))

section Lookups

variable {w : Workbench}

theorem numberOf_eq_ok_iff {name : String} {n : Nat} :
    w.numberOf name = .ok n ↔ w.names.get? name = some n := by
  unfold numberOf
  cases w.names.get? name with
  | none => simp
  | some m => simp

theorem find_eq_ok_iff {name : String} {n : Nat} {item : Item} :
    w.find name = .ok (n, item) ↔ w.names.get? name = some n ∧ w.items[n]? = some item := by
  unfold find
  rw [bind_eq_ok_iff]
  simp only [numberOf_eq_ok_iff]
  constructor
  · rintro ⟨m, named, run⟩
    split at run
    case h_1 there =>
      cases run
      exact ⟨named, there⟩
    case h_2 => cases run
  · rintro ⟨named, there⟩
    refine ⟨n, named, ?_⟩
    rw [there]
    rfl

/-- The headers of an item are those of its owner. -/
theorem headersOf_eq_ok_iff {n : Nat} {hs : Headers} :
    w.headersOf n = .ok hs ↔
      ∃ f, w.fragmentAt n = some f ∧ f.headless = false ∧ w.sets.of f.owner = hs := by
  have headers : ∀ f : Fragment, f.headers w.sets = .ok hs ↔
      f.headless = false ∧ w.sets.of f.owner = hs := by
    intro f
    unfold Fragment.headers
    cases f.headless with
    | false => simp
    | true => simp
  unfold headersOf fragmentAt
  cases w.items[n]? with
  | none => simp
  | some item =>
    cases item with
    | fragment f => simp [Item.fragment?, headers]
    | container f ms isSealed => simp [Item.fragment?, headers]
    | composer ms isSealed kept => simp [Item.fragment?]

theorem fragmentAt_of_item {n : Nat} {item : Item} {f : Fragment} (there : w.items[n]? = some item)
    (has : item.fragment? = some f) : w.fragmentAt n = some f := by
  rw [fragmentAt, there]
  exact has

end Lookups

section Making

variable {w : Workbench} {s : Step} {name : String} {c : ItemClass} {given : Entries String Value}
  {members : Option (List Member)} {held : Option Held}

theorem not_adds (other : ∀ name member, s ≠ .addMember name member) (n m : Nat) :
    ¬w.Adds s n m := by
  rintro ⟨name, member, _, _, _, _, _, isAddition, _⟩
  exact other name _ isAddition

theorem not_composes (other : ∀ name, s ≠ .compose name) (n : Nat) (ms : List Nat) (t : String) :
    ¬w.Composes s n ms t := by
  rintro ⟨name, _, isComposing, _⟩
  exact other name isComposing

/-- The headers of members are merged one after the other; nothing else happens to them. -/
theorem mergeHeaders_spec (w : Workbench) (o : HeaderOwner) (ms : Held) :
    ∃ sets, (w.mergeHeaders o ms).1 = { w with sets } ∧ w.sets.Grows o sets ∧
      ∀ ns, (w.mergeHeaders o ms).2 = .ok ns → ∀ n ∈ ns,
        ∃ f, w.fragmentAt n = some f ∧ ∀ h ∈ sets.of f.owner, h ∈ sets.of o := by
  induction ms generalizing w with
  | nil =>
    refine ⟨w.sets, rfl, .refl, ?_⟩
    intro ns made
    cases made
    exact List.forall_mem_nil _
  | cons member rest ih =>
    obtain ⟨number, v⟩ := member
    cases number with
    | none => exact ⟨w.sets, rfl, .refl, fun ns made => by cases made⟩
    | some n =>
      rw [mergeHeaders]
      cases found : w.headersOf n with
      | error fault => exact ⟨w.sets, rfl, .refl, fun ns made => by cases made⟩
      | ok hs =>
        obtain ⟨f, there, _, rfl⟩ := headersOf_eq_ok_iff.mp found
        obtain ⟨sets, merged, grows, taken⟩ :=
          ih { w with sets := w.sets.addAll o (w.sets.of f.owner) }
        refine ⟨sets, by rw [merged], (HeaderSets.Grows.addAll o w.sets _).trans grows, ?_⟩
        intro ns made
        obtain ⟨later, laterMade, rfl⟩ := map_eq_ok_iff.mp made
        have own := grows.takes (HeaderSets.Grows.takes_addAll o f.owner w.sets)
        exact List.forall_mem_cons.mpr ⟨⟨f, there, own⟩, taken later laterMade⟩

theorem effect_makeContainer {t : Template} (isContainer : t.isContainer = true) :
    w.Effect (.make name c given members) (w.makeContainer name t given held).1 := by
  unfold makeContainer
  dsimp only
  split
  · exact .idle (not_adds (by simp)) (not_composes (by simp))
  · rename_i arg ms isSealed _
    obtain ⟨sets, merged, grows, taken⟩ := w.mergeHeaders_spec (.builtIn t) ms
    split
    · rename_i w' fault run
      rw [run] at merged
      rw [merged]
      exact .merged isContainer grows
    · rename_i w' ns run
      rw [run] at merged taken
      dsimp only at merged taken
      subst merged
      split
      · exact .merged isContainer grows
      · have last := HeaderSets.Grows.addAll (.builtIn t) sets
        refine .newContainer isContainer (grows.trans (last _)) fun m member => ?_
        obtain ⟨f, there, all⟩ := taken ns rfl m member
        exact ⟨f, there, (last _).takes all⟩

theorem effect_makeFragment {t : Template} (plain : t.isContainer = false) :
    w.Effect (.make name c given members) (w.makeFragment name t given held).1 := by
  unfold makeFragment
  split
  · exact .idle (not_adds (by simp)) (not_composes (by simp))
  · exact .idle (not_adds (by simp)) (not_composes (by simp))
  · rename_i f built
    unfold Fragment.construct at built
    simp only [bind_eq_ok_iff, pure_eq_ok_iff] at built
    obtain ⟨_, _, vars, _, rfl⟩ := built
    exact .newFragment plain

theorem composerMembers_spec {ms : Held} {ns : List Nat} (run : w.composerMembers ms = .ok ns) :
    ms.map Prod.fst = ns.map some ∧ ∀ n ∈ ns, ∃ f, w.fragmentAt n = some f := by
  induction ms generalizing ns with
  | nil =>
    cases run
    exact ⟨rfl, List.forall_mem_nil _⟩
  | cons member rest ih =>
    obtain ⟨number, v⟩ := member
    cases number with
    | none => cases run
    | some n =>
      rw [composerMembers] at run
      cases there : w.items[n]? with
      | none =>
        rw [there] at run
        cases run
      | some item =>
        rw [there] at run
        dsimp only at run
        cases has : item.fragment? with
        | none =>
          rw [has] at run
          cases run
        | some f =>
          simp only [has, Option.isNone_some, Bool.false_eq_true, if_false, pure_eq_ok_iff,
            bind_eq_ok_iff] at run
          obtain ⟨later, laterMade, rfl⟩ := run
          obtain ⟨listed, fragments⟩ := ih laterMade
          refine ⟨congrArg (some n :: ·) listed, ?_⟩
          exact List.forall_mem_cons.mpr ⟨⟨f, fragmentAt_of_item there has⟩, fragments⟩

theorem resolve_spec {ms : List Member} {held : Held} (run : w.resolve ms = .ok held) :
    held.map Prod.fst = ms.map w.memberNumber? := by
  induction ms generalizing held with
  | nil =>
    cases run
    rfl
  | cons member rest ih =>
    cases member with
    | item name =>
      simp only [resolve, bind_eq_ok_iff, pure_eq_ok_iff, numberOf_eq_ok_iff] at run
      obtain ⟨n, named, later, resolved, rfl⟩ := run
      rw [List.map_cons, List.map_cons, ih resolved, memberNumber?, named]
    | value v =>
      simp only [resolve, bind_eq_ok_iff, pure_eq_ok_iff] at run
      obtain ⟨later, resolved, rfl⟩ := run
      rw [List.map_cons, List.map_cons, ih resolved, memberNumber?]

/-- What a value holds are no items. -/
theorem heldBy_spec {v : Value} {held : Held} {isSealed : Bool}
    (run : heldBy v = .ok (held, isSealed)) : ∀ member ∈ held, member.1 = none := by
  have values : ∀ vs : List Value, ∀ member ∈ vs.map fun v => ((none : Option Nat), v),
      member.1 = none := by
    intro vs member isMember
    obtain ⟨_, _, rfl⟩ := List.mem_map.mp isMember
    rfl
  unfold heldBy at run
  split at run
  · cases run
    exact List.forall_mem_nil _
  · cases run
    exact values _
  · split at run
    · cases run
      exact values _
    · cases run

theorem effect_makeComposer (resolved : members.mapM w.resolve = .ok held) :
    w.Effect (.make name c given members) (w.makeComposer name given held).1 := by
  unfold makeComposer
  dsimp only
  split
  · exact .idle (not_adds (by simp)) (not_composes (by simp))
  · rename_i ns isSealed ready
    split at ready
    · cases ready
    · cases members with
      | none =>
        cases resolved
        simp only [bind_eq_ok_iff, pure_eq_ok_iff, Prod.mk.injEq] at ready
        obtain ⟨⟨ms, _⟩, taken, _, made, rfl, _⟩ := ready
        obtain ⟨listed, fragments⟩ := composerMembers_spec made
        refine .newComposer fragments ?_
        -- items are not held by a value, so there are none
        cases ms with
        | nil => exact listed
        | cons member rest =>
          have noItem := heldBy_spec taken member List.mem_cons_self
          obtain ⟨number, v⟩ := member
          cases noItem
          cases made
      | some members =>
        obtain ⟨ms, given, rfl⟩ := map_eq_ok_iff.mp resolved
        simp only [bind_eq_ok_iff, pure_eq_ok_iff, Prod.mk.injEq] at ready
        obtain ⟨_, rfl, _, made, rfl, _⟩ := ready
        obtain ⟨listed, fragments⟩ := composerMembers_spec made
        exact .newComposer fragments ((resolve_spec given).symm.trans listed)

theorem effect_make : w.Effect (.make name c given members) (w.make name c given members).1 := by
  unfold make
  split
  · exact .idle (not_adds (by simp)) (not_composes (by simp))
  · rename_i resolved
    cases c with
    | ofTemplate t =>
      dsimp only
      split
      case isTrue isContainer => exact effect_makeContainer isContainer
      case isFalse plain => exact effect_makeFragment (by simpa using plain)
    | bare isContainer => exact .idle (not_adds (by simp)) (not_composes (by simp))
    | composer => exact effect_makeComposer resolved

theorem effect_makeCustom {c : CustomClass} :
    w.Effect (.makeCustom name c) (w.makeCustom name c).1 := by
  unfold makeCustom
  split
  · exact .idle (not_adds (by simp)) (not_composes (by simp))
  · exact .idle (not_adds (by simp)) (not_composes (by simp))
  · exact .idle (not_adds (by simp)) (not_composes (by simp))
  · let f : Fragment := ⟨.custom w.items.length, c.template, false, []⟩
    have isItem : (if c.isContainer then Item.container f [] false else .fragment f) = .fragment f ∨
        (if c.isContainer then Item.container f [] false else .fragment f) =
          .container f [] false := by
      cases c.isContainer with
      | false => exact .inl rfl
      | true => exact .inr rfl
    exact .newCustom rfl rfl isItem

end Making

section Changing

variable {w : Workbench} {s : Step} {name header : String}

theorem resolve_item {member : String} {m : Nat} (named : w.names.get? member = some m) :
    w.resolve [.item member] = .ok [(some m, .none)] := by
  rw [resolve, numberOf_eq_ok_iff.mpr named]
  rfl

theorem resolve_missing {member : String} (missing : w.names.get? member = none) :
    w.resolve [.item member] = .error (.missing member) := by
  rw [resolve, numberOf, missing]
  rfl

/-- What is added to a container is a fragment, whose headers the container takes over. -/
theorem effect_addToContainer {member : String} {n m : Nat} {f g : Fragment} {ms : List Nat}
    {isSealed : Bool} (found : w.find name = .ok (n, .container f ms isSealed))
    (isFragment : w.items[m]? = some (.fragment g))
    (idle : w.Effect (.addMember name (.item member)) w) :
    w.Effect (.addMember name (.item member)) (w.addToContainer n f ms isSealed m).1 := by
  unfold addToContainer
  split
  · exact idle
  · split
    · exact idle
    · rename_i hs has
      obtain ⟨g', there, _, rfl⟩ := headersOf_eq_ok_iff.mp has
      rw [fragmentAt_of_item isFragment rfl] at there
      cases there
      cases isSealed with
      | false => exact .containerGrown found isFragment
      | true => exact .containerSealed found isFragment

theorem effect_addToComposer {n m : Nat} {ms : List Nat} {isSealed : Bool} {kept : Option String}
    (adds : w.Adds s n m) (found : w.items[n]? = some (.composer ms isSealed kept)) :
    w.Effect s (w.addToComposer n ms isSealed m).1 := by
  have grown := Effect.composerGrown adds found
  cases isSealed with
  | false => exact grown
  | true => exact grown

theorem effect_addMember (sound : w.Sound) {member : Member} :
    w.Effect (.addMember name member) (w.addMember name member).1 := by
  have idle : (∀ n m, ¬w.Adds (.addMember name member) n m) →
      w.Effect (.addMember name member) w := fun adds => .idle adds (not_composes (by simp))
  have idle_of_other : (∀ n ms isSealed kept, w.find name ≠ .ok (n, .composer ms isSealed kept)) →
      w.Effect (.addMember name member) w := by
    refine fun other => idle ?_
    rintro n m ⟨_, _, ms, isSealed, kept, _, _, ⟨⟩, found, _⟩
    exact other n ms isSealed kept found
  unfold addMember
  split
  · rename_i missing
    exact idle_of_other (by simp [missing])
  · rename_i found
    exact idle_of_other (by simp [found])
  · rename_i n f ms isSealed found
    have unchanged := idle_of_other (by simp [found])
    cases member with
    | value v => exact unchanged
    | item member =>
      cases named : w.names.get? member with
      | none =>
        rw [resolve_missing named]
        exact unchanged
      | some m =>
        rw [resolve_item named]
        dsimp only
        split
        · rename_i isFragment
          exact effect_addToContainer found isFragment unchanged
        · exact unchanged
        · exact unchanged
  · rename_i n ms isSealed kept found
    cases member with
    | value v =>
      refine idle ?_
      rintro _ _ ⟨_, _, _, _, _, _, _, ⟨⟩, _⟩
    | item member =>
      cases named : w.names.get? member with
      | none =>
        rw [resolve_missing named]
        refine idle ?_
        rintro _ _ ⟨_, _, _, _, _, _, _, ⟨⟩, _, isMember, _⟩
        rw [find_eq_ok_iff, named] at isMember
        cases isMember.1
      | some m =>
        rw [resolve_item named]
        dsimp only
        split
        · rename_i isComposer
          refine idle ?_
          rintro _ _ ⟨_, _, _, _, _, _, _, ⟨⟩, _, isMember, has⟩
          rw [find_eq_ok_iff, named, Option.some.injEq] at isMember
          obtain ⟨rfl, there⟩ := isMember
          rw [isComposer] at there
          cases there
          cases has
        · rename_i other
          have there := (find_eq_ok_iff.mp found).2
          obtain ⟨item, isItem⟩ : ∃ item, w.items[m]? = some item :=
            ⟨_, List.getElem?_eq_getElem (sound.named member m named)⟩
          obtain ⟨f, has⟩ : ∃ f, item.fragment? = some f := by
            cases item with
            | fragment f => exact ⟨f, rfl⟩
            | container f _ _ => exact ⟨f, rfl⟩
            | composer ms isSealed kept => exact absurd isItem (other ms isSealed kept)
          exact effect_addToComposer ⟨name, member, ms, isSealed, kept, item, f, rfl, found,
            find_eq_ok_iff.mpr ⟨named, isItem⟩, has⟩ there

theorem effect_addHeader : w.Effect (.addHeader name header) (w.addHeader name header).1 := by
  have idle : w.Effect (.addHeader name header) w :=
    .idle (not_adds (by simp)) (not_composes (by simp))
  unfold addHeader
  split
  · exact idle
  · rename_i found
    split
    · exact idle
    · exact .headerAdded found

theorem effect_dropHeader : w.Effect (.dropHeader name header) (w.dropHeader name header).1 := by
  have idle : w.Effect (.dropHeader name header) w :=
    .idle (not_adds (by simp)) (not_composes (by simp))
  unfold dropHeader
  split
  · exact idle
  · rename_i found
    split
    · exact idle
    · split
      · exact .headerDropped found
      · exact idle

theorem not_adds_of_isEdit (edit : s.isEdit = true) (n m : Nat) : ¬w.Adds s n m := by
  refine not_adds ?_ n m
  rintro name member rfl
  cases edit

theorem idle_of_isEdit (edit : s.isEdit = true) : w.Effect s w := by
  refine .idle (not_adds_of_isEdit edit) (not_composes ?_)
  rintro name rfl
  cases edit

theorem effect_changeVariables {g : Variables → Except Fault Variables} (edit : s.isEdit = true) :
    w.Effect s (w.changeVariables name g).1 := by
  unfold changeVariables
  split
  · exact idle_of_isEdit edit
  · rename_i n item found
    split
    · exact idle_of_isEdit edit
    · split
      · exact idle_of_isEdit edit
      · exact .edited edit (find_eq_ok_iff.mp found).2 (fun _ => rfl) (fun _ _ => rfl)

theorem effect_clearHeaders : w.Effect (.clearHeaders name) (w.clearHeaders name).1 := by
  unfold clearHeaders
  split
  · exact idle_of_isEdit rfl
  · rename_i n item found
    exact .edited rfl (find_eq_ok_iff.mp found).2 (fun _ => rfl)
      (fun other => absurd rfl (other name))

theorem effect_clearTemplate : w.Effect (.clearTemplate name) (w.clearTemplate name).1 := by
  unfold clearTemplate
  split
  · exact idle_of_isEdit rfl
  · rename_i n item found
    exact .edited rfl (find_eq_ok_iff.mp found).2 (fun _ => rfl) (fun _ _ => rfl)

theorem effect_compose : w.Effect (.compose name) (w.compose name).1 := by
  have idle : (∀ n ms isSealed, w.find name ≠ .ok (n, .composer ms isSealed none)) →
      w.Effect (.compose name) w := by
    refine fun other => .idle (not_adds (by simp)) ?_
    rintro n ms t ⟨_, isSealed, ⟨⟩, found, _⟩
    exact other n ms isSealed found
  unfold compose
  split
  · rename_i missing
    exact idle (by simp [missing])
  · rename_i n ms isSealed kept found
    split
    · exact idle (by simp [found])
    · split
      · rename_i failed
        refine .idle (not_adds (by simp)) ?_
        rintro n ms t ⟨_, isSealed, ⟨⟩, found', made⟩
        rw [found] at found'
        cases found'
        rw [failed] at made
        cases made
      · rename_i t made
        exact .composed ⟨name, isSealed, rfl, found, made⟩ (find_eq_ok_iff.mp found).2
  · rename_i other found
    exact idle fun n ms isSealed same =>
      other n ms isSealed none (Except.ok.inj (found.symm.trans same))

/-- A step changes no more than its effect. -/
theorem effect_step (sound : w.Sound) (s : Step) : w.Effect s (w.step s) := by
  cases s with
  | make name c given members => exact effect_make
  | makeCustom name c => exact effect_makeCustom
  | addMember name member => exact effect_addMember sound
  | addHeader name header => exact effect_addHeader
  | dropHeader name header => exact effect_dropHeader
  | setVariables name more => exact effect_changeVariables rfl
  | appendToVariable name var v => exact effect_changeVariables rfl
  | clearHeaders name => exact effect_clearHeaders
  | clearTemplate name => exact effect_clearTemplate
  | compose name => exact effect_compose

end Changing

theorem getElem?_concat_cases {items : List Item} {item new : Item} {n : Nat}
    (there : (items ++ [new])[n]? = some item) :
    items[n]? = some item ∨ n = items.length ∧ item = new := by
  rw [List.getElem?_append] at there
  split at there
  · exact .inl there
  · rw [List.getElem?_singleton] at there
    split at there
    · cases there
      exact .inr ⟨by omega, rfl⟩
    · cases there

theorem getElem?_set_cases {items : List Item} {item new : Item} {n k : Nat}
    (there : (items.set k new)[n]? = some item) :
    n = k ∧ item = new ∨ n ≠ k ∧ items[n]? = some item := by
  by_cases same : k = n
  · subst same
    obtain ⟨inRange, isItem⟩ := List.getElem?_eq_some_iff.mp there
    rw [List.getElem_set_self] at isItem
    exact .inl ⟨rfl, isItem.symm⟩
  · rw [List.getElem?_set_ne same] at there
    exact .inr ⟨Ne.symm same, there⟩

section Keeping

variable {w w' : Workbench} {s : Step}

/-- What a step does to the items: nothing, or a new item, or another item in the place of one. -/
inductive Change (w w' : Workbench) : Prop
  | same (items : w'.items = w.items) (names : w'.names = w.names)
  | new {name : String} {item : Item} (fits : w.Fits w.items.length item)
      (items : w'.items = w.items ++ [item]) (names : w'.names = w.names.set name w.items.length)
  | replaced {n : Nat} {item item' : Item} (there : w.items[n]? = some item)
      (becomes : item.Becomes item') (fits : w.Fits n item')
      (items : w'.items = w.items.set n item')
      (names : w'.names = w.names)

theorem fragmentAt_lt {n : Nat} {f : Fragment} (there : w.fragmentAt n = some f) :
    n < w.items.length := by
  obtain ⟨item, isItem, _⟩ := Option.bind_eq_some_iff.mp there
  exact (List.getElem?_eq_some_iff.mp isItem).1

theorem Effect.change (sound : w.Sound) (effect : w.Effect s w') : w.Change w' := by
  cases effect with
  | idle => exact .same rfl rfl
  | newFragment plain => exact .new (.fragment (.inr ⟨_, rfl, plain⟩)) rfl rfl
  | newContainer isContainer grows taken =>
    refine .new (.container (.inr ⟨_, rfl, isContainer⟩) fun m member => ?_) rfl rfl
    obtain ⟨f, there, _⟩ := taken m member
    exact .inl ⟨fragmentAt_lt there, f, there⟩
  | merged => exact .same rfl rfl
  | newComposer held => exact .new (.composer held) rfl rfl
  | newCustom owner _ isItem =>
    obtain rfl | rfl := isItem
    · exact .new (.fragment (.inl owner)) rfl rfl
    · exact .new (.container (.inl owner) (List.forall_mem_nil _)) rfl rfl
  | containerGrown found isFragment =>
    have there := (find_eq_ok_iff.mp found).2
    cases sound.fits _ _ there with
    | container owner nested =>
      refine .replaced there (.container rfl (List.prefix_append _ _)) (.container owner ?_) rfl rfl
      refine List.forall_mem_append.mpr ⟨nested, ?_⟩
      exact List.forall_mem_singleton.mpr (.inr ⟨_, isFragment⟩)
  | containerSealed => exact .same rfl rfl
  | @composerGrown _ n m ms isSealed kept adds found =>
    obtain ⟨_, _, _, _, _, item, f, rfl, _, isMember, has⟩ := adds
    have there := fragmentAt_of_item (find_eq_ok_iff.mp isMember).2 has
    cases sound.fits _ _ found with
    | composer held =>
      cases isSealed with
      | true => exact .replaced found (.composer (List.prefix_refl _)) (.composer held) rfl rfl
      | false =>
        refine .replaced found (.composer (List.prefix_append _ _)) (.composer ?_) rfl rfl
        exact List.forall_mem_append.mpr ⟨held, List.forall_mem_singleton.mpr ⟨f, there⟩⟩
  | headerAdded => exact .same rfl rfl
  | headerDropped => exact .same rfl rfl
  | @edited _ n item g edit found owner headless =>
    refine .replaced found (.mapFragment owner item) ?_ rfl rfl
    cases sound.fits _ _ found with
    | fragment own => exact .fragment ((owner _).symm ▸ own)
    | container own nested => exact .container ((owner _).symm ▸ own) nested
    | composer held => exact .composer held
  | composed composes found =>
    cases sound.fits _ _ found with
    | composer held =>
      exact .replaced found (.composer (List.prefix_refl _)) (.composer held) rfl rfl

/-- Items keep their numbers. -/
theorem Change.keeps (change : w.Change w') {n : Nat} {item : Item}
    (there : w.items[n]? = some item) :
    ∃ item', w'.items[n]? = some item' ∧ item.Becomes item' := by
  cases change with
  | same items names => exact ⟨item, items ▸ there, .refl item⟩
  | new fits items names =>
    rw [items, List.getElem?_append_left (List.getElem?_eq_some_iff.mp there).1]
    exact ⟨item, there, .refl item⟩
  | @replaced k old new thereOld becomes fits items names =>
    rw [items]
    by_cases same : k = n
    · subst same
      rw [thereOld] at there
      cases there
      exact ⟨new, List.getElem?_set_self (List.getElem?_eq_some_iff.mp thereOld).1, becomes⟩
    · rw [List.getElem?_set_ne same]
      exact ⟨item, there, .refl item⟩

theorem Change.fragmentAt (change : w.Change w') {n : Nat} {f : Fragment}
    (there : w.fragmentAt n = some f) : ∃ g, w'.fragmentAt n = some g ∧ g.owner = f.owner := by
  obtain ⟨item, isItem, has⟩ := Option.bind_eq_some_iff.mp there
  obtain ⟨item', isItem', becomes⟩ := change.keeps isItem
  obtain ⟨g, has', owner⟩ := becomes.fragment? has
  exact ⟨g, fragmentAt_of_item isItem' has', owner⟩

theorem Change.fits (change : w.Change w') {n : Nat} {item : Item} (fits : w.Fits n item) :
    w'.Fits n item := by
  cases fits with
  | fragment owner => exact .fragment owner
  | container owner nested =>
    refine .container owner fun m member => ?_
    obtain ⟨earlier, g, there⟩ | ⟨g, there⟩ := nested m member
    · obtain ⟨g', there', _⟩ := change.fragmentAt there
      exact .inl ⟨earlier, g', there'⟩
    · obtain ⟨_, there', becomes⟩ := change.keeps there
      cases becomes
      exact .inr ⟨_, there'⟩
  | composer held =>
    refine .composer fun m member => ?_
    obtain ⟨f, there⟩ := held m member
    obtain ⟨g, there', _⟩ := change.fragmentAt there
    exact ⟨g, there'⟩

theorem Sound.change (sound : w.Sound) (change : w.Change w') : w'.Sound := by
  have still : ∀ n item, w.Fits n item → w'.Fits n item := fun _ _ => change.fits
  cases change with
  | same items names =>
    refine ⟨names ▸ items ▸ sound.named, fun n item there => still n item ?_⟩
    exact sound.fits n item (items ▸ there)
  | @new name new fits items names =>
    constructor
    · intro name' n named
      rw [items, List.length_append, List.length_singleton]
      rw [names] at named
      by_cases same : name' = name
      · rw [same, Entries.get?_set_self] at named
        cases named
        exact Nat.lt_succ_self _
      · rw [Entries.get?_set_of_ne _ _ same] at named
        exact Nat.lt_succ_of_lt (sound.named name' n named)
    · intro n item there
      rw [items] at there
      obtain was | ⟨rfl, rfl⟩ := getElem?_concat_cases there
      · exact still n item (sound.fits n item was)
      · exact still _ item fits
  | @replaced k old new thereOld becomes fits items names =>
    constructor
    · intro name n named
      rw [items, List.length_set]
      exact sound.named name n (names ▸ named)
    · intro n item there
      rw [items] at there
      obtain ⟨rfl, rfl⟩ | ⟨_, was⟩ := getElem?_set_cases there
      · exact still n item fits
      · exact still n item (sound.fits n item was)

end Keeping

/-! ## Histories -/

theorem Sound.step {w : Workbench} (sound : w.Sound) (s : Step) : (w.step s).Sound :=
  sound.change ((effect_step sound s).change sound)

theorem sound_after (steps : List Step) : (after steps).Sound := by
  have empty_sound : empty.Sound := by
    constructor
    · rintro name n ⟨⟩
    · rintro n item ⟨⟩
  have run_sound : ∀ w : Workbench, w.Sound → (w.run steps).Sound := by
    induction steps with
    | nil => exact fun w sound => sound
    | cons s later ih => exact fun w sound => ih (w.step s) (sound.step s)
  exact run_sound empty empty_sound

/-- What every step keeps under some condition, a run keeps along which the condition holds. -/
theorem Along.keeps {P : Workbench → Step → Prop} {I : Workbench → Prop}
    (step : ∀ w s, w.Sound → P w s → I w → I (w.step s)) {steps : List Step}
    (along : empty.Along P steps) (initially : I empty) : I (after steps) := by
  induction steps using List.reverseRecOn with
  | nil => exact initially
  | append_singleton steps s ih =>
    obtain ⟨earlier, last, _⟩ := along_append.mp along
    rw [after_append]
    exact step (after steps) s (sound_after steps) last (ih earlier)

end Workbench

end TensorEmit.Code
