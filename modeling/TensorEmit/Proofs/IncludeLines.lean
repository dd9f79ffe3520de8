import TensorEmit.Proofs.KeptTexts

/-!
# The lines for headers

The first text of a composer starts with one line for each header of its members, own headers before
standard ones, and its members follow in the order in which they were added
(`Workbench.first_text_of_composer`). A container takes over the headers of a fragment that it is
given, so they have lines too, unless one of them is removed from the container later on.
-/

namespace TensorEmit.Code

/-! ## Lines -/

theorem Headers.nodup_addAll {hs : Headers} (distinct : hs.Nodup) (more : Headers) :
    (hs.addAll more).Nodup := by
  induction more generalizing hs with
  | nil => exact distinct
  | cons h rest ih =>
    refine ih ?_
    unfold Headers.add
    split
    · exact distinct
    · rename_i fresh
      exact List.nodup_append_comm.mp (List.nodup_cons.mpr ⟨fresh, distinct⟩)

/-- The members of an item. -/
def Item.members : Item → List Nat
  | .fragment _ => []
  | .container _ ms _ => ms
  | .composer ms _ _ => ms

namespace Workbench

variable {w w' : Workbench} {s : Step}

/-! ## Conditions on a history -/

/-- An item is a member of another one. -/
def IsMember (w : Workbench) (k : Nat) : Prop := ∃ item ∈ w.items, k ∈ item.members

/-- A step adds or removes a header for an owner. -/
def ChangesHeaders (w : Workbench) (s : Step) (o : HeaderOwner) : Prop :=
  ∃ name header n f, (s = .addHeader name header ∨ s = .dropHeader name header) ∧
    w.findFragment name = .ok (n, f) ∧ f.owner = o

/-- A step removes a header for an owner. -/
def DropsHeader (w : Workbench) (s : Step) (o : HeaderOwner) (header : String) : Prop :=
  ∃ name n f, s = .dropHeader name header ∧ w.findFragment name = .ok (n, f) ∧ f.owner = o

/-- A step changes no headers of a fragment that is a member. -/
def LeavesMembers (w : Workbench) (s : Step) : Prop :=
  ∀ (k : Nat) (g : Fragment), w.items[k]? = some (.fragment g) → w.IsMember k →
    ¬w.ChangesHeaders s g.owner

/-- A step does not remove a header from a container that has a member. -/
def Spares (n k : Nat) (header : String) (w : Workbench) (s : Step) : Prop :=
  ∀ (f : Fragment) (ms : List Nat) (isSealed : Bool),
    w.items[n]? = some (.container f ms isSealed) → k ∈ ms → ¬w.DropsHeader s f.owner header

/-! ## What a step does to headers -/

/-- Fragments and containers have no headers in common. -/
theorem OwnerFits.ne {k n : Nat} {o p : HeaderOwner} (differs : k ≠ n)
    (fragment : OwnerFits false k o) (container : OwnerFits true n p) : o ≠ p := by
  rcases fragment with rfl | ⟨t, rfl, plain⟩
  · rcases container with rfl | ⟨t, rfl, _⟩
    · exact fun same => differs (HeaderOwner.custom.inj same)
    · exact HeaderOwner.noConfusion
  · rcases container with rfl | ⟨t', rfl, isContainer⟩
    · exact HeaderOwner.noConfusion
    · exact HeaderSets.builtIn_ne plain isContainer

theorem Sound.ownerFits (sound : w.Sound) {k : Nat} {g : Fragment}
    (isFragment : w.items[k]? = some (.fragment g)) : OwnerFits false k g.owner := by
  cases sound.fits k _ isFragment with
  | fragment owner => exact owner

theorem Sound.owner_ne (sound : w.Sound) {k n : Nat} {f g : Fragment} {ms : List Nat}
    {isSealed : Bool} (isFragment : w.items[k]? = some (.fragment g))
    (isContainer : w.items[n]? = some (.container f ms isSealed)) : g.owner ≠ f.owner := by
  have differs : k ≠ n := by
    rintro rfl
    rw [isFragment] at isContainer
    cases isContainer
  cases sound.fits n _ isContainer with
  | container owner nested => exact (sound.ownerFits isFragment).ne differs owner

/-- The headers of a fragment change only if they are changed for a fragment. -/
theorem Effect.sets_of_fragment (sound : w.Sound) (effect : w.Effect s w') {k : Nat} {g : Fragment}
    (isFragment : w.items[k]? = some (.fragment g)) (leaves : ¬w.ChangesHeaders s g.owner) :
    w'.sets.of g.owner = w.sets.of g.owner := by
  have owner := sound.ownerFits isFragment
  cases effect with
  | idle => rfl
  | newFragment => rfl
  | newContainer isContainer grows taken =>
    exact grows.others _ (owner.ne (Nat.ne_of_lt k.lt_succ_self) (.inr ⟨_, rfl, isContainer⟩))
  | merged isContainer grows =>
    exact grows.others _ (owner.ne (Nat.ne_of_lt k.lt_succ_self) (.inr ⟨_, rfl, isContainer⟩))
  | newComposer => rfl
  | newCustom =>
    have older := (List.getElem?_eq_some_iff.mp isFragment).1
    exact HeaderSets.of_addAll_of_ne _ (owner.ne (Nat.ne_of_lt older) (.inl rfl))
  | containerGrown found =>
    exact HeaderSets.of_addAll_of_ne _ (sound.owner_ne isFragment (find_eq_ok_iff.mp found).2)
  | containerSealed found =>
    exact HeaderSets.of_addAll_of_ne _ (sound.owner_ne isFragment (find_eq_ok_iff.mp found).2)
  | composerGrown => rfl
  | headerAdded found =>
    refine HeaderSets.of_addAll_of_ne _ fun same => leaves ?_
    exact ⟨_, _, _, _, .inl rfl, found, same.symm⟩
  | headerDropped found =>
    refine HeaderSets.of_drop_of_ne _ fun same => leaves ?_
    exact ⟨_, _, _, _, .inr rfl, found, same.symm⟩
  | edited => rfl
  | composed => rfl

/-- A header stays unless it is removed. -/
theorem Effect.mem_sets (effect : w.Effect s w') {o : HeaderOwner} {h : String}
    (member : h ∈ w.sets.of o) (spared : ¬w.DropsHeader s o h) : h ∈ w'.sets.of o := by
  cases effect with
  | idle => exact member
  | newFragment => exact member
  | newContainer isContainer grows taken => exact grows.mem member
  | merged isContainer grows => exact grows.mem member
  | newComposer => exact member
  | newCustom => exact (HeaderSets.Grows.addAll _ _ _).mem member
  | containerGrown => exact (HeaderSets.Grows.addAll _ _ _).mem member
  | containerSealed => exact (HeaderSets.Grows.addAll _ _ _).mem member
  | composerGrown => exact member
  | headerAdded => exact (HeaderSets.Grows.addAll _ _ _).mem member
  | @headerDropped name header n f found =>
    by_cases same : o = f.owner
    · subst same
      have other : h ≠ header := by
        rintro rfl
        exact spared ⟨name, n, f, rfl, found, rfl⟩
      rw [HeaderSets.of_drop, List.mem_filter]
      exact ⟨member, decide_eq_true other⟩
    · rwa [HeaderSets.of_drop_of_ne _ same]
  | edited => exact member
  | composed => exact member

/-- What is in a container after a step was in it before, or the container takes over its
headers. -/
theorem Effect.member_cases (effect : w.Effect s w') {n k : Nat} {f : Fragment} {ms : List Nat}
    {isSealed : Bool} (now : w'.items[n]? = some (.container f ms isSealed)) (member : k ∈ ms) :
    (∃ (f₀ : Fragment) (ms₀ : List Nat), w.items[n]? = some (.container f₀ ms₀ isSealed) ∧
        f.owner = f₀.owner ∧ k ∈ ms₀) ∨
      ∃ g, w.fragmentAt k = some g ∧ ∀ h ∈ w'.sets.of g.owner, h ∈ w'.sets.of f.owner := by
  have unchanged : ∀ {w₁ : Workbench}, w.items[n]? = some (.container f ms isSealed) →
      (∃ (f₀ : Fragment) (ms₀ : List Nat), w.items[n]? = some (.container f₀ ms₀ isSealed) ∧
        f.owner = f₀.owner ∧ k ∈ ms₀) ∨
      ∃ g, w.fragmentAt k = some g ∧ ∀ h ∈ w₁.sets.of g.owner, h ∈ w₁.sets.of f.owner :=
    fun was => .inl ⟨f, ms, was, rfl, member⟩
  cases effect with
  | idle => exact unchanged now
  | newFragment =>
    obtain was | ⟨_, ⟨⟩⟩ := getElem?_concat_cases now
    exact unchanged was
  | newContainer isContainer grows taken =>
    obtain was | ⟨_, ⟨⟩⟩ := getElem?_concat_cases now
    · exact unchanged was
    · exact .inr (taken k member)
  | merged => exact unchanged now
  | newComposer =>
    obtain was | ⟨_, ⟨⟩⟩ := getElem?_concat_cases now
    exact unchanged was
  | newCustom owner headed isItem =>
    obtain was | ⟨_, rfl⟩ := getElem?_concat_cases now
    · exact unchanged was
    · obtain ⟨⟨⟩⟩ | ⟨⟨⟩⟩ := isItem
      cases member
  | @containerGrown _ _ n₀ m f₀ g₀ ms₀ found isFragment =>
    obtain ⟨rfl, ⟨⟩⟩ | ⟨_, was⟩ := getElem?_set_cases now
    · obtain old | isNew := List.mem_append.mp member
      · exact .inl ⟨f, ms₀, (find_eq_ok_iff.mp found).2, rfl, old⟩
      · rw [List.mem_singleton] at isNew
        subst isNew
        refine .inr ⟨g₀, fragmentAt_of_item isFragment rfl, ?_⟩
        exact HeaderSets.Grows.takes_addAll f.owner g₀.owner w.sets
    · exact unchanged was
  | containerSealed => exact unchanged now
  | composerGrown =>
    obtain ⟨_, ⟨⟩⟩ | ⟨_, was⟩ := getElem?_set_cases now
    exact unchanged was
  | headerAdded => exact unchanged now
  | headerDropped => exact unchanged now
  | @edited _ n₀ item g edit found owner headless =>
    obtain ⟨rfl, same⟩ | ⟨_, was⟩ := getElem?_set_cases now
    · cases item with
      | fragment f₀ => cases same
      | container f₀ ms₀ isSealed₀ =>
        cases same
        exact .inl ⟨f₀, ms, found, owner f₀, member⟩
      | composer ms₀ isSealed₀ kept => cases same
    · exact unchanged was
  | composed =>
    obtain ⟨_, ⟨⟩⟩ | ⟨_, was⟩ := getElem?_set_cases now
    exact unchanged was

/-- A container has a header of a fragment in it. -/
def TakesHeader (n k : Nat) (h : String) (w : Workbench) : Prop :=
  ∀ (f g : Fragment) (ms : List Nat) (isSealed : Bool),
    w.items[n]? = some (.container f ms isSealed) → k ∈ ms → w.items[k]? = some (.fragment g) →
      h ∈ w.sets.of g.owner → h ∈ w.sets.of f.owner

/-- An item that is a fragment was one before. -/
theorem Change.was_fragment (change : w.Change w') {k : Nat} {f g : Fragment}
    (there : w.fragmentAt k = some f) (isFragment : w'.items[k]? = some (.fragment g)) :
    ∃ g₀, w.items[k]? = some (.fragment g₀) ∧ g.owner = g₀.owner := by
  obtain ⟨item, was, _⟩ := Option.bind_eq_some_iff.mp there
  obtain ⟨item', now, becomes⟩ := change.keeps was
  rw [isFragment] at now
  cases now
  cases becomes with
  | fragment owner => exact ⟨_, was, owner⟩

theorem Sound.fragmentAt_member (sound : w.Sound) {n k : Nat} {f : Fragment} {ms : List Nat}
    {isSealed : Bool} (there : w.items[n]? = some (.container f ms isSealed)) (member : k ∈ ms) :
    ∃ g, w.fragmentAt k = some g := by
  cases sound.fits n _ there with
  | container owner nested =>
    obtain ⟨_, isItem⟩ | ⟨g, isFragment⟩ := nested k member
    · exact isItem
    · exact ⟨g, fragmentAt_of_item isFragment rfl⟩

theorem takesHeader_step {n k : Nat} {h : String} (sound : w.Sound) (effect : w.Effect s w')
    (leaves : w.LeavesMembers s) (spares : w.Spares n k h s) (takes : w.TakesHeader n k h) :
    w'.TakesHeader n k h := by
  intro f g ms isSealed now member isFragment has
  have change := effect.change sound
  obtain ⟨f₀, ms₀, was, owner, member₀⟩ | ⟨g₀, there, taken⟩ := effect.member_cases now member
  · obtain ⟨g₁, there⟩ := sound.fragmentAt_member was member₀
    obtain ⟨g₀, wasFragment, same⟩ := change.was_fragment there isFragment
    -- the headers of the fragment are as they were, so the container had this one already
    have unchanged : w'.sets.of g₀.owner = w.sets.of g₀.owner :=
      effect.sets_of_fragment sound wasFragment
        (leaves k g₀ wasFragment ⟨_, List.mem_of_getElem? was, member₀⟩)
    rw [same, unchanged] at has
    rw [owner]
    exact effect.mem_sets (takes f₀ g₀ ms₀ isSealed was member₀ wasFragment has)
      (spares f₀ ms₀ isSealed was member₀)
  · obtain ⟨g₁, wasFragment, same⟩ := change.was_fragment there isFragment
    rw [fragmentAt_of_item wasFragment rfl] at there
    cases there
    rw [same] at has
    exact taken h has

/-- A container has all headers of the fragments in it that were not removed from it. -/
theorem takesHeader_after {steps : List Step} {n k : Nat} {h : String}
    (leaves : empty.Along LeavesMembers steps) (spares : empty.Along (Spares n k h) steps) :
    (after steps).TakesHeader n k h := by
  refine (along_and leaves spares).keeps ?_ ?_
  · intro w s sound conditions takes
    exact takesHeader_step sound (effect_step sound s) conditions.1 conditions.2 takes
  · rintro f g ms isSealed ⟨⟩

theorem fragmentAt_concat_cases {name : String} {item : Item} {n : Nat} {f : Fragment}
    (there : (w.put name item).fragmentAt n = some f) :
    w.fragmentAt n = some f ∨ item.fragment? = some f := by
  obtain ⟨item', isItem, has⟩ := Option.bind_eq_some_iff.mp there
  obtain was | ⟨_, rfl⟩ := getElem?_concat_cases isItem
  · exact .inl (fragmentAt_of_item was has)
  · exact .inr has

theorem fragmentAt_set_cases {item : Item} {n k : Nat} {f : Fragment}
    (there : (w.replace k item).fragmentAt n = some f) :
    w.fragmentAt n = some f ∨ item.fragment? = some f := by
  obtain ⟨item', isItem, has⟩ := Option.bind_eq_some_iff.mp there
  obtain ⟨_, rfl⟩ | ⟨_, was⟩ := getElem?_set_cases isItem
  · exact .inr has
  · exact .inl (fragmentAt_of_item was has)

/-- Every item that can have headers has them. -/
def Headed (w : Workbench) : Prop := ∀ n f, w.fragmentAt n = some f → f.headless = false

theorem headed_step (effect : w.Effect s w') (kept : ∀ name, s ≠ .clearHeaders name)
    (headed : w.Headed) : w'.Headed := by
  intro n f there
  cases effect with
  | idle => exact headed n f there
  | newFragment =>
    obtain was | ⟨⟨⟩⟩ := fragmentAt_concat_cases there
    · exact headed n f was
    · rfl
  | newContainer =>
    obtain was | ⟨⟨⟩⟩ := fragmentAt_concat_cases there
    · exact headed n f was
    · rfl
  | merged => exact headed n f there
  | newComposer =>
    obtain was | ⟨⟨⟩⟩ := fragmentAt_concat_cases there
    exact headed n f was
  | newCustom owner head isItem =>
    obtain was | has := fragmentAt_concat_cases there
    · exact headed n f was
    · obtain rfl | rfl := isItem
      · cases has
        exact head
      · cases has
        exact head
  | containerGrown found =>
    obtain was | ⟨⟨⟩⟩ := fragmentAt_set_cases there
    · exact headed n f was
    · exact headed _ f (fragmentAt_of_item (find_eq_ok_iff.mp found).2 rfl)
  | containerSealed => exact headed n f there
  | composerGrown =>
    obtain was | ⟨⟨⟩⟩ := fragmentAt_set_cases there
    exact headed n f was
  | headerAdded => exact headed n f there
  | headerDropped => exact headed n f there
  | @edited _ k item g edit found owner headless =>
    obtain was | has := fragmentAt_set_cases there
    · exact headed n f was
    · cases item with
      | fragment f₀ =>
        cases has
        rw [headless kept]
        exact headed k f₀ (fragmentAt_of_item found rfl)
      | container f₀ ms isSealed =>
        cases has
        rw [headless kept]
        exact headed k f₀ (fragmentAt_of_item found rfl)
      | composer ms isSealed kept => cases has
  | composed =>
    obtain was | ⟨⟨⟩⟩ := fragmentAt_set_cases there
    exact headed n f was

theorem headed_after {steps : List Step} (kept : ∀ s ∈ steps, ∀ name, s ≠ .clearHeaders name) :
    (after steps).Headed := by
  refine (along_of_forall kept).keeps ?_ ?_
  · intro w s sound kept headed
    exact headed_step (effect_step sound s) kept headed
  · rintro n f ⟨⟩

/-! ## The order of members -/

/-- The members that a history gives a composer: those that it was made with and then, one after the
other, what was added. A sealed composer takes nothing. -/
inductive Filled (n : Nat) : List Step → List Nat → Prop
  | made {steps : List Step} {name : String} {c : ItemClass} {given : Entries String Value}
      {members : Option (List Member)} {ms : List Nat} (isNew : n = (after steps).items.length)
      (isMade : n < (after (steps ++ [.make name c given members])).items.length)
      (listed : (members.getD []).map (after steps).memberNumber? = ms.map some) :
      Filled n (steps ++ [.make name c given members]) ms
  | added {steps : List Step} {s : Step} {m : Nat} {ms ms' : List Nat} {kept : Option String}
      (filled : Filled n steps ms) (adds : (after steps).Adds s n m)
      (isOpen : (after steps).items[n]? = some (.composer ms' false kept)) :
      Filled n (steps ++ [s]) (ms ++ [m])
  | other {steps : List Step} {s : Step} {ms : List Nat} (filled : Filled n steps ms)
      (adds : ∀ m, (after steps).Adds s n m →
        ∃ ms' kept, (after steps).items[n]? = some (.composer ms' true kept)) :
      Filled n (steps ++ [s]) ms

theorem filled_of_composer {steps : List Step} {n : Nat} {ms : List Nat} {isSealed : Bool}
    {kept : Option String} (there : (after steps).items[n]? = some (.composer ms isSealed kept)) :
    Filled n steps ms := by
  induction steps using List.reverseRecOn generalizing ms isSealed kept with
  | nil => cases there
  | append_singleton steps s ih =>
    have now := there
    rw [after_append] at now
    cases holds_of_effect (effect_step (sound_after steps) s) now with
    | made makes isNew listed =>
      subst makes
      exact .made isNew (List.getElem?_eq_some_iff.mp there).1 listed
    | unchanged adds was => exact .other (ih was) fun m adding => absurd adding (adds m)
    | added adds was =>
      cases isSealed with
      | false => exact .added (ih was) adds was
      | true => exact .other (ih was) fun _ _ => ⟨_, _, was⟩
    | composed composes was =>
      obtain ⟨_, _, rfl, _⟩ := composes
      exact .other (ih was) fun m adding => absurd adding (not_adds (by simp) n m)

/-! ## The first text -/

/-- A composer that has not composed yet keeps no text. -/
theorem not_keptFrom_of_first {steps : List Step} {n : Nat}
    (first : empty.Along (fun w s => ∀ ms t, ¬w.Composes s n ms t) steps) {ms : List Nat}
    {t : String} {earlier : List Step} : ¬KeptFrom n ms t earlier steps := by
  intro kept
  induction kept with
  | composed composes =>
    obtain ⟨_, last, _⟩ := along_append.mp first
    exact last ms t composes
  | later kept adds ih => exact ih (along_append.mp first).1

theorem kept_eq_none_of_first {steps : List Step} {n : Nat} {ms : List Nat} {isSealed : Bool}
    {kept : Option String} (first : empty.Along (fun w s => ∀ ms t, ¬w.Composes s n ms t) steps)
    (there : (after steps).items[n]? = some (.composer ms isSealed kept)) : kept = none := by
  cases kept with
  | none => rfl
  | some t =>
    obtain ⟨earlier, keptFrom⟩ := exists_keptFrom there
    exact absurd keptFrom (not_keptFrom_of_first first)

theorem headersOf_of_headed (headed : w.Headed) {n : Nat} {f : Fragment}
    (there : w.fragmentAt n = some f) : w.headersOf n = .ok (w.sets.of f.owner) :=
  headersOf_eq_ok_iff.mpr ⟨f, there, headed n f there, rfl⟩

/-- The headers of members, all together. -/
theorem exists_headers (headed : w.Headed) {ms : List Nat}
    (held : ∀ m ∈ ms, ∃ f, w.fragmentAt m = some f) :
    ∃ sets, ms.mapM w.headersOf = .ok sets ∧
      ∀ h, h ∈ sets.flatten ↔ ∃ m ∈ ms, ∃ hs, w.headersOf m = .ok hs ∧ h ∈ hs := by
  have each : ∀ m ∈ ms, ∃ hs, w.headersOf m = .ok hs := by
    intro m member
    obtain ⟨f, there⟩ := held m member
    exact ⟨_, headersOf_of_headed headed there⟩
  obtain ⟨sets, taken⟩ := exists_mapM_iff.mpr each
  refine ⟨sets, taken, fun h => ?_⟩
  rw [List.mem_flatten]
  constructor
  · rintro ⟨hs, isSet, member⟩
    obtain ⟨m, isMember, headers⟩ := exists_of_mem_mapM taken isSet
    exact ⟨m, isMember, hs, headers, member⟩
  · rintro ⟨m, isMember, hs, headers, member⟩
    obtain ⟨hs', isSet, headers'⟩ := exists_result_of_mem taken isMember
    rw [headers] at headers'
    cases headers'
    exact ⟨hs, isSet, member⟩

/-- The text of a composer is made of the lines for headers, own ones before standard ones, and of
the texts of its members. -/
theorem composeNow_lines {ms : List Nat} {sets : List Headers}
    (taken : ms.mapM w.headersOf = .ok sets) :
    ∃ own standard : Headers,
      w.composeNow ms = (ms.mapM w.text).map (fun bodies =>
        String.join ((own ++ standard).map fun h => "#include " ++ h ++ "\n") ++ "\n\n" ++
          String.join bodies) ∧
      (own ++ standard).Nodup ∧ (∀ h ∈ own, isStandard h = false) ∧
      (∀ h ∈ standard, isStandard h = true) ∧ ∀ h, h ∈ own ++ standard ↔ h ∈ sets.flatten := by
  let hs := Headers.addAll [] sets.flatten
  have mem_sorted : ∀ (l : Headers) (h : String), h ∈ l.sorted → h ∈ l :=
    fun l h => (List.mergeSort_perm l _).mem_iff.mp
  have perm : (includeOrder hs).Perm hs := includeOrder_perm hs
  refine ⟨Headers.sorted (hs.filter fun h => !isStandard h), Headers.sorted (hs.filter isStandard),
    ?_, ?_, ?_, ?_, ?_⟩
  · rw [composeNow, taken, ok_bind]
    cases ms.mapM w.text with
    | error fault => rfl
    | ok bodies => rfl
  · exact perm.nodup_iff.mpr (Headers.nodup_addAll List.nodup_nil _)
  · intro h member
    simpa using (List.mem_filter.mp (mem_sorted _ h member)).2
  · intro h member
    exact (List.mem_filter.mp (mem_sorted _ h member)).2
  · intro h
    refine perm.mem_iff.trans ?_
    rw [Headers.mem_addAll]
    exact ⟨fun member => member.resolve_left List.not_mem_nil, .inr⟩

/-- The first text of a composer is made of one line for each header of its members, own headers
before standard ones, and of the texts of its members in the order in which it got them. If no
headers of a fragment change once it is a member, there is a line for each header of each fragment
in a container, unless the header is removed from the container afterwards. -/
theorem first_text_of_composer {steps : List Step} {name : String} {n : Nat} {ms : List Nat}
    {isSealed : Bool} {kept : Option String}
    (headed : ∀ s ∈ steps, ∀ name, s ≠ .clearHeaders name)
    (leaves : empty.Along LeavesMembers steps)
    (found : (after steps).find name = .ok (n, .composer ms isSealed kept))
    (first : empty.Along (fun w s => ∀ ms t, ¬w.Composes s n ms t) steps) :
    Filled n steps ms ∧ ∃ own standard : Headers,
      ((after steps).compose name).2 = (ms.mapM (after steps).text).map (fun bodies =>
        String.join ((own ++ standard).map fun h => "#include " ++ h ++ "\n") ++ "\n\n" ++
          String.join bodies) ∧
      (own ++ standard).Nodup ∧ (∀ h ∈ own, isStandard h = false) ∧
      (∀ h ∈ standard, isStandard h = true) ∧
      (∀ h, h ∈ own ++ standard ↔
        ∃ m ∈ ms, ∃ hs, (after steps).headersOf m = .ok hs ∧ h ∈ hs) ∧
      ∀ m ∈ ms, ∀ (f g : Fragment) (ks : List Nat) (isSealed : Bool) (k : Nat),
        (after steps).items[m]? = some (.container f ks isSealed) → k ∈ ks →
          (after steps).items[k]? = some (.fragment g) → ∀ hs, (after steps).headersOf k = .ok hs →
            ∀ h ∈ hs, empty.Along (Spares m k h) steps → h ∈ own ++ standard := by
  have there := (find_eq_ok_iff.mp found).2
  obtain rfl := kept_eq_none_of_first first there
  have headedAll := headed_after headed
  obtain ⟨sets, taken, union⟩ :=
    exists_headers headedAll (held_of_composer (sound_after steps) there)
  obtain ⟨own, standard, text, distinct, isOwn, isStd, members⟩ := composeNow_lines taken
  have named : ∀ h, h ∈ own ++ standard ↔
      ∃ m ∈ ms, ∃ hs, (after steps).headersOf m = .ok hs ∧ h ∈ hs :=
    fun h => (members h).trans (union h)
  refine ⟨filled_of_composer there, own, standard, ?_, distinct, isOwn, isStd, named, ?_⟩
  · rw [compose_of_none found, text]
  · intro m member f g ks isSealed k isContainer inside isFragment hs headers h isHeader spared
    obtain ⟨g', there', _, rfl⟩ := headersOf_eq_ok_iff.mp headers
    rw [fragmentAt_of_item isFragment rfl] at there'
    cases there'
    have taken :=
      takesHeader_after leaves spared f g ks isSealed isContainer inside isFragment isHeader
    exact (named h).mpr ⟨m, member, _,
      headersOf_of_headed headedAll (fragmentAt_of_item isContainer rfl), taken⟩

/-! ## A header that is removed from a container -/

/-- A container with a comment whose header it has taken over. -/
def headedComment : List Step :=
  [.make "s" (.ofTemplate .comment) [("comments", .list [.text "a"])] none,
   .addHeader "s" "\"a.hpp\"",
   .make "c" (.ofTemplate .weights) [] none,
   .addMember "c" (.item "s")]

/-- A composer over this container. -/
def composedComment : List Step := headedComment ++ [.make "p" .composer [] (some [.item "c"])]

/-- The header is removed from the container before the composer is made. -/
def droppedHeader : List Step :=
  headedComment ++ [.dropHeader "c" "\"a.hpp\"", .make "p" .composer [] (some [.item "c"])]

/-- The workbench after these steps, with the headers that the container has. -/
def containerBench (headers : Headers) : Workbench :=
  ⟨[.fragment (.of .comment [("comments", .list [.text "a"])]),
    .container (.of .weights []) [0] false, .composer [1] false none],
   [("s", 0), ("c", 1), ("p", 2)],
   [(.builtIn .comment, ["\"a.hpp\""]), (.builtIn .weights, headers)]⟩

theorem text_containerBench (headers : Headers) :
    (containerBench headers).text 1 = .ok "// a\n\n" := by
  have member : (containerBench headers).statementsWithin 3 0 = .ok [.line "// a"] := by
    have there : (containerBench headers).items[0]? =
        some (.fragment (.of .comment [("comments", .list [.text "a"])])) := rfl
    rw [statementsWithin_fragment there, Fragment.statements_eq]
    rfl
  have members : [0].mapM ((containerBench headers).statementsWithin 3) = .ok [[.line "// a"]] := by
    rw [List.mapM_cons, member]
    rfl
  have stated : (containerBench headers).statements 1 = .ok [.line "// a", .line ""] := by
    have there : (containerBench headers).items[1]? =
        some (.container (.of .weights []) [0] false) := rfl
    rw [statements, show (containerBench headers).items.length + 1 = 3 + 1 from rfl,
      statementsWithin, there]
    dsimp only
    rw [members, Fragment.statementsAround, Fragment.findTemplate_of]
    rfl
  rw [text, stated]
  rfl

/-- Headers of an item are changed only before the item becomes a member. -/
def KeepsHeaders (w : Workbench) (s : Step) : Prop :=
  ∀ k f, w.fragmentAt k = some f → w.IsMember k → ¬w.ChangesHeaders s f.owner

theorem keepsHeaders_of_other (other : ∀ name header, s ≠ .addHeader name header ∧
    s ≠ .dropHeader name header) : w.KeepsHeaders s := by
  rintro k f _ _ ⟨name, header, _, _, isChange, _⟩
  exact isChange.elim (other name header).1 (other name header).2

theorem keepsHeaders_headedComment : empty.Along KeepsHeaders headedComment := by
  refine ⟨keepsHeaders_of_other (by simp), ?_, keepsHeaders_of_other (by simp),
    keepsHeaders_of_other (by simp), trivial⟩
  rintro k f _ ⟨item, isItem, member⟩
  rw [List.mem_singleton.mp isItem] at member
  cases member

theorem keepsHeaders_composedComment : empty.Along KeepsHeaders composedComment :=
  along_append.mpr ⟨keepsHeaders_headedComment, keepsHeaders_of_other (by simp), trivial⟩

theorem keepsHeaders_droppedHeader : empty.Along KeepsHeaders droppedHeader := by
  refine along_append.mpr ⟨keepsHeaders_headedComment, ?_, keepsHeaders_of_other (by simp), trivial⟩
  rintro k f there ⟨item, isItem, member⟩ ⟨name, header, n, f', isChange, found, owner⟩
  have container : (empty.run headedComment).findFragment "c" = .ok (1, .of .weights []) := rfl
  have fragment : (empty.run headedComment).fragmentAt 0 =
      some (.of .comment [("comments", .list [.text "a"])]) := rfl
  -- the headers are those of the container, which holds the comment and nothing else
  rcases isChange with ⟨⟨⟩⟩ | ⟨⟨⟩⟩
  rw [container] at found
  cases found
  rcases List.mem_cons.mp isItem with rfl | isItem
  · cases member
  · rw [List.mem_singleton.mp isItem] at member
    obtain rfl : k = 0 := List.mem_singleton.mp member
    rw [fragment] at there
    cases there
    cases owner

theorem composedComment_found :
    (after composedComment).find "p" = .ok (2, .composer [1] false none) := rfl

theorem first_text_of_composer_composedComment :
    (∀ s ∈ composedComment, ∀ name, s ≠ .clearHeaders name) ∧
    empty.Along LeavesMembers composedComment ∧
    empty.Along (fun w s => ∀ ms t, ¬w.Composes s 2 ms t) composedComment ∧
    Filled 2 composedComment [1] ∧ ∃ lines : Headers, "\"a.hpp\"" ∈ lines ∧
      ((after composedComment).compose "p").2 = .ok
        (String.join (lines.map fun h => "#include " ++ h ++ "\n") ++ "\n\n" ++
          String.join ["// a\n\n"]) := by
  have headed : ∀ s ∈ composedComment, ∀ name, s ≠ .clearHeaders name := by
    simp [composedComment, headedComment]
  have leaves : empty.Along LeavesMembers composedComment :=
    keepsHeaders_composedComment.imp fun w s keeps k g isFragment =>
      keeps k g (fragmentAt_of_item isFragment rfl)
  have first : empty.Along (fun w s => ∀ ms t, ¬w.Composes s 2 ms t) composedComment := by
    have noneComposes : ∀ s ∈ composedComment, ∀ name, s ≠ .compose name := by
      simp [composedComment, headedComment]
    exact (along_of_forall noneComposes).imp fun w s other => not_composes other 2
  have spares : empty.Along (Spares 1 0 "\"a.hpp\"") composedComment := by
    have noneDrops : ∀ s ∈ composedComment, ∀ name, s ≠ .dropHeader name "\"a.hpp\"" := by
      simp [composedComment, headedComment]
    refine (along_of_forall noneDrops).imp fun w s other f ms isSealed _ _ drops => ?_
    obtain ⟨name, _, _, isDrop, _⟩ := drops
    exact other name isDrop
  obtain ⟨filled, own, standard, text, _, _, _, _, nested⟩ :=
    first_text_of_composer headed leaves composedComment_found first
  refine ⟨headed, leaves, first, filled, own ++ standard, ?_, ?_⟩
  · have headers : (after composedComment).headersOf 0 = .ok ["\"a.hpp\""] := rfl
    exact nested 1 List.mem_cons_self _ _ [0] false 0 rfl List.mem_cons_self rfl _ headers _
      List.mem_cons_self spares
  · have body : (after composedComment).text 1 = .ok "// a\n\n" := text_containerBench _
    rw [text, List.mapM_cons, body]
    rfl

/-- The headers of no item change once it is a member, and still there is no line for the header of
a comment in a container, since it was removed from the container. -/
theorem removed_header_has_no_line :
    empty.Along KeepsHeaders droppedHeader ∧
    (after droppedHeader).find "p" = .ok (2, .composer [1] false none) ∧
    (after droppedHeader).items[1]? = some (.container (.of .weights []) [0] false) ∧
    (after droppedHeader).headersOf 0 = .ok ["\"a.hpp\""] ∧
    ((after droppedHeader).compose "p").2 = .ok "\n\n// a\n\n" := by
  have found : (after droppedHeader).find "p" = .ok (2, .composer [1] false none) := rfl
  have made : (after droppedHeader).text 1 = .ok "// a\n\n" := text_containerBench []
  refine ⟨keepsHeaders_droppedHeader, found, rfl, rfl, ?_⟩
  rw [compose_of_none found, composeNow_of_headerless rfl made]
  rfl

end Workbench

end TensorEmit.Code
