import TensorEmit.Proofs.ContextCalls
import TensorEmit.Proofs.Workbenches

/-!
# The text that a composer keeps

A composer keeps the text that it composed until something is added to it. Nothing else that happens
on the workbench makes it forget the text, so what it gives is the text that a new composer over the
same members would have given when the text was composed (`Workbench.compose_gives_kept_text`). A
new composer gives the same text now if all that the text was made of is as it was.
-/

namespace TensorEmit.Code.Workbench

variable {w w' : Workbench} {s : Step} {n : Nat} {ms : List Nat} {isSealed : Bool}
  {kept : Option String} {t : String} {name : String}

/-! ## What a text is made of -/

/-- An item is a given one or is nested in it. -/
inductive Reaches (w : Workbench) : Nat → Nat → Prop
  | self (n : Nat) : Reaches w n n
  | member {n m k : Nat} {f : Fragment} {ms : List Nat} {isSealed : Bool}
      (there : w.items[n]? = some (.container f ms isSealed)) (member : m ∈ ms)
      (reaches : Reaches w m k) : Reaches w n k

/-- What the text of a composer over the members is made of is the same on two workbenches: the
members with all that is nested in them, and the headers of the members. -/
structure SameSources (w w' : Workbench) (ms : List Nat) : Prop where
  items : ∀ m ∈ ms, ∀ k, w.Reaches m k → w'.items[k]? = w.items[k]?
  sets : ∀ m ∈ ms, ∀ f, w.fragmentAt m = some f → w'.sets.of f.owner = w.sets.of f.owner

theorem mapM_congr {f g : Nat → Except Fault α} (same : ∀ m ∈ ms, f m = g m) :
    ms.mapM f = ms.mapM g := by
  induction ms with
  | nil => rfl
  | cons m rest ih =>
    obtain ⟨first, others⟩ := List.forall_mem_cons.mp same
    rw [List.mapM_cons, List.mapM_cons, first, ih others]

theorem statementsWithin_fragment {fuel : Nat} {f : Fragment}
    (there : w.items[n]? = some (.fragment f)) :
    w.statementsWithin (fuel + 1) n = f.statements := by
  rw [statementsWithin, there]

/-- The statements of an item depend only on what is nested in it, and not on how deep it may be
nested. -/
theorem statementsWithin_congr (sound : w.Sound) {fuel fuel' : Nat} (enough : n ≤ fuel)
    (enough' : n ≤ fuel') (same : ∀ k, w.Reaches n k → w'.items[k]? = w.items[k]?) :
    w'.statementsWithin (fuel' + 2) n = w.statementsWithin (fuel + 2) n := by
  induction n using Nat.strongRecOn generalizing fuel fuel' with
  | ind n ih =>
    rw [statementsWithin, statementsWithin, same n (.self n)]
    cases there : w.items[n]? with
    | none => rfl
    | some item =>
      cases item with
      | fragment f => rfl
      | composer ms isSealed kept => rfl
      | container f ms isSealed =>
        cases sound.fits n _ there with
        | container owner nested =>
          refine congrArg f.statementsAround (mapM_congr fun m member => ?_)
          have below : ∀ k, w.Reaches m k → w'.items[k]? = w.items[k]? :=
            fun k reaches => same k (.member there member reaches)
          -- a member is either a fragment, which needs no fuel, or it was made earlier
          obtain ⟨earlier, _⟩ | ⟨g, isFragment⟩ := nested m member
          · obtain ⟨fuel, rfl⟩ := Nat.exists_eq_succ_of_ne_zero (by omega : fuel ≠ 0)
            obtain ⟨fuel', rfl⟩ := Nat.exists_eq_succ_of_ne_zero (by omega : fuel' ≠ 0)
            exact ih m earlier (by omega) (by omega) below
          · rw [statementsWithin_fragment isFragment,
              statementsWithin_fragment ((below m (.self m)).trans isFragment)]

theorem text_congr (sound : w.Sound) {f : Fragment} (there : w.fragmentAt n = some f)
    (same : ∀ k, w.Reaches n k → w'.items[k]? = w.items[k]?) : w'.text n = w.text n := by
  have still : w'.fragmentAt n = some f := by
    rw [fragmentAt, same n (.self n)]
    exact there
  have enough := fragmentAt_lt there
  have enough' := fragmentAt_lt still
  obtain ⟨count, isCount⟩ := Nat.exists_eq_succ_of_ne_zero (by omega : w.items.length ≠ 0)
  obtain ⟨count', isCount'⟩ := Nat.exists_eq_succ_of_ne_zero (by omega : w'.items.length ≠ 0)
  have statements : w'.statements n = w.statements n := by
    rw [Workbench.statements, Workbench.statements, isCount, isCount']
    exact statementsWithin_congr sound (by omega) (by omega) same
  rw [text, text, statements]

theorem headersOf_congr (same : w'.items[n]? = w.items[n]?)
    (sets : ∀ f, w.fragmentAt n = some f → w'.sets.of f.owner = w.sets.of f.owner) :
    w'.headersOf n = w.headersOf n := by
  unfold headersOf
  rw [same]
  cases there : w.items[n]? with
  | none => rfl
  | some item =>
    cases item with
    | fragment f =>
      have owned := sets f (fragmentAt_of_item there rfl)
      simp only [Fragment.headers, owned]
    | container f ms isSealed =>
      have owned := sets f (fragmentAt_of_item there rfl)
      simp only [Fragment.headers, owned]
    | composer ms isSealed kept => rfl

theorem SameSources.composeNow (same : w.SameSources w' ms) (sound : w.Sound)
    (held : ∀ m ∈ ms, ∃ f, w.fragmentAt m = some f) : w'.composeNow ms = w.composeNow ms := by
  have headers : ms.mapM w'.headersOf = ms.mapM w.headersOf := by
    refine mapM_congr fun m member => ?_
    exact headersOf_congr (same.items m member m (.self m)) (same.sets m member)
  have bodies : ms.mapM w'.text = ms.mapM w.text := by
    refine mapM_congr fun m member => ?_
    obtain ⟨f, there⟩ := held m member
    exact text_congr sound there (same.items m member)
  rw [Workbench.composeNow, Workbench.composeNow, headers, bodies]

/-! ## A new composer -/

/-- What a composer over the members that is made now gives. -/
def newText (w : Workbench) (ms : List Nat) : Except Fault String :=
  ((w.put "" (.composer ms false none)).compose "").2

theorem compose_of_kept (found : w.find name = .ok (n, .composer ms isSealed (some t))) :
    (w.compose name).2 = .ok t := by
  rw [compose, found]

theorem compose_of_none (found : w.find name = .ok (n, .composer ms isSealed none)) :
    (w.compose name).2 = w.composeNow ms := by
  rw [compose, found]
  dsimp only
  cases w.composeNow ms with
  | error fault => rfl
  | ok t => rfl

theorem step_compose (found : w.find name = .ok (n, .composer ms isSealed none))
    (made : w.composeNow ms = .ok t) :
    w.step (.compose name) = w.replace n (.composer ms isSealed (some t)) := by
  rw [step, compose, found]
  dsimp only
  rw [made]

theorem Reaches.fragmentAt (sound : w.Sound) {m k : Nat} (reaches : w.Reaches m k) {f : Fragment}
    (there : w.fragmentAt m = some f) : ∃ g, w.fragmentAt k = some g := by
  induction reaches generalizing f with
  | self n => exact ⟨f, there⟩
  | member holder member reaches ih =>
    cases sound.fits _ _ holder with
    | container owner nested =>
      obtain ⟨_, g, there'⟩ | ⟨g, isFragment⟩ := nested _ member
      · exact ih there'
      · exact ih (fragmentAt_of_item isFragment rfl)

/-- A new composer does not change what its text is made of. -/
theorem newText_eq (sound : w.Sound) (held : ∀ m ∈ ms, ∃ f, w.fragmentAt m = some f) :
    w.newText ms = w.composeNow ms := by
  let added := w.put "" (.composer ms false none)
  have found : added.find "" = .ok (w.items.length, .composer ms false none) :=
    find_eq_ok_iff.mpr ⟨Entries.get?_set_self _ _ _, List.getElem?_concat_length⟩
  have same : w.SameSources added ms := by
    refine ⟨fun m member k reaches => ?_, fun m member f there => rfl⟩
    obtain ⟨f, there⟩ := held m member
    obtain ⟨g, there'⟩ := reaches.fragmentAt sound there
    exact List.getElem?_append_left (fragmentAt_lt there')
  rw [newText, compose_of_none found, same.composeNow sound held]

/-! ## What becomes of a composer -/

/-- What a step makes of a composer. -/
inductive Holds (w : Workbench) (s : Step) (n : Nat) (isSealed : Bool) :
    List Nat → Option String → Prop
  | made {ms : List Nat} {name : String} {c : ItemClass} {given : Entries String Value}
      {members : Option (List Member)} (makes : s = .make name c given members)
      (isNew : n = w.items.length)
      (listed : (members.getD []).map w.memberNumber? = ms.map some) : Holds w s n isSealed ms none
  | unchanged {ms : List Nat} {kept : Option String} (adds : ∀ m, ¬w.Adds s n m)
      (was : w.items[n]? = some (.composer ms isSealed kept)) : Holds w s n isSealed ms kept
  | added {m : Nat} {ms : List Nat} {kept : Option String} (adds : w.Adds s n m)
      (was : w.items[n]? = some (.composer ms isSealed kept)) :
      Holds w s n isSealed (if isSealed then ms else ms ++ [m]) none
  | composed {ms : List Nat} {t : String} (composes : w.Composes s n ms t)
      (was : w.items[n]? = some (.composer ms isSealed none)) : Holds w s n isSealed ms (some t)

theorem Adds.unique {n n' m m' : Nat} (adds : w.Adds s n m) (adds' : w.Adds s n' m') : n = n' := by
  obtain ⟨name, _, _, _, _, _, _, rfl, found, _⟩ := adds
  obtain ⟨_, _, _, _, _, _, _, ⟨⟩, found', _⟩ := adds'
  rw [found] at found'
  cases found'
  rfl

theorem not_adds_of_container {member : Member} {f : Fragment}
    (found : w.find name = .ok (n, .container f ms isSealed)) (k m : Nat) :
    ¬w.Adds (.addMember name member) k m := by
  rintro ⟨_, _, _, _, _, _, _, ⟨⟩, found', _⟩
  rw [found] at found'
  cases found'

theorem holds_of_effect (effect : w.Effect s w')
    (now : w'.items[n]? = some (.composer ms isSealed kept)) : w.Holds s n isSealed ms kept := by
  cases effect with
  | idle adds => exact .unchanged (adds n) now
  | newFragment =>
    obtain was | ⟨_, ⟨⟩⟩ := getElem?_concat_cases now
    exact .unchanged (not_adds (by simp) n) was
  | newContainer =>
    obtain was | ⟨_, ⟨⟩⟩ := getElem?_concat_cases now
    exact .unchanged (not_adds (by simp) n) was
  | merged => exact .unchanged (not_adds (by simp) n) now
  | newComposer held listed =>
    obtain was | ⟨isNew, ⟨⟩⟩ := getElem?_concat_cases now
    · exact .unchanged (not_adds (by simp) n) was
    · exact .made rfl isNew listed
  | newCustom owner headed isItem =>
    obtain was | ⟨_, rfl⟩ := getElem?_concat_cases now
    · exact .unchanged (not_adds (by simp) n) was
    · obtain ⟨⟨⟩⟩ | ⟨⟨⟩⟩ := isItem
  | containerGrown found =>
    obtain ⟨_, ⟨⟩⟩ | ⟨_, was⟩ := getElem?_set_cases now
    exact .unchanged (not_adds_of_container found n) was
  | containerSealed found => exact .unchanged (not_adds_of_container found n) now
  | composerGrown adds found =>
    obtain ⟨rfl, ⟨⟩⟩ | ⟨other, was⟩ := getElem?_set_cases now
    · exact .added adds found
    · exact .unchanged (fun m adds' => other (adds'.unique adds)) was
  | headerAdded => exact .unchanged (not_adds (by simp) n) now
  | headerDropped => exact .unchanged (not_adds (by simp) n) now
  | @edited _ k item _ edit found =>
    obtain ⟨rfl, same⟩ | ⟨_, was⟩ := getElem?_set_cases now
    · cases item with
      | fragment f => cases same
      | container f ms isSealed => cases same
      | composer ms isSealed kept =>
        cases same
        exact .unchanged (not_adds_of_isEdit edit n) found
    · exact .unchanged (not_adds_of_isEdit edit n) was
  | composed composes found =>
    obtain ⟨rfl, ⟨⟩⟩ | ⟨_, was⟩ := getElem?_set_cases now
    · exact .composed composes found
    · obtain ⟨_, _, rfl, _⟩ := composes
      exact .unchanged (not_adds (by simp) n) was

/-! ## Since when a text is kept -/

/-- A history makes a composer compose a text from its members right after `earlier`, and adds
nothing to the composer from then on. -/
inductive KeptFrom (n : Nat) (ms : List Nat) (t : String) (earlier : List Step) : List Step → Prop
  | composed {s : Step} (composes : (after earlier).Composes s n ms t) :
      KeptFrom n ms t earlier (earlier ++ [s])
  | later {steps : List Step} {s : Step} (kept : KeptFrom n ms t earlier steps)
      (adds : ∀ m, ¬(after steps).Adds s n m) : KeptFrom n ms t earlier (steps ++ [s])

/-- Such a composer keeps the text. -/
theorem KeptFrom.keeps {earlier steps : List Step} (kept : KeptFrom n ms t earlier steps) :
    ∃ isSealed, (after steps).items[n]? = some (.composer ms isSealed (some t)) := by
  induction kept with
  | composed composes =>
    obtain ⟨name, isSealed, rfl, found, made⟩ := composes
    obtain ⟨_, there⟩ := find_eq_ok_iff.mp found
    refine ⟨isSealed, ?_⟩
    rw [after_append, step_compose found made]
    exact List.getElem?_set_self (List.getElem?_eq_some_iff.mp there).1
  | @later steps s kept adds ih =>
    obtain ⟨isSealed, there⟩ := ih
    have effect := effect_step (sound_after steps) s
    obtain ⟨_, now, becomes⟩ := (effect.change (sound_after steps)).keeps there
    rw [after_append]
    cases becomes with
    | composer more =>
      cases holds_of_effect effect now with
      | made _ isNew => exact absurd (List.getElem?_eq_some_iff.mp there).1 (by omega)
      | unchanged _ was =>
        rw [there] at was
        cases was
        exact ⟨isSealed, now⟩
      | added adds' => exact absurd adds' (adds _)
      | composed _ was =>
        rw [there] at was
        cases was

/-- A text that a composer keeps was composed at some time, and nothing was added since. -/
theorem exists_keptFrom {steps : List Step}
    (there : (after steps).items[n]? = some (.composer ms isSealed (some t))) :
    ∃ earlier, KeptFrom n ms t earlier steps := by
  induction steps using List.reverseRecOn generalizing isSealed with
  | nil => cases there
  | append_singleton steps s ih =>
    rw [after_append] at there
    cases holds_of_effect (effect_step (sound_after steps) s) there with
    | unchanged adds was =>
      obtain ⟨earlier, kept⟩ := ih was
      exact ⟨earlier, .later kept adds⟩
    | composed composes was => exact ⟨steps, .composed composes⟩

theorem held_of_composer (sound : w.Sound)
    (there : w.items[n]? = some (.composer ms isSealed kept)) :
    ∀ m ∈ ms, ∃ f, w.fragmentAt m = some f := by
  cases sound.fits n _ there with
  | composer held => exact held

theorem KeptFrom.composes {earlier steps : List Step} (kept : KeptFrom n ms t earlier steps) :
    ∃ s, (after earlier).Composes s n ms t := by
  induction kept with
  | composed composes => exact ⟨_, composes⟩
  | later kept adds ih => exact ih

/-- A text that is kept is the one of a new composer, both when it was composed and as long as its
sources are the same. -/
theorem KeptFrom.newText {earlier steps : List Step} (kept : KeptFrom n ms t earlier steps) :
    (after earlier).newText ms = .ok t ∧
      ((after earlier).SameSources (after steps) ms → (after steps).newText ms = .ok t) := by
  obtain ⟨s, name, isSealed, rfl, found, made⟩ := kept.composes
  have held := held_of_composer (sound_after earlier) (find_eq_ok_iff.mp found).2
  refine ⟨(newText_eq (sound_after earlier) held).trans made, fun same => ?_⟩
  obtain ⟨isSealed', there⟩ := kept.keeps
  calc (after steps).newText ms
    _ = (after steps).composeNow ms :=
      newText_eq (sound_after steps) (held_of_composer (sound_after steps) there)
    _ = (after earlier).composeNow ms := same.composeNow (sound_after earlier) held
    _ = .ok t := made

theorem KeptFrom.isKept {earlier steps : List Step} (keptFrom : KeptFrom n ms t earlier steps)
    (there : (after steps).items[n]? = some (.composer ms isSealed kept)) : kept = some t := by
  obtain ⟨_, there'⟩ := keptFrom.keeps
  rw [there] at there'
  cases there'
  rfl

/-- A composer gives the text that it composed last, if nothing was added to it since, and otherwise
the text of a new composer over its members. The text that it composed last is the one that a new
composer gave then, and if its sources are the same, it is the one that a new composer gives now. -/
theorem compose_gives_kept_text {steps : List Step}
    (found : (after steps).find name = .ok (n, .composer ms isSealed kept)) :
    (∀ t, ((after steps).compose name).2 = .ok t ↔
      (∃ earlier, KeptFrom n ms t earlier steps) ∨
        (∀ t' earlier, ¬KeptFrom n ms t' earlier steps) ∧ (after steps).newText ms = .ok t) ∧
    (∀ t earlier, KeptFrom n ms t earlier steps → (after earlier).newText ms = .ok t) ∧
    ((∀ t earlier, KeptFrom n ms t earlier steps → (after earlier).SameSources (after steps) ms) →
      ((after steps).compose name).2 = (after steps).newText ms) := by
  have there := (find_eq_ok_iff.mp found).2
  cases kept with
  | some t₀ =>
    obtain ⟨moment, keptFrom⟩ := exists_keptFrom there
    rw [compose_of_kept found]
    refine ⟨fun t => ⟨?_, ?_⟩, fun t earlier keptFrom' => keptFrom'.newText.1, fun same => ?_⟩
    · rintro ⟨⟩
      exact .inl ⟨moment, keptFrom⟩
    · rintro (⟨earlier, keptFrom'⟩ | ⟨never, _⟩)
      · exact congrArg Except.ok (Option.some.inj (keptFrom'.isKept there))
      · exact absurd keptFrom (never t₀ moment)
    · exact (keptFrom.newText.2 (same t₀ moment keptFrom)).symm
  | none =>
    have never : ∀ t' earlier, ¬KeptFrom n ms t' earlier steps := by
      intro t' earlier keptFrom
      cases keptFrom.isKept there
    rw [compose_of_none found,
      newText_eq (sound_after steps) (held_of_composer (sound_after steps) there)]
    refine ⟨fun t => ⟨fun made => .inr ⟨never, made⟩, ?_⟩, fun t earlier keptFrom => ?_,
      fun _ => rfl⟩
    · rintro (⟨earlier, keptFrom⟩ | ⟨_, made⟩)
      · exact absurd keptFrom (never t earlier)
      · exact made
    · exact absurd keptFrom (never t earlier)

/-! ## A text that is out of date -/

theorem composeNow_of_headerless {m : Nat} {body : String} (headers : w.headersOf m = .ok [])
    (made : w.text m = .ok body) : w.composeNow [m] = .ok ("\n\n" ++ body) := by
  have sets : [m].mapM w.headersOf = .ok [[]] := by
    rw [List.mapM_cons, headers]
    rfl
  have bodies : [m].mapM w.text = .ok [body] := by
    rw [List.mapM_cons, made]
    rfl
  have noLines : includeLines [] = "" := by
    simp [includeLines, includeOrder, Headers.sorted]
  have joined : String.join [body] = body := String.empty_append
  rw [composeNow, sets, ok_bind, bodies, ok_bind, pure_eq_ok_iff, List.flatten_singleton,
    Headers.addAll, List.foldl_nil, composed, noLines, String.empty_append, joined]

/-- A comment and a composer over it. -/
def commentBench (comment : String) (kept : Option String) : Workbench :=
  ⟨[.fragment (.of .comment [("comments", .list [.text comment])]), .composer [0] false kept],
    [("s", 0), ("p", 1)], []⟩

theorem composeNow_commentBench (comment : String) (kept : Option String) :
    (commentBench comment kept).composeNow [0] = .ok ("\n\n" ++ ("// " ++ comment ++ "\n")) := by
  have stated : (commentBench comment kept).statements 0 = .ok [.line ("// " ++ comment)] := by
    have there : (commentBench comment kept).items[0]? =
        some (.fragment (.of .comment [("comments", .list [.text comment])])) := rfl
    rw [statements, statementsWithin_fragment there, Fragment.statements_eq]
    rfl
  refine composeNow_of_headerless rfl ?_
  rw [text, stated, ← String.empty_append (s := "// " ++ comment ++ "\n")]
  rfl

/-- The steps that put it together. -/
def commentSteps : List Step :=
  [.make "s" (.ofTemplate .comment) [("comments", .list [.text "a"])] none,
   .make "p" .composer [] (some [.item "s"])]

/-- The comment is changed after the composer composed its text. -/
def changedComment : List Step :=
  commentSteps ++ [.compose "p", .setVariables "s" [("comments", .list [.text "b"])]]

theorem after_changedComment : after changedComment = commentBench "b" (some "\n\n// a\n") := by
  have made : empty.run commentSteps = commentBench "a" none := rfl
  have found : (commentBench "a" none).find "p" = .ok (1, .composer [0] false none) := rfl
  have text : "\n\n" ++ ("// " ++ "a" ++ "\n") = "\n\n// a\n" := rfl
  have kept := composeNow_commentBench "a" none
  rw [text] at kept
  rw [after, changedComment, run_append, made, run, List.foldl_cons, step_compose found kept]
  rfl

theorem changedComment_found :
    (after changedComment).find "p" = .ok (1, .composer [0] false (some "\n\n// a\n")) := by
  rw [after_changedComment]
  rfl

theorem compose_gives_kept_text_changedComment :
    (after changedComment).find "p" = .ok (1, .composer [0] false (some "\n\n// a\n")) ∧
    (∀ t, ((after changedComment).compose "p").2 = .ok t ↔
      (∃ earlier, KeptFrom 1 [0] t earlier changedComment) ∨
        (∀ t' earlier, ¬KeptFrom 1 [0] t' earlier changedComment) ∧
          (after changedComment).newText [0] = .ok t) ∧
    (∀ t earlier, KeptFrom 1 [0] t earlier changedComment → (after earlier).newText [0] = .ok t) ∧
    ((∀ t earlier, KeptFrom 1 [0] t earlier changedComment →
        (after earlier).SameSources (after changedComment) [0]) →
      ((after changedComment).compose "p").2 = (after changedComment).newText [0]) :=
  ⟨changedComment_found, compose_gives_kept_text changedComment_found⟩

/-- The composer still gives the text with the old comment; a new one gives the text with the new
comment. -/
theorem changed_comment_not_composed_again :
    (after changedComment).find "p" = .ok (1, .composer [0] false (some "\n\n// a\n")) ∧
    ((after changedComment).compose "p").2 = .ok "\n\n// a\n" ∧
    (after changedComment).newText [0] = .ok "\n\n// b\n" := by
  refine ⟨changedComment_found, compose_of_kept changedComment_found, ?_⟩
  have held := held_of_composer (sound_after changedComment)
    (find_eq_ok_iff.mp changedComment_found).2
  rw [newText_eq (sound_after changedComment) held, after_changedComment, composeNow_commentBench]
  rfl

end TensorEmit.Code.Workbench
