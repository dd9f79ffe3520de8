import TensorEmit.Options
import TensorEmit.Proofs.Outcome
import TensorEmit.Proofs.Texts

/-!
# List arguments

A list argument without signs is the list of its entries. With a sign anywhere in it, it amends the
default list: an entry with a plus lists its name once more, an entry with a minus takes one listing
of its name away, and an entry without a sign counts for nothing. So the last signed entry that
speaks of a name decides whether the name is listed, unless a minus finds more than one listing of
it (`readListArgument_amends`).
-/

namespace TensorEmit

/-! ## Entries and names -/

/-- An entry speaks of a name: it is the name, or the name with a sign in front. -/
def SpeaksOf (entry name : String) : Prop :=
  entry = name ∨ entry = "+" ++ name ∨ entry = "-" ++ name

instance (entry name : String) : Decidable (SpeaksOf entry name) :=
  inferInstanceAs (Decidable (_ ∨ _ ∨ _))

/-- The last of the entries that speaks of a name, with those before it. -/
def LastSpeaking (entries : List String) (name : String) (front : List String) (entry : String) :
    Prop :=
  ∃ back, entries = front ++ entry :: back ∧ SpeaksOf entry name ∧
    ∀ later ∈ back, ¬ SpeaksOf later name

/-- Every entry of an argument has its effect on the names: the last entry that speaks of a name
without a sign of its own lists it or drops it, and without signed entries the names make up the
argument. -/
structure AllInEffect (sep argument : String) (names : List String) : Prop where
  listed : ∀ name front entry, isSigned name = false →
    LastSpeaking (Text.splitAt sep argument) name front entry →
    entry = name ∨ entry = "+" ++ name → name ∈ names
  dropped : ∀ name front, isSigned name = false →
    LastSpeaking (Text.splitAt sep argument) name front ("-" ++ name) → name ∉ names
  joined : (∀ entry ∈ Text.splitAt sep argument, isSigned entry = false) →
    sep.intercalate names = argument

/-- The names after all signed entries were put into effect. -/
def amendAll (names entries : List String) : List String :=
  (entries.filter isSigned).foldl amendList names

/-! ## One entry -/

theorem toList_plus (name : String) : ("+" ++ name).toList = '+' :: name.toList := by
  rw [String.toList_append]
  rfl

theorem toList_minus (name : String) : ("-" ++ name).toList = '-' :: name.toList := by
  rw [String.toList_append]
  rfl

theorem isSigned_plus (name : String) : isSigned ("+" ++ name) = true := by
  unfold isSigned
  rw [toList_plus]
  rfl

theorem isSigned_minus (name : String) : isSigned ("-" ++ name) = true := by
  unfold isSigned
  rw [toList_minus]
  rfl

theorem amendList_plus (names : List String) (name : String) :
    amendList names ("+" ++ name) = names ++ [name] := by
  unfold amendList
  rw [toList_plus]
  exact congrArg (fun own => names ++ [own]) String.ofList_toList

theorem amendList_minus (names : List String) (name : String) :
    amendList names ("-" ++ name) = names.erase name := by
  unfold amendList
  rw [toList_minus]
  exact congrArg names.erase String.ofList_toList

/-- A signed entry is a sign and a name. -/
theorem exists_of_isSigned {entry : String} (signed : isSigned entry) :
    ∃ name, entry = "+" ++ name ∨ entry = "-" ++ name := by
  unfold isSigned at signed
  split at signed
  case h_1 cs parts =>
    refine ⟨String.ofList cs, .inl (String.toList_injective ?_)⟩
    rw [parts, toList_plus, String.toList_ofList]
  case h_2 cs parts =>
    refine ⟨String.ofList cs, .inr (String.toList_injective ?_)⟩
    rw [parts, toList_minus, String.toList_ofList]
  case h_3 => cases signed

/-- A signed entry leaves alone how often other names are listed. -/
theorem count_amendList {entry name : String} (signed : isSigned entry)
    (other : ¬ SpeaksOf entry name) (names : List String) :
    (amendList names entry).count name = names.count name := by
  obtain ⟨own, rfl | rfl⟩ := exists_of_isSigned signed
  · have differs : own ≠ name := by
      rintro rfl
      exact other (.inr (.inl rfl))
    rw [amendList_plus, List.count_append, List.count_singleton, if_neg (by simpa using differs)]
    rfl
  · have differs : name ≠ own := by
      rintro rfl
      exact other (.inr (.inr rfl))
    rw [amendList_minus, List.count_erase_of_ne differs]

/-! ## All entries -/

theorem amendAll_append (names front back : List String) :
    amendAll names (front ++ back) = amendAll (amendAll names front) back := by
  unfold amendAll
  rw [List.filter_append, List.foldl_append]

theorem amendAll_cons {entry : String} (signed : isSigned entry) (names back : List String) :
    amendAll names (entry :: back) = amendAll (amendList names entry) back := by
  unfold amendAll
  rw [List.filter_cons_of_pos signed, List.foldl_cons]

/-- Entries leave alone how often a name is listed if no signed one speaks of it. -/
theorem count_amendAll {entries : List String} {name : String}
    (others : ∀ entry ∈ entries, isSigned entry → ¬ SpeaksOf entry name) (names : List String) :
    (amendAll names entries).count name = names.count name := by
  induction entries generalizing names with
  | nil => rfl
  | cons entry entries ih =>
    have later := ih fun entry' member => others entry' (List.mem_cons_of_mem _ member)
    by_cases signed : isSigned entry
    · rw [amendAll_cons signed, later, count_amendList signed (others entry (by simp) signed)]
    · unfold amendAll at later ⊢
      rw [List.filter_cons_of_neg signed, later]

/-- After the last entry that speaks of a name, the name is listed as often as that entry leaves
it. -/
theorem count_amendAll_of_lastSpeaking {entries front : List String} {name entry : String}
    (last : LastSpeaking (entries.filter isSigned) name front entry) (names : List String) :
    (amendAll names entries).count name =
      (amendList (amendAll names front) entry).count name := by
  obtain ⟨back, parts, _, others⟩ := last
  have signed : ∀ entry' ∈ front ++ entry :: back, isSigned entry' := by
    intro entry' member
    rw [← parts] at member
    exact (List.mem_filter.mp member).2
  have whole : amendAll names entries = amendAll names (front ++ entry :: back) := by
    rw [← parts]
    unfold amendAll
    rw [List.filter_filter]
    simp only [Bool.and_self]
  rw [whole, amendAll_append, amendAll_cons (signed entry (by simp)),
    count_amendAll fun later member _ => others later member]

/-! ## Reading -/

section Reading

variable {sep : String} {default? : Option String} {value : Value}

/-- An argument without signs is the list of its entries. -/
theorem readListArgument_of_unsigned (separates : sep ≠ "")
    (filled : ∀ entry ∈ Text.splitAt sep value.plain, entry ≠ "")
    (unsigned : ∀ entry ∈ Text.splitAt sep value.plain, isSigned entry = false) :
    readListArgument sep default? value = .ok (Text.splitAt sep value.plain) := by
  have noneEmpty : (Text.splitAt sep value.plain).any (· = "") = false := by
    simpa using filled
  have noneSigned : (Text.splitAt sep value.plain).filter isSigned = [] := by
    simpa using unsigned
  unfold readListArgument
  simp [separates, noneEmpty, noneSigned]

/-- An argument with a sign amends the default. -/
theorem readListArgument_of_signed {default : String} (separates : sep ≠ "")
    (filled : ∀ entry ∈ Text.splitAt sep value.plain, entry ≠ "")
    (signed : ∃ entry ∈ Text.splitAt sep value.plain, isSigned entry) :
    readListArgument sep (some default) value =
      .ok (amendAll (Text.splitAt sep default) (Text.splitAt sep value.plain)) := by
  have noneEmpty : (Text.splitAt sep value.plain).any (· = "") = false := by
    simpa using filled
  have someSigned : ((Text.splitAt sep value.plain).filter isSigned).isEmpty = false := by
    simpa using signed
  unfold readListArgument
  simp [separates, noneEmpty, someSigned]
  rfl

/-- Without signs every entry lists itself. -/
theorem allInEffect_of_unsigned {argument : String} (separates : sep ≠ "")
    (unsigned : ∀ entry ∈ Text.splitAt sep argument, isSigned entry = false) :
    AllInEffect sep argument (Text.splitAt sep argument) where
  listed := by
    rintro name front entry - ⟨back, parts, -, -⟩ (rfl | rfl)
    · rw [parts]
      simp
    · have sign := unsigned ("+" ++ name) (by rw [parts]; simp)
      rw [isSigned_plus] at sign
      cases sign
  dropped := by
    rintro name front - ⟨back, parts, -, -⟩
    have sign := unsigned ("-" ++ name) (by rw [parts]; simp)
    rw [isSigned_minus] at sign
    cases sign
  joined := fun _ => Text.intercalate_splitAt separates argument

end Reading

/-- What a list argument comes to. Without signs it is the list of its entries, and all of them are
in effect. With a sign it amends the default list: a name is listed if the last signed entry that
speaks of it adds it, it is not listed if that entry takes it away and finds it listed at most once,
and a name that no signed entry speaks of is listed if and only if the default lists it. -/
theorem readListArgument_amends (default : String) {sep : String} {value : Value}
    (separates : sep ≠ "")
    (filled : ∀ entry ∈ Text.splitAt sep value.plain, entry ≠ "") :
    ∃ names, readListArgument sep (some default) value = .ok names ∧
      ((∀ entry ∈ Text.splitAt sep value.plain, isSigned entry = false) →
        names = Text.splitAt sep value.plain ∧ AllInEffect sep value.plain names) ∧
      ((∃ entry ∈ Text.splitAt sep value.plain, isSigned entry) → ∀ name,
        (∀ front, LastSpeaking ((Text.splitAt sep value.plain).filter isSigned) name front
          ("+" ++ name) → name ∈ names) ∧
        (∀ front, LastSpeaking ((Text.splitAt sep value.plain).filter isSigned) name front
          ("-" ++ name) → (amendAll (Text.splitAt sep default) front).count name ≤ 1 →
          name ∉ names) ∧
        ((∀ entry ∈ Text.splitAt sep value.plain, isSigned entry → ¬ SpeaksOf entry name) →
          (name ∈ names ↔ name ∈ Text.splitAt sep default))) := by
  by_cases signed : ∃ entry ∈ Text.splitAt sep value.plain, isSigned entry
  · refine ⟨_, readListArgument_of_signed separates filled signed, fun unsigned => ?_,
      fun _ name => ⟨fun front last => ?_, fun front last once => ?_, fun others => ?_⟩⟩
    · obtain ⟨entry, member, sign⟩ := signed
      rw [unsigned entry member] at sign
      cases sign
    · rw [← List.count_pos_iff, count_amendAll_of_lastSpeaking last, amendList_plus,
        List.count_append, List.count_singleton_self]
      exact Nat.succ_pos _
    · rw [← List.count_eq_zero, count_amendAll_of_lastSpeaking last, amendList_minus,
        List.count_erase_self]
      omega
    · rw [← List.count_pos_iff, count_amendAll others, List.count_pos_iff]
  · have unsigned : ∀ entry ∈ Text.splitAt sep value.plain, isSigned entry = false := by
      intro entry member
      rw [← Bool.not_eq_true]
      exact fun sign => signed ⟨entry, member, sign⟩
    exact ⟨_, readListArgument_of_unsigned separates filled unsigned,
      fun _ => ⟨rfl, allInEffect_of_unsigned separates unsigned⟩, fun sign => absurd sign signed⟩

/-- Entries that take one pass out of the default, name one and add one. -/
def mixedPasses : String := "-quantize,refcnt,+dropout"

theorem readListArgument_amends_mixedPasses :
    "," ≠ "" ∧ (∀ entry ∈ Text.splitAt "," mixedPasses, entry ≠ "") ∧
      ∃ names, readListArgument "," (some "dropout,quantize,inline") (.text mixedPasses) =
          .ok names ∧ "dropout" ∈ names ∧ "quantize" ∉ names ∧ "inline" ∈ names ∧
        "refcnt" ∉ names := by
  have entries : Text.splitAt "," (Value.text mixedPasses).plain =
      ["-quantize", "refcnt", "+dropout"] := by decide
  have filled : ∀ entry ∈ Text.splitAt "," (Value.text mixedPasses).plain, entry ≠ "" := by
    rw [entries]
    decide
  obtain ⟨names, run, -, amended⟩ :=
    readListArgument_amends "dropout,quantize,inline" (by decide) filled
  rw [entries] at amended
  have signed := amended ⟨"-quantize", by decide, by decide⟩
  refine ⟨by decide, filled, names, run, ?_, ?_, ?_, ?_⟩
  · exact (signed "dropout").1 ["-quantize"] ⟨[], by decide, by decide, by decide⟩
  · exact (signed "quantize").2.1 [] ⟨["+dropout"], by decide, by decide, by decide⟩ (by decide)
  · exact ((signed "inline").2.2 (by decide)).mpr (by decide)
  · rw [(signed "refcnt").2.2 (by decide)]
    decide

theorem entries_without_effect :
    readListArgument "," (some "dropout") (.text "quantize,+inline") = .ok ["dropout", "inline"] ∧
      ¬ AllInEffect "," "quantize,+inline" ["dropout", "inline"] ∧
    readListArgument "," (some "dropout,inline,dropout") (.text "-dropout") =
        .ok ["inline", "dropout"] ∧
      ¬ AllInEffect "," "-dropout" ["inline", "dropout"] := by
  refine ⟨by decide, fun all => ?_, by decide, fun all => ?_⟩
  · have listed := all.listed "quantize" [] "quantize" (by decide)
      ⟨["+inline"], by decide, by decide, by decide⟩ (.inl rfl)
    revert listed
    decide
  · exact all.dropped "dropout" [] (by decide) ⟨[], by decide, by decide, by decide⟩
      (by decide)

end TensorEmit
