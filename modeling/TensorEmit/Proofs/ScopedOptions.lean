import Mathlib.Data.List.TakeWhile
import TensorEmit.Proofs.PassOrder
import TensorEmit.Proofs.Rendering

/-!
# Looking up scoped options

An option of a scope is filed under the name behind the scope and two low lines. The name ends where
the word characters end, and what follows it is not looked at: with the scope `ns` the key `ns__x-y`
stands for the name `x` just as `ns__x` does (`optionPlace_eq_own_iff`).

`lookup?` is the exact lookup, which takes the own option of the full key only. A reader looks up
exactly (`Options.Exact`) as long as every key that stands for a name is the full key of that name.
If one is not, its value hides that of another option, and it cannot be found under its own key.
-/

namespace TensorEmit

/-! ## Identifiers -/

namespace Text

/-- Whether a text is a plain identifier. -/
def isIdentifier (s : String) : Bool :=
  match s.toList with
  | [] => false
  | c :: cs => isIdentStart c && cs.all isWordChar

theorem isIdentifier_iff {s : String} :
    isIdentifier s ↔ ∃ c cs, s.toList = c :: cs ∧ isIdentStart c ∧ ∀ d ∈ cs, isWordChar d := by
  unfold isIdentifier
  cases s.toList with
  | nil => simp
  | cons c cs => simp

theorem isWordChar_of_isIdentifier {s : String} (ident : isIdentifier s) {c : Char}
    (member : c ∈ s.toList) : isWordChar c := by
  obtain ⟨d, cs, parts, start, words⟩ := isIdentifier_iff.mp ident
  rw [parts] at member
  rcases List.mem_cons.mp member with rfl | later
  · exact (Bool.and_eq_true_iff.mp start).1
  · exact words c later

/-- A sign that is no word character is not part of an identifier. -/
theorem not_mem_of_isIdentifier {s : String} (ident : isIdentifier s) {c : Char}
    (sign : isWordChar c = false) : c ∉ s.toList := by
  intro member
  rw [isWordChar_of_isIdentifier ident member] at sign
  cases sign

end Text

/-! ## Keys that stand for a name -/

/-- The full key of an own option. -/
def ownKey (scope name : String) : String := scope ++ "__" ++ name

/-- Whether a key stands for a name: it starts with the full key, and the name ends there. -/
def standsFor (scope name key : String) : Bool :=
  let full := (ownKey scope name).toList
  Text.isIdentifier name && full.isPrefixOf key.toList &&
    !(key.toList.drop full.length).head?.any Text.isWordChar

theorem standsFor_iff {scope name key : String} :
    standsFor scope name key ↔ Text.isIdentifier name ∧
      ∃ rest, key.toList = (ownKey scope name).toList ++ rest ∧
        ∀ c ∈ rest.head?, Text.isWordChar c = false := by
  have ends : ∀ rest : List Char, rest.head?.any Text.isWordChar = false ↔
      ∀ c ∈ rest.head?, Text.isWordChar c = false := by
    intro rest
    cases rest with
    | nil => simp
    | cons c rest => simp
  unfold standsFor
  simp only [Bool.and_eq_true, Bool.not_eq_true', List.isPrefixOf_iff_prefix, and_assoc]
  refine and_congr_right fun _ => ?_
  constructor
  · rintro ⟨⟨rest, parts⟩, ended⟩
    rw [← parts, List.drop_left] at ended
    exact ⟨rest, parts.symm, (ends rest).mp ended⟩
  · rintro ⟨rest, parts, ended⟩
    refine ⟨⟨rest, parts.symm⟩, ?_⟩
    rw [parts, List.drop_left]
    exact (ends rest).mpr ended

theorem toList_ownKey (scope name : String) :
    (ownKey scope name).toList = scope.toList ++ '_' :: '_' :: name.toList := by
  unfold ownKey
  simp

/-- The full key of an identifier stands for it. -/
theorem standsFor_ownKey {name : String} (ident : Text.isIdentifier name) (scope : String) :
    standsFor scope name (ownKey scope name) :=
  standsFor_iff.mpr ⟨ident, [], by simp, by simp⟩

theorem optionName?_eq_some_iff {cs : List Char} {name : String} :
    optionName? cs = some name ↔ Text.isIdentifier name ∧
      ∃ rest, cs = '_' :: '_' :: name.toList ++ rest ∧
        ∀ c ∈ rest.head?, Text.isWordChar c = false := by
  constructor
  · intro named
    unfold optionName? at named
    split at named
    case h_2 => cases named
    case h_1 cs =>
      unfold leadingIdent? at named
      split at named
      · cases named
      · rename_i c cs
        split at named
        case isFalse => cases named
        case isTrue start =>
          cases named
          refine ⟨Text.isIdentifier_iff.mpr ⟨c, _, String.toList_ofList, start, ?_⟩,
            cs.dropWhile Text.isWordChar, ?_, ?_⟩
          · exact fun d member => List.mem_takeWhile_imp member
          · rw [String.toList_ofList]
            simp
          · intro d first
            have stop := List.head?_dropWhile_not Text.isWordChar cs
            rwa [Option.mem_def.mp first] at stop
  · rintro ⟨ident, rest, rfl, ended⟩
    obtain ⟨c, cs, parts, start, words⟩ := Text.isIdentifier_iff.mp ident
    rw [parts]
    show leadingIdent? (c :: (cs ++ rest)) = some name
    have stops : rest.takeWhile Text.isWordChar = [] := by
      cases rest with
      | nil => rfl
      | cons d rest => rw [List.takeWhile_cons, ended d rfl]; rfl
    rw [leadingIdent?, if_pos start, List.takeWhile_append_of_pos words, stops, List.append_nil,
      ← parts, String.ofList_toList]

theorem matchPattern_append {pattern : List Char} (rest : List Char) :
    matchPattern pattern (pattern ++ rest) = some rest := by
  induction pattern with
  | nil => rfl
  | cons p pattern ih => rw [List.cons_append, matchPattern, if_pos (.inl rfl), ih]

section Places

variable {scope : String} (plain : Text.isIdentifier scope)

include plain

theorem optionPlace_of_identifier (key : String) :
    optionPlace scope key =
      match (matchPattern scope.toList key.toList).bind optionName? with
      | some name => .own (some name)
      | none => .shared := by
  have whole : '|' ∉ scope.toList := Text.not_mem_of_isIdentifier plain (by decide)
  have alone : Text.splitAt "|" scope = [scope] := by
    unfold Text.splitAt
    rw [show ("|" : String).toList = ['|'] from rfl, Text.splitChars_of_not_mem whole]
    simp
  unfold optionPlace
  rw [alone, placeAmong]
  cases matchPattern scope.toList key.toList with
  | none => rfl
  | some rest => cases optionName? rest <;> rfl

/-- An own option is filed under the name that its key stands for. -/
theorem optionPlace_eq_own_iff {key : String} {filed : Option String} :
    optionPlace scope key = .own filed ↔ ∃ name, filed = some name ∧ standsFor scope name key := by
  have pointless : '.' ∉ scope.toList := Text.not_mem_of_isIdentifier plain (by decide)
  have fits : ∀ rest, matchPattern scope.toList key.toList = some rest ↔
      key.toList = scope.toList ++ rest := by
    intro rest
    constructor
    · exact eq_append_of_matchPattern pointless
    · intro parts
      rw [parts, matchPattern_append]
  have named : ∀ name, (matchPattern scope.toList key.toList).bind optionName? = some name ↔
      standsFor scope name key := by
    intro name
    simp only [Option.bind_eq_some_iff, fits, optionName?_eq_some_iff, standsFor_iff, toList_ownKey]
    constructor
    · rintro ⟨_, parts, ident, rest, rfl, ended⟩
      exact ⟨ident, rest, by rw [parts]; simp, ended⟩
    · rintro ⟨ident, rest, parts, ended⟩
      exact ⟨_, by rw [parts, List.append_assoc], ident, rest, rfl, ended⟩
  rw [optionPlace_of_identifier plain]
  simp only [← named]
  cases (matchPattern scope.toList key.toList).bind optionName? with
  | none => simp
  | some name => simp [eq_comm]

theorem optionPlace_eq_shared_iff {key : String} :
    optionPlace scope key = .shared ↔ ∀ name, standsFor scope name key = false := by
  constructor
  · intro shared name
    by_contra stands
    have own := (optionPlace_eq_own_iff plain).mpr ⟨name, rfl, Bool.not_eq_false _ ▸ stands⟩
    rw [shared] at own
    cases own
  · intro none
    cases place : optionPlace scope key with
    | shared => rfl
    | own filed =>
      obtain ⟨name, _, stands⟩ := (optionPlace_eq_own_iff plain).mp place
      rw [none name] at stands
      cases stands

end Places

/-! ## Entries with distinct keys -/

namespace Entries

variable {κ α : Type} [DecidableEq κ]

theorem get?_eq_none_iff {es : Entries κ α} {k : κ} : es.get? k = none ↔ k ∉ es.keys := by
  induction es with
  | nil => simp [get?, keys]
  | cons e rest ih =>
    obtain ⟨k', v⟩ := e
    show (if k' = k then some v else get? rest k) = none ↔ k ∉ k' :: keys rest
    rw [List.mem_cons, not_or, ← ih]
    by_cases here : k' = k
    · simp [here]
    · simp [here, Ne.symm here]

theorem mem_iff_get? {es : Entries κ α} (distinct : es.keys.Nodup) {k : κ} {v : α} :
    (k, v) ∈ es ↔ es.get? k = some v := by
  induction es with
  | nil => simp [get?]
  | cons e rest ih =>
    obtain ⟨k', v'⟩ := e
    obtain ⟨fresh, later⟩ := List.nodup_cons.mp distinct
    rw [get?, List.mem_cons, Prod.mk.injEq, ih later]
    by_cases here : k' = k
    · subst here
      have none : get? rest k' = none := get?_eq_none_iff.mpr fresh
      simp [none, eq_comm]
    · simp [here, Ne.symm here]

theorem keys_set (es : Entries κ α) (k : κ) (v : α) :
    (es.set k v).keys = if k ∈ es.keys then es.keys else es.keys ++ [k] := by
  induction es with
  | nil => simp [set, keys]
  | cons e rest ih =>
    obtain ⟨k', v'⟩ := e
    by_cases here : k' = k
    · subst here
      simp [set, keys]
    · have other : k ≠ k' := Ne.symm here
      have parts : (set ((k', v') :: rest) k v).keys = k' :: (set rest k v).keys := by
        simp [set, keys, here]
      rw [parts, ih]
      show k' :: (if k ∈ keys rest then keys rest else keys rest ++ [k]) =
        if k ∈ k' :: keys rest then k' :: keys rest else k' :: keys rest ++ [k]
      simp only [List.mem_cons, other, false_or]
      split <;> rfl

theorem nodup_keys_set {es : Entries κ α} (distinct : es.keys.Nodup) (k : κ) (v : α) :
    (es.set k v).keys.Nodup := by
  rw [keys_set]
  split
  case isTrue => exact distinct
  case isFalse fresh => exact List.concat_eq_append ▸ distinct.concat fresh

/-- Among distinct keys the last entry of a key is the only one. -/
theorem getLast?_filter_key {es : Entries κ α} (distinct : es.keys.Nodup) (k : κ) :
    (es.filter fun e => e.1 = k).getLast?.map Prod.snd = es.get? k := by
  induction es with
  | nil => rfl
  | cons e rest ih =>
    obtain ⟨k', v⟩ := e
    obtain ⟨fresh, later⟩ := List.nodup_cons.mp distinct
    by_cases here : k' = k
    · subst here
      have none : rest.filter (fun e => e.1 = k') = [] := by
        rw [List.filter_eq_nil_iff]
        intro e member same
        exact fresh (List.mem_map.mpr ⟨e, member, by simpa using same⟩)
      rw [List.filter_cons_of_pos (by simp), none, get?, if_pos rfl]
      rfl
    · rw [List.filter_cons_of_neg (by simpa using here), ih later, get?, if_neg here]

end Entries

/-! ## Exact lookup -/

/-- Whether a key is the full key of an own option. -/
def isOwnKey (scope key : String) : Bool :=
  let front := (scope ++ "__").toList
  front.isPrefixOf key.toList && Text.isIdentifier (String.ofList (key.toList.drop front.length))

theorem isOwnKey_iff {scope key : String} :
    isOwnKey scope key ↔ ∃ name, Text.isIdentifier name ∧ key = ownKey scope name := by
  unfold isOwnKey
  simp only [Bool.and_eq_true, List.isPrefixOf_iff_prefix]
  constructor
  · rintro ⟨⟨rest, parts⟩, ident⟩
    rw [← parts, List.drop_left] at ident
    refine ⟨String.ofList rest, ident, String.toList_injective ?_⟩
    rw [← parts]
    simp [ownKey]
  · rintro ⟨name, ident, rfl⟩
    have parts : (ownKey scope name).toList = (scope ++ "__").toList ++ name.toList :=
      String.toList_append
    rw [parts, List.drop_left, String.ofList_toList]
    exact ⟨List.prefix_append _ _, ident⟩

/-- A key with something behind the name is neither a name itself nor a full key. -/
theorem not_own_of_standsFor {scope name key : String} (stands : standsFor scope name key)
    (other : key ≠ ownKey scope name) :
    Text.isIdentifier key = false ∧ isOwnKey scope key = false := by
  obtain ⟨_, rest, parts, ended⟩ := standsFor_iff.mp stands
  cases rest with
  | nil => exact absurd (String.toList_injective (by rw [parts, List.append_nil])) other
  | cons c rest =>
    have sign : Text.isWordChar c = false := ended c rfl
    rw [← Bool.not_eq_true, ← Bool.not_eq_true, isOwnKey_iff]
    constructor
    · intro isName
      refine Text.not_mem_of_isIdentifier isName sign ?_
      rw [parts]
      exact List.mem_append_right _ List.mem_cons_self
    · rintro ⟨name', isName, rfl⟩
      rw [toList_ownKey, toList_ownKey, List.append_assoc, List.append_cancel_left_eq,
        List.cons_append, List.cons_append, List.cons_inj_right, List.cons_inj_right] at parts
      refine Text.not_mem_of_isIdentifier isName sign ?_
      rw [parts]
      exact List.mem_append_right _ List.mem_cons_self

/-- Exact lookup of an option: the value under the full key if the name is an identifier that has
one, and else the value under the name itself if that is not the full key of an own option. -/
def lookup? (scope : String) (es : Entries String Value) (name : String) : Option Value :=
  if Text.isIdentifier name && es.has (ownKey scope name) then es.get? (ownKey scope name)
  else if isOwnKey scope name then none
  else es.get? name

/-- The value of the last entry whose key stands for a name. -/
def lastStanding (scope : String) (es : Entries String Value) (name : String) : Option Value :=
  (es.filter fun e => standsFor scope name e.1).getLast?.map Prod.snd

theorem lastStanding_of_not_identifier {scope name : String} (es : Entries String Value)
    (other : Text.isIdentifier name = false) : lastStanding scope es name = none := by
  have none : es.filter (fun e => standsFor scope name e.1) = [] := by
    rw [List.filter_eq_nil_iff]
    intro e _ stands
    rw [(standsFor_iff.mp stands).1] at other
    cases other
  rw [lastStanding, none]
  rfl

/-- If the keys that stand for a name are full keys, a name has one at most. -/
theorem lastStanding_of_full {scope : String} {es : Entries String Value} (distinct : es.keys.Nodup)
    (full : ∀ key ∈ es.keys, ∀ name, standsFor scope name key → key = ownKey scope name)
    (name : String) :
    lastStanding scope es name =
      if Text.isIdentifier name then es.get? (ownKey scope name) else none := by
  split
  case isFalse other => exact lastStanding_of_not_identifier es (Bool.not_eq_true _ ▸ other)
  case isTrue ident =>
    have same : ∀ e ∈ es, standsFor scope name e.1 = decide (e.1 = ownKey scope name) := by
      intro e member
      rw [Bool.eq_iff_iff, decide_eq_true_iff]
      constructor
      · exact full e.1 (List.mem_map_of_mem member) name
      · intro isFull
        rw [isFull]
        exact standsFor_ownKey ident scope
    rw [lastStanding, List.filter_congr same, Entries.getLast?_filter_key distinct]

namespace Options

/-- A reader looks up exactly: one option or all of them, with a default or without, and no two keys
are filed under one name, so that each value is kept. -/
structure Exact (scope : String) (es : Entries String Value) : Prop where
  getD : ∀ name default,
    (ofEntries scope es).getD name default = (lookup? scope es name).getD default
  get : ∀ name v, (ofEntries scope es).get name = .ok v ↔ lookup? scope es name = some v
  missing : ∀ name,
    (ofEntries scope es).get name = .error (.missing name) ↔ lookup? scope es name = none
  entries : ∀ name v, (name, v) ∈ (ofEntries scope es).toEntries ↔
    ∃ s, name = some s ∧ lookup? scope es s = some v
  once : (ofEntries scope es).toEntries.keys.Nodup
  apart : ∀ key ∈ es.keys, ∀ key' ∈ es.keys, ∀ name, optionPlace scope key = .own name →
    optionPlace scope key' = .own name → key = key'
  kept : ∀ e ∈ es, (∃ name, e.1 = ownKey scope name ∧ (some name, e.2) ∈ (ofEntries scope es).own) ∨
    e ∈ (ofEntries scope es).shared

theorem get_eq_ok_iff {o : Options} {name : String} {v : Value} :
    o.get name = .ok v ↔ o.get? name = some v := by
  unfold Options.get
  cases o.get? name with
  | none => simp
  | some u => simp

theorem get_eq_missing_iff {o : Options} {name : String} :
    o.get name = .error (.missing name) ↔ o.get? name = none := by
  unfold Options.get
  cases o.get? name with
  | none => simp
  | some u => simp

/-! ### What is filed -/

theorem ofEntries_append (scope : String) (es : Entries String Value) (e : String × Value) :
    ofEntries scope (es ++ [e]) = (ofEntries scope es).file e.1 e.2 := by
  unfold ofEntries
  rw [List.foldl_append]
  rfl

theorem scope_ofEntries (scope : String) (es : Entries String Value) :
    (ofEntries scope es).scope = scope := by
  induction es using List.reverseRecOn with
  | nil => rfl
  | append_singleton es e ih => rw [ofEntries_append, scope_file, ih]

/-- Of the own options under one name the last one counts. -/
theorem get?_own_ofEntries (scope : String) (es : Entries String Value) (filed : Option String) :
    (ofEntries scope es).own.get? filed =
      (es.filter fun e => optionPlace scope e.1 = .own filed).getLast?.map Prod.snd := by
  induction es using List.reverseRecOn with
  | nil => rfl
  | append_singleton es e ih =>
    rw [ofEntries_append, own_file, scope_ofEntries, List.filter_append]
    by_cases here : optionPlace scope e.1 = .own filed
    · rw [here, Entries.get?_set_self, List.filter_cons_of_pos (by simpa using here)]
      simp
    · rw [List.filter_cons_of_neg (by simpa using here), List.filter_nil, List.append_nil, ← ih]
      cases place : optionPlace scope e.1 with
      | shared => rfl
      | own other =>
        refine Entries.get?_set_of_ne _ _ fun same => here ?_
        rw [place, same]

theorem get?_shared_ofEntries (scope : String) (es : Entries String Value) (key : String) :
    (ofEntries scope es).shared.get? key =
      if optionPlace scope key = .shared then
        (es.filter fun e => e.1 = key).getLast?.map Prod.snd
      else none := by
  induction es using List.reverseRecOn with
  | nil => simp [ofEntries, Entries.get?]
  | append_singleton es e ih =>
    rw [ofEntries_append, shared_file, scope_ofEntries, List.filter_append]
    by_cases here : e.1 = key
    · rw [List.filter_cons_of_pos (by simpa using here), here]
      cases place : optionPlace scope key with
      | shared => simp [Entries.get?_set_self]
      | own other => rw [ih, place]; simp
    · rw [List.filter_cons_of_neg (by simpa using here), List.filter_nil, List.append_nil, ← ih]
      cases optionPlace scope e.1 with
      | shared => exact Entries.get?_set_of_ne _ _ (Ne.symm here)
      | own other => rfl

theorem nodup_own_ofEntries (scope : String) (es : Entries String Value) :
    (ofEntries scope es).own.keys.Nodup := by
  induction es using List.reverseRecOn with
  | nil => exact List.nodup_nil
  | append_singleton es e ih =>
    rw [ofEntries_append, own_file]
    split
    · exact ih
    · exact Entries.nodup_keys_set ih _ _

theorem nodup_shared_ofEntries (scope : String) (es : Entries String Value) :
    (ofEntries scope es).shared.keys.Nodup := by
  induction es using List.reverseRecOn with
  | nil => exact List.nodup_nil
  | append_singleton es e ih =>
    rw [ofEntries_append, shared_file]
    split
    · exact Entries.nodup_keys_set ih _ _
    · exact ih

theorem nodup_toEntries (scope : String) (es : Entries String Value) :
    (ofEntries scope es).toEntries.keys.Nodup := by
  have own := nodup_own_ofEntries scope es
  have shared := nodup_shared_ofEntries scope es
  unfold toEntries Entries.keys
  rw [List.map_append, List.map_map]
  refine own.append ?_ ?_
  · have picked := ((List.filter_sublist (l := (ofEntries scope es).shared)
      (p := fun e => !(ofEntries scope es).own.has (some e.1))).map Prod.fst).nodup shared
    have names := picked.map fun _ _ => Option.some.inj
    rwa [List.map_map] at names
  · -- A shared option is only taken if there is no own one of its name.
    intro name inOwn inShared
    obtain ⟨e, member, rfl⟩ := List.mem_map.mp inShared
    have free := (List.mem_filter.mp member).2
    have none : (ofEntries scope es).own.get? (some e.1) = none := by
      simpa [Entries.has] using free
    exact Entries.get?_eq_none_iff.mp none inOwn

section Lookup

variable {scope : String} (plain : Text.isIdentifier scope) {es : Entries String Value}

include plain

theorem get?_own_eq_lastStanding (name : String) :
    (ofEntries scope es).own.get? (some name) = lastStanding scope es name := by
  have same : ∀ e ∈ es, decide (optionPlace scope e.1 = .own (some name)) =
      standsFor scope name e.1 := by
    intro e _
    rw [Bool.eq_iff_iff, decide_eq_true_iff, optionPlace_eq_own_iff plain]
    simp only [Option.some.injEq, exists_eq_left']
  rw [get?_own_ofEntries, lastStanding, List.filter_congr same]

theorem get?_own_none : (ofEntries scope es).own.get? none = none := by
  have nameless : es.filter (fun e => optionPlace scope e.1 = .own none) = [] := by
    rw [List.filter_eq_nil_iff]
    intro e _ here
    obtain ⟨name, named, _⟩ := (optionPlace_eq_own_iff plain).mp (of_decide_eq_true here)
    cases named
  rw [get?_own_ofEntries, nameless]
  rfl

/-- What a reader finds: the last own option whose key stands for the name, or else what is under
the name itself, unless that stands for another name. -/
theorem get?_eq_some_iff (distinct : es.keys.Nodup) {name : String} {v : Value} :
    (ofEntries scope es).get? name = some v ↔
      lastStanding scope es name = some v ∨ lastStanding scope es name = none ∧
        es.get? name = some v ∧ ∀ own, standsFor scope own name = false := by
  unfold Options.get?
  rw [get?_own_eq_lastStanding plain, get?_shared_ofEntries, Entries.getLast?_filter_key distinct]
  cases lastStanding scope es name with
  | some u => simp
  | none =>
    rw [← optionPlace_eq_shared_iff plain]
    by_cases shared : optionPlace scope name = .shared
    · simp [shared]
    · simp [shared]

theorem mem_toEntries_iff {name : Option String} {v : Value} :
    (name, v) ∈ (ofEntries scope es).toEntries ↔
      ∃ s, name = some s ∧ (ofEntries scope es).get? s = some v := by
  unfold toEntries Options.get?
  rw [List.mem_append, Entries.mem_iff_get? (nodup_own_ofEntries scope es)]
  cases name with
  | none =>
    rw [get?_own_none plain]
    simp
  | some s =>
    simp only [List.mem_map, List.mem_filter, Entries.has, Prod.exists, Prod.mk.injEq,
      Option.some.injEq, exists_eq_left']
    cases own : (ofEntries scope es).own.get? (some s) with
    | some u =>
      simp only [Option.some.injEq]
      constructor
      · rintro (same | ⟨k, u', ⟨_, free⟩, rfl, rfl⟩)
        · exact same
        · rw [own] at free
          cases free
      · exact .inl
    | none =>
      simp only [reduceCtorEq, false_or]
      rw [← Entries.mem_iff_get? (nodup_shared_ofEntries scope es)]
      constructor
      · rintro ⟨k, u, ⟨member, _⟩, rfl, rfl⟩
        exact member
      · intro member
        exact ⟨s, v, ⟨member, by rw [own]; rfl⟩, rfl, rfl⟩

theorem get?_eq_lookup?_of_full (distinct : es.keys.Nodup)
    (full : ∀ key ∈ es.keys, ∀ name, standsFor scope name key → key = ownKey scope name)
    (name : String) : (ofEntries scope es).get? name = lookup? scope es name := by
  have unfiled : ∀ v, es.get? name = some v →
      ((∀ own, standsFor scope own name = false) ↔ isOwnKey scope name = false) := by
    intro v found
    have member : name ∈ es.keys := by
      by_contra absent
      rw [Entries.get?_eq_none_iff.mpr absent] at found
      cases found
    rw [← Bool.not_eq_true, isOwnKey_iff]
    constructor
    · rintro none ⟨own, ident, rfl⟩
      have stands := standsFor_ownKey ident scope
      rw [none own] at stands
      cases stands
    · intro other own
      rw [← Bool.not_eq_true]
      intro stands
      exact other ⟨own, (standsFor_iff.mp stands).1, full name member own stands⟩
  ext v
  rw [get?_eq_some_iff plain distinct, lastStanding_of_full distinct full, lookup?]
  by_cases own : (Text.isIdentifier name && es.has (ownKey scope name)) = true
  · rw [if_pos own]
    obtain ⟨ident, has⟩ := Bool.and_eq_true_iff.mp own
    obtain ⟨u, found⟩ := Option.isSome_iff_exists.mp has
    rw [if_pos ident, found]
    simp
  · rw [if_neg own]
    have none : (if Text.isIdentifier name then es.get? (ownKey scope name) else none) = none := by
      split
      case isTrue ident =>
        rw [Bool.and_eq_true_iff, not_and] at own
        simpa [Entries.has] using own ident
      case isFalse => rfl
    rw [none]
    simp only [reduceCtorEq, true_and, false_or]
    constructor
    · rintro ⟨found, free⟩
      rw [(unfiled v found).mp free]
      exact found
    · intro found
      split at found
      case isTrue => cases found
      case isFalse other =>
        exact ⟨found, (unfiled v found).mpr (Bool.not_eq_true _ ▸ other)⟩

theorem exact_of_full (distinct : es.keys.Nodup)
    (full : ∀ key ∈ es.keys, ∀ name, standsFor scope name key → key = ownKey scope name) :
    Exact scope es := by
  have same := get?_eq_lookup?_of_full plain distinct full
  refine ⟨fun name default => ?_, fun name v => ?_, fun name => ?_, fun name v => ?_,
    nodup_toEntries scope es, ?_, ?_⟩
  · unfold Options.getD
    rw [same]
  · rw [get_eq_ok_iff, same]
  · rw [get_eq_missing_iff, same]
  · simp only [mem_toEntries_iff plain, same]
  · intro key member key' member' filed place place'
    obtain ⟨name, rfl, stands⟩ := (optionPlace_eq_own_iff plain).mp place
    obtain ⟨_, named, stands'⟩ := (optionPlace_eq_own_iff plain).mp place'
    cases named
    exact (full key member name stands).trans (full key' member' name stands').symm
  · intro e member
    have listed : e.1 ∈ es.keys := List.mem_map_of_mem member
    have found : es.get? e.1 = some e.2 := (Entries.mem_iff_get? distinct).mp member
    cases place : optionPlace scope e.1 with
    | shared =>
      refine .inr (Entries.mem_of_get? ?_)
      rw [get?_shared_ofEntries, if_pos place, Entries.getLast?_filter_key distinct, found]
    | own filed =>
      obtain ⟨name, rfl, stands⟩ := (optionPlace_eq_own_iff plain).mp place
      have isFull := full e.1 listed name stands
      refine .inl ⟨name, isFull, Entries.mem_of_get? ?_⟩
      rw [get?_own_eq_lastStanding plain, lastStanding_of_full distinct full,
        if_pos (standsFor_iff.mp stands).1, ← isFull, found]

/-- A key that stands for a name without being its full key is not found under itself, although
exact lookup finds it there. -/
theorem full_of_exact (distinct : es.keys.Nodup) (exact : Exact scope es) :
    ∀ key ∈ es.keys, ∀ name, standsFor scope name key → key = ownKey scope name := by
  intro key member name stands
  by_contra other
  obtain ⟨notName, notOwn⟩ := not_own_of_standsFor stands other
  obtain ⟨v, found⟩ : ∃ v, es.get? key = some v := by
    rw [← Option.ne_none_iff_exists']
    exact fun none => Entries.get?_eq_none_iff.mp none member
  have sought : lookup? scope es key = some v := by
    rw [lookup?, notName, notOwn]
    exact found
  have there := get_eq_ok_iff.mp ((exact.get key v).mpr sought)
  rcases (get?_eq_some_iff plain distinct).mp there with own | ⟨_, _, free⟩
  · rw [lastStanding_of_not_identifier es notName] at own
    cases own
  · rw [free name] at stands
    cases stands

/-- What a reader of a scope finds, and when it looks up exactly. It finds the last own option whose
key stands for the name, or else the shared option of the name. This is the exact lookup, with no
value lost, if and only if every key that stands for a name is the full key of that name. -/
theorem exact_iff_full (distinct : es.keys.Nodup) :
    (∀ name v, (ofEntries scope es).get? name = some v ↔
      lastStanding scope es name = some v ∨ lastStanding scope es name = none ∧
        es.get? name = some v ∧ ∀ own, standsFor scope own name = false) ∧
    (Exact scope es ↔
      ∀ key ∈ es.keys, ∀ name, standsFor scope name key → key = ownKey scope name) :=
  ⟨fun _ _ => get?_eq_some_iff plain distinct,
    full_of_exact plain distinct, exact_of_full plain distinct⟩

end Lookup

/-- An own option, a shared one of the same name, and another shared one. -/
def plainOptions : Entries String Value := [("ns__x", .int 1), ("x", .int 0), ("y", .int 2)]

theorem exact_iff_full_plainOptions :
    Text.isIdentifier "ns" ∧ plainOptions.keys.Nodup ∧ Exact "ns" plainOptions := by
  have plain : Text.isIdentifier "ns" := by decide
  have distinct : plainOptions.keys.Nodup := by decide
  refine ⟨plain, distinct, (exact_iff_full plain distinct).2.mpr ?_⟩
  intro key member name stands
  have place := (optionPlace_eq_own_iff plain).mpr ⟨name, rfl, stands⟩
  have listed : key = "ns__x" ∨ key = "x" ∨ key = "y" := by
    simpa [plainOptions, Entries.keys] using member
  rcases listed with rfl | rfl | rfl
  · have isX : optionPlace "ns" "ns__x" = .own (some "x") := by decide
    cases isX.symm.trans place
    rfl
  · have shared : optionPlace "ns" "x" = .shared := by decide
    cases shared.symm.trans place
  · have shared : optionPlace "ns" "y" = .shared := by decide
    cases shared.symm.trans place

/-- The value under `ns__x-y` hides that of the option `x`, which is lost, and it is not found under
its own key. -/
theorem trailing_key_hides_option :
    let es : Entries String Value := [("ns__x", .int 1), ("ns__x-y", .int 2)]
    Text.isIdentifier "ns" ∧
      optionPlace "ns" "ns__x" = .own (some "x") ∧ optionPlace "ns" "ns__x-y" = .own (some "x") ∧
      lookup? "ns" es "x" = some (.int 1) ∧ (ofEntries "ns" es).get? "x" = some (.int 2) ∧
      lookup? "ns" es "ns__x-y" = some (.int 2) ∧
      (ofEntries "ns" es).get "ns__x-y" = .error (.missing "ns__x-y") ∧
      (ofEntries "ns" es).toEntries = [(some "x", .int 2)] := by
  exact ⟨by decide, by decide, by decide, rfl, rfl, rfl, rfl, rfl⟩

end Options

end TensorEmit
