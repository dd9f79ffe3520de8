import Mathlib.Data.List.Basic
import TensorEmit.TensorName

/-!
# Texts

Splitting a text loses nothing: the parts with the separator between them are the text again, so
texts with the same parts are equal. A decimal number is read as itself. A text that ends in one has
no zero character at its end; the names of tensors in a graph file are such texts.
-/

namespace TensorEmit.Text

/-! ## Splitting -/

theorem splitChars_ne_nil (sep cs part : List Char) (skip : Nat) :
    splitChars sep cs part skip ≠ [] := by
  induction cs generalizing part skip with
  | nil => simp [splitChars]
  | cons c cs ih =>
    cases skip with
    | succ skip =>
      rw [splitChars]
      exact ih part skip
    | zero =>
      rw [splitChars]
      split
      · simp
      · exact ih (c :: part) 0

/-- The parts with the separator between them are what was split. -/
theorem intercalate_splitChars {sep : List Char} (some : sep ≠ []) (cs part : List Char)
    (skip : Nat) :
    sep.intercalate (splitChars sep cs part skip) = part.reverse ++ cs.drop skip := by
  induction cs generalizing part skip with
  | nil => simp [splitChars]
  | cons c cs ih =>
    cases skip with
    | succ skip =>
      rw [splitChars, ih, List.drop_succ_cons]
    | zero =>
      rw [splitChars]
      split
      case isTrue starts =>
        -- The separator is passed character by character, and nothing of it is kept.
        obtain ⟨rest, parts⟩ := List.isPrefixOf_iff_prefix.mp starts
        obtain ⟨s, sep, rfl⟩ := List.exists_cons_of_ne_nil some
        rw [List.cons_append, List.cons.injEq] at parts
        obtain ⟨rfl, rfl⟩ := parts
        rw [List.intercalate_cons_of_ne_nil (splitChars_ne_nil _ _ _ _), ih]
        simp
      case isFalse =>
        rw [ih]
        simp

/-- The parts of a text with the separator between them are the text. -/
theorem intercalate_splitAt {sep : String} (some : sep ≠ "") (s : String) :
    sep.intercalate (splitAt sep s) = s := by
  have separates : sep.toList ≠ [] := by
    intro none
    exact some (String.toList_injective none)
  refine String.toList_injective ?_
  rw [String.toList_intercalate, splitAt, List.map_map]
  simp only [Function.comp_def, String.toList_ofList, List.map_id']
  rw [intercalate_splitChars separates]
  rfl

/-- Texts with the same parts are equal. -/
theorem splitAt_injective {sep a b : String} (some : sep ≠ "")
    (same : splitAt sep a = splitAt sep b) : a = b := by
  rw [← intercalate_splitAt some a, same, intercalate_splitAt some]

/-- What has no separator in it is one part. -/
theorem splitChars_of_not_mem {sep : Char} {cs : List Char} (absent : sep ∉ cs)
    (part : List Char) : splitChars [sep] cs part 0 = [part.reverse ++ cs] := by
  induction cs generalizing part with
  | nil => simp [splitChars]
  | cons c cs ih =>
    rw [List.mem_cons, not_or] at absent
    rw [splitChars, if_neg (by simpa using absent.1), ih absent.2]
    simp

/-- The first separator ends the first part. -/
theorem splitChars_append {sep : Char} {front : List Char} (absent : sep ∉ front)
    (part rest : List Char) :
    splitChars [sep] (front ++ sep :: rest) part 0 =
      (part.reverse ++ front) :: splitChars [sep] rest [] 0 := by
  induction front generalizing part with
  | nil => simp [splitChars]
  | cons c front ih =>
    rw [List.mem_cons, not_or] at absent
    rw [List.cons_append, splitChars, if_neg (by simpa using absent.1), ih absent.2]
    simp

/-- No part has a separator in it. -/
theorem not_mem_of_mem_splitChars {sep : Char} {cs part piece : List Char} (absent : sep ∉ part)
    (member : piece ∈ splitChars [sep] cs part 0) : sep ∉ piece := by
  induction cs generalizing part with
  | nil =>
    rw [splitChars, List.mem_singleton] at member
    rw [member, List.mem_reverse]
    exact absent
  | cons c cs ih =>
    rw [splitChars] at member
    split at member
    · rcases List.mem_cons.mp member with rfl | later
      · rw [List.mem_reverse]
        exact absent
      · exact ih List.not_mem_nil later
    case isFalse other =>
      refine ih ?_ member
      rw [List.mem_cons, not_or]
      exact ⟨by simpa using other, absent⟩

/-- There is one part more than there are separators. -/
theorem length_splitChars (sep : Char) (cs part : List Char) :
    (splitChars [sep] cs part 0).length = cs.count sep + 1 := by
  induction cs generalizing part with
  | nil => rfl
  | cons c cs ih =>
    rw [splitChars]
    split
    case isTrue starts =>
      have here : sep = c := by simpa using starts
      rw [List.length_cons, here, List.count_cons_self, ← here]
      exact congrArg (· + 1) (ih [])
    case isFalse other =>
      have differs : c ≠ sep := by
        rintro rfl
        simp at other
      rw [ih, List.count_cons_of_ne differs]

/-! ## Numbers -/

theorem toNat_of_isDigit {c : Char} (digit : c.isDigit) : 48 ≤ c.toNat ∧ c.toNat ≤ 57 := by
  simp only [Char.isDigit, Bool.and_eq_true, decide_eq_true_eq, UInt32.le_iff_toNat_le] at digit
  exact digit

theorem digitValue?_of_isDigit {c : Char} (digit : c.isDigit) :
    digitValue? c = some (c.toNat - 48) := by
  have small : c.toNat < 0x80 := Nat.lt_of_le_of_lt (toNat_of_isDigit digit).2 (by decide)
  unfold digitValue?
  simp [small, digit]

theorem trimBlanks_of_digits {cs : List Char} (digits : ∀ c ∈ cs, c.isDigit) :
    trimBlanks cs = cs := by
  have kept : ∀ cs : List Char, (∀ c ∈ cs, c.isDigit) → cs.dropWhile isBlank = cs := by
    intro cs digits
    cases cs with
    | nil => rfl
    | cons c cs =>
      obtain ⟨low, high⟩ := toNat_of_isDigit (digits c (by simp))
      refine List.dropWhile_cons_of_neg ?_
      simp [isBlank, inRanges]
      omega
  unfold trimBlanks
  rw [kept cs digits, kept cs.reverse fun c member => digits c (List.mem_reverse.mp member),
    List.reverse_reverse]

theorem readDigits_cons {c : Char} (digit : c.isDigit) (cs : List Char) (acc count : Nat)
    (afterDigit : Bool) :
    readDigits (c :: cs) acc count afterDigit =
      readDigits cs (10 * acc + (c.toNat - 48)) (count + 1) true := by
  have noLine : c ≠ '_' := by
    rintro rfl
    cases digit
  rw [readDigits, if_neg noLine, digitValue?_of_isDigit digit]

/-- Digits are read as the number they write. -/
theorem readDigits_of_digits {c : Char} {cs : List Char} (digits : ∀ d ∈ c :: cs, d.isDigit)
    (acc count : Nat) (afterDigit : Bool) :
    readDigits (c :: cs) acc count afterDigit =
      some (Nat.ofDigitChars 10 (c :: cs) acc, count + (c :: cs).length) := by
  induction cs generalizing c acc count afterDigit with
  | nil =>
    rw [readDigits_cons (digits c (by simp))]
    rfl
  | cons d cs ih =>
    have later : ∀ e ∈ d :: cs, e.isDigit := fun e member =>
      digits e (List.mem_cons_of_mem c member)
    rw [readDigits_cons (digits c (by simp)), ih later, Nat.ofDigitChars_cons (c := c)]
    simp [Nat.add_assoc, Nat.add_comm 1]

theorem eq_of_readNat? {cs : List Char} {n : Nat} (digits : ∀ c ∈ cs, c.isDigit)
    (read : readNat? cs = some n) : n = Nat.ofDigitChars 10 cs 0 := by
  unfold readNat? at read
  cases cs with
  | nil => cases read
  | cons c cs =>
    rw [readDigits_of_digits digits] at read
    dsimp only at read
    split at read
    · exact (Option.some.inj read).symm
    · cases read

theorem toList_decimal (n : Nat) : (toString n).toList = Nat.toDigits 10 n := by
  rw [Nat.toString_eq_repr, Nat.toList_repr]

theorem isDigit_of_mem_decimal {n : Nat} {c : Char} (member : c ∈ (toString n).toList) :
    c.isDigit := by
  rw [toList_decimal] at member
  exact Nat.isDigit_of_mem_toDigits (b := 10) (by decide) (by decide) member

/-- A decimal number is read as itself, if it is not too long to be read. -/
theorem eq_of_readInt?_decimal {n : Nat} {i : Int} (read : readInt? (toString n) = some i) :
    i = n := by
  have digits : ∀ c ∈ (toString n).toList, c.isDigit := fun c => isDigit_of_mem_decimal
  unfold readInt? at read
  rw [trimBlanks_of_digits digits] at read
  split at read
  case h_1 _ parts => cases digits '-' (by rw [parts]; exact List.mem_cons_self)
  case h_2 _ parts => cases digits '+' (by rw [parts]; exact List.mem_cons_self)
  case h_3 =>
    obtain ⟨_, lifted, rfl⟩ := Option.map_eq_some_iff.mp read
    obtain ⟨m, found, made⟩ := Option.bind_eq_some_iff.mp lifted
    cases made
    rw [eq_of_readNat? digits found, toList_decimal, Nat.ofDigitChars_ten_toDigits]

/-! ## Zero characters at the end -/

/-- Whether a text has no zero character at its end. -/
def Unpadded (s : String) : Prop := trimRight '\x00' s = s

/-- A text that ends in a decimal number has no zero character at its end. -/
theorem unpadded_append_decimal (s : String) (n : Nat) : Unpadded (s ++ toString n) := by
  have some : (toString n).toList ≠ [] := by
    rw [toList_decimal]
    exact Nat.toDigits_ne_nil
  obtain ⟨front, last, parts⟩ := (List.eq_nil_or_concat (toString n).toList).resolve_left some
  have notZero : last ≠ '\x00' := by
    rintro rfl
    cases isDigit_of_mem_decimal (n := n) (c := '\x00') (by rw [parts]; simp)
  unfold Unpadded trimRight
  rw [String.toList_append, parts, List.concat_eq_append, ← List.append_assoc,
    List.reverse_append, List.reverse_singleton, List.singleton_append,
    List.dropWhile_cons_of_neg (by simpa using notZero), List.reverse_cons, List.reverse_reverse]
  refine String.toList_injective ?_
  rw [String.toList_ofList, String.toList_append, parts, List.concat_eq_append,
    List.append_assoc]

/-! ## Joined texts -/

theorem mem_intercalate {sep : List Char} {gs : List (List Char)} {c : Char}
    (member : c ∈ sep.intercalate gs) : c ∈ sep ∨ ∃ g ∈ gs, c ∈ g := by
  induction gs with
  | nil => simp at member
  | cons g gs ih =>
    cases gs with
    | nil => exact .inr ⟨g, by simp, by simpa using member⟩
    | cons h gs =>
      rw [List.intercalate_cons_cons, List.mem_append, List.mem_append] at member
      rcases member with (here | sep) | later
      · exact .inr ⟨g, by simp, here⟩
      · exact .inl sep
      · rcases ih later with sep | ⟨k, listed, inside⟩
        · exact .inl sep
        · exact .inr ⟨k, List.mem_cons_of_mem g listed, inside⟩

end TensorEmit.Text
