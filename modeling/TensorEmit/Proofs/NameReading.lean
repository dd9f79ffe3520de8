import TensorEmit.Proofs.Export

/-!
# Reading names

The name of an operation, a colon and a place make the name of a tensor, and reading this name gives
both back. A place is read if and only if it is written as a numeral: a sign and groups of digits
with single low lines between them, inside blanks, and no more digits than can be read
(`Text.readInt?_eq_some_iff`). A name is refused if and only if it has two colons, or one that no
such numeral follows (`TensorName.names_read_back`).
-/

namespace TensorEmit

namespace Text

/-! ## Numerals -/

/-- The sign of a numeral, if it has one. -/
inductive Sign where
  | none | plus | minus
  deriving DecidableEq, Repr

/-- A sign as it is written. -/
def Sign.chars : Sign → List Char
  | none => []
  | plus => ['+']
  | minus => ['-']

/-- A number with a sign. -/
def Sign.apply : Sign → Nat → Int
  | minus, n => -n
  | _, n => n

/-- The number that digits write if the number `acc` is written in front of them. -/
def digitsValue (acc : Nat) (cs : List Char) : Nat :=
  cs.foldl (fun n c => 10 * n + (digitValue? c).getD 0) acc

/-- A whole number as it may be written. -/
structure Numeral where
  before : List Char
  sign : Sign
  /-- The digits between the low lines. -/
  groups : List (List Char)
  after : List Char
  blankBefore : ∀ c ∈ before, isBlank c
  blankAfter : ∀ c ∈ after, isBlank c
  grouped : groups ≠ []
  filled : ∀ g ∈ groups, g ≠ []
  digital : ∀ g ∈ groups, ∀ c ∈ g, isDecimalDigit c

namespace Numeral

/-- The digits of a numeral. -/
def digits (w : Numeral) : List Char := w.groups.flatten

/-- A numeral without the blanks around it. -/
def core (w : Numeral) : List Char := w.sign.chars ++ ['_'].intercalate w.groups

/-- A numeral as it is written. -/
def chars (w : Numeral) : List Char := w.before ++ w.core ++ w.after

/-- The number that a numeral writes. -/
def value (w : Numeral) : Int := w.sign.apply (digitsValue 0 w.digits)

end Numeral

/-! ## Digits -/

theorem isDecimalDigit_of_isDigit {c : Char} (digit : c.isDigit) : isDecimalDigit c := by
  unfold isDecimalDigit
  rw [digitValue?_of_isDigit digit]
  rfl

theorem digitsValue_append (acc : Nat) (g h : List Char) :
    digitsValue acc (g ++ h) = digitsValue (digitsValue acc g) h :=
  List.foldl_append

/-- Ordinary digits write the number they always write. -/
theorem digitsValue_of_digits {cs : List Char} (digits : ∀ c ∈ cs, c.isDigit) (acc : Nat) :
    digitsValue acc cs = Nat.ofDigitChars 10 cs acc := by
  induction cs generalizing acc with
  | nil => rfl
  | cons c cs ih =>
    have later := ih (fun d member => digits d (List.mem_cons_of_mem c member))
      (10 * acc + (c.toNat - 48))
    rw [Nat.ofDigitChars_cons (c := c), digitsValue, List.foldl_cons,
      digitValue?_of_isDigit (digits c (by simp))]
    exact later

/-- A digit is counted and goes behind the digits before it. -/
theorem readDigits_digit {c : Char} (digit : isDecimalDigit c) (cs : List Char) (acc count : Nat)
    (afterDigit : Bool) :
    readDigits (c :: cs) acc count afterDigit =
      readDigits cs (digitsValue acc [c]) (count + 1) true := by
  have noLine : c ≠ '_' := by
    rintro rfl
    exact absurd digit (by decide)
  obtain ⟨d, found⟩ := Option.isSome_iff_exists.mp digit
  rw [readDigits, if_neg noLine, found]
  simp [digitsValue, found]

/-- A group of digits is read digit by digit. -/
theorem readDigits_append {g : List Char} (digital : ∀ c ∈ g, isDecimalDigit c)
    (rest : List Char) (acc count : Nat) (afterDigit : Bool) :
    readDigits (g ++ rest) acc count afterDigit =
      readDigits rest (digitsValue acc g) (count + g.length) (afterDigit || !g.isEmpty) := by
  induction g generalizing acc count afterDigit with
  | nil => simp [digitsValue]
  | cons c g ih =>
    rw [List.cons_append, readDigits_digit (digital c (by simp)),
      ih fun d member => digital d (List.mem_cons_of_mem c member), List.length_cons,
      Nat.add_assoc, Nat.add_comm 1, ← digitsValue_append]
    simp

/-- Groups of digits are read as the number that all their digits write. The first group may be the
rest of one whose start was read before. -/
theorem readDigits_groups {g : List Char} {gs : List (List Char)}
    (digital : ∀ h ∈ g :: gs, ∀ c ∈ h, isDecimalDigit c) (filled : ∀ h ∈ gs, h ≠ [])
    (acc count : Nat) {afterDigit : Bool} (started : afterDigit = true ∨ g ≠ []) :
    readDigits (['_'].intercalate (g :: gs)) acc count afterDigit =
      some (digitsValue acc (g :: gs).flatten, count + (g :: gs).flatten.length) := by
  have read : (afterDigit || !g.isEmpty) = true := by
    simpa using started
  induction gs generalizing g acc count afterDigit with
  | nil =>
    have whole := readDigits_append (digital g (by simp)) [] acc count afterDigit
    rw [read, List.append_nil] at whole
    simpa [readDigits] using whole
  | cons h gs ih =>
    have later : ∀ k ∈ h :: gs, ∀ c ∈ k, isDecimalDigit c := fun k member =>
      digital k (List.mem_cons_of_mem g member)
    have next : h ≠ [] := filled h (by simp)
    rw [List.intercalate_cons_of_ne_nil (by simp), List.append_assoc,
      readDigits_append (digital g (by simp)), read, List.singleton_append, readDigits, if_pos rfl,
      if_pos rfl, ih later (fun k member => filled k (List.mem_cons_of_mem h member)) _ _
        (.inr next) (by simpa using next), ← digitsValue_append, Nat.add_assoc,
      ← List.length_append, ← List.flatten_cons]

/-- What is read are groups of digits. -/
theorem groups_of_readDigits {cs : List Char} {acc count n k : Nat} {afterDigit : Bool}
    (run : readDigits cs acc count afterDigit = some (n, k)) :
    ∃ g gs, cs = ['_'].intercalate (g :: gs) ∧ (∀ h ∈ g :: gs, ∀ c ∈ h, isDecimalDigit c) ∧
      (∀ h ∈ gs, h ≠ []) ∧ (afterDigit = true ∨ g ≠ []) := by
  induction cs generalizing acc count afterDigit with
  | nil =>
    rw [readDigits] at run
    split at run
    case isTrue after => exact ⟨[], [], by simp, by simp, by simp, .inl after⟩
    case isFalse => cases run
  | cons c cs ih =>
    rw [readDigits] at run
    split at run
    case isTrue line =>
      split at run
      case isTrue after =>
        obtain ⟨g, gs, rfl, digital, filled, started⟩ := ih run
        have some : g ≠ [] := started.resolve_left (by simp)
        refine ⟨[], g :: gs, ?_, ?_, ?_, .inl after⟩
        · rw [List.intercalate_cons_cons, line]
          rfl
        · simpa using digital
        · simpa [some] using filled
      case isFalse => cases run
    case isFalse =>
      split at run
      case h_1 d found =>
        obtain ⟨g, gs, rfl, digital, filled, -⟩ := ih run
        refine ⟨c :: g, gs, ?_, ?_, filled, .inr (by simp)⟩
        · rw [List.intercalate_cons_cons_left]
        · have digit : isDecimalDigit c := by
            unfold isDecimalDigit
            rw [found]
            rfl
          simpa [digit] using digital
      case h_2 => cases run

/-! ## Blanks -/

/-- Of ranges that lie apart, a number is not in both. -/
theorem not_inRanges_of_apart {rs rs' : List (Nat × Nat)} {n : Nat}
    (apart : ∀ r ∈ rs, ∀ r' ∈ rs', r.2 < r'.1 ∨ r'.2 < r.1) (inside : inRanges rs n) :
    inRanges rs' n = false := by
  unfold inRanges at inside ⊢
  obtain ⟨r, listed, bounds⟩ := List.any_eq_true.mp inside
  rw [List.any_eq_false]
  intro r' listed'
  have sides := apart r listed r' listed'
  simp only [Bool.and_eq_true, decide_eq_true_eq] at bounds ⊢
  omega

theorem not_isBlank_of_isDecimalDigit {c : Char} (digit : isDecimalDigit c) :
    isBlank c = false := by
  unfold isDecimalDigit digitValue? at digit
  dsimp only at digit
  split at digit
  case isTrue small =>
    have ordinary : c.isDigit := by
      by_contra other
      rw [if_neg other] at digit
      cases digit
    obtain ⟨low, high⟩ := toNat_of_isDigit ordinary
    simp [isBlank, inRanges]
    omega
  case isFalse large =>
    rw [Option.isSome_map, List.find?_isSome] at digit
    have inside : inRanges digitRanges c.toNat := List.any_eq_true.mpr digit
    unfold isBlank
    dsimp only
    rw [not_inRanges_of_apart (by decide) inside]
    simp
    omega

/-- What is put between blanks is what trimming leaves. -/
theorem trimBlanks_padded {before core after : List Char} (blankBefore : ∀ c ∈ before, isBlank c)
    (blankAfter : ∀ c ∈ after, isBlank c) (some : core ≠ [])
    (solid : ∀ c ∈ core, isBlank c = false) : trimBlanks (before ++ core ++ after) = core := by
  have front : (core ++ after).dropWhile isBlank = core ++ after := by
    obtain ⟨c, cs, rfl⟩ := List.exists_cons_of_ne_nil some
    exact List.dropWhile_cons_of_neg (by simp [solid c (by simp)])
  have back : core.reverse.dropWhile isBlank = core.reverse := by
    obtain ⟨c, cs, parts⟩ := List.exists_cons_of_ne_nil (List.reverse_ne_nil_iff.mpr some)
    have member : c ∈ core := by
      rw [← List.mem_reverse, parts]
      simp
    rw [parts]
    exact List.dropWhile_cons_of_neg (by simp [solid c member])
  unfold trimBlanks
  rw [List.append_assoc, List.dropWhile_append_of_pos blankBefore, front, List.reverse_append,
    List.dropWhile_append_of_pos fun c member => blankAfter c (List.mem_reverse.mp member), back,
    List.reverse_reverse]

/-- Trimming takes away blanks only. -/
theorem exists_padding (cs : List Char) :
    ∃ before after, cs = before ++ trimBlanks cs ++ after ∧ (∀ c ∈ before, isBlank c) ∧
      ∀ c ∈ after, isBlank c := by
  refine ⟨cs.takeWhile isBlank, ((cs.dropWhile isBlank).reverse.takeWhile isBlank).reverse, ?_,
    List.all_eq_true.mp List.all_takeWhile,
    fun c member => List.all_eq_true.mp List.all_takeWhile c (List.mem_reverse.mp member)⟩
  unfold trimBlanks
  rw [List.append_assoc, ← List.reverse_append, List.takeWhile_append_dropWhile,
    List.reverse_reverse, List.takeWhile_append_dropWhile]

/-! ## Reading numerals -/

namespace Numeral

variable (w : Numeral)

/-- A numeral starts with a digit behind its sign. -/
theorem intercalate_groups_eq_cons :
    ∃ c cs, ['_'].intercalate w.groups = c :: cs ∧ isDecimalDigit c := by
  obtain ⟨g, gs, parts⟩ := List.exists_cons_of_ne_nil w.grouped
  obtain ⟨c, cs, rfl⟩ := List.exists_cons_of_ne_nil (w.filled g (by rw [parts]; simp))
  have digit := w.digital (c :: cs) (by rw [parts]; simp) c (by simp)
  rw [parts, List.intercalate_cons_cons_left]
  exact ⟨c, _, rfl, digit⟩

theorem trimBlanks_chars : trimBlanks w.chars = w.core := by
  refine trimBlanks_padded w.blankBefore w.blankAfter ?_ fun c member => ?_
  · obtain ⟨c, cs, parts, -⟩ := w.intercalate_groups_eq_cons
    unfold core
    rw [parts]
    simp
  · rcases List.mem_append.mp member with sign | inside
    · have signs : ∀ s : Sign, ∀ c ∈ s.chars, isBlank c = false := by
        intro s
        cases s <;> simp [Sign.chars, isBlank, inRanges]
      exact signs w.sign c sign
    · rcases mem_intercalate inside with line | ⟨g, listed, digit⟩
      · rw [List.mem_singleton.mp line]
        decide
      · exact not_isBlank_of_isDecimalDigit (w.digital g listed c digit)

/-- The digits of a numeral are read as their number, unless there are too many of them. -/
theorem readNat?_groups :
    readNat? (['_'].intercalate w.groups) =
      if w.digits.length ≤ maxDigits then some (digitsValue 0 w.digits) else none := by
  obtain ⟨g, gs, parts⟩ := List.exists_cons_of_ne_nil w.grouped
  have digital := w.digital
  have filled := w.filled
  unfold digits
  rw [parts] at digital filled ⊢
  unfold readNat?
  rw [readDigits_groups digital (fun h member => filled h (List.mem_cons_of_mem g member)) 0 0
    (.inr (filled g (by simp)))]
  simp only [Nat.zero_add]

end Numeral

/-- The sign is taken off before the digits are read. -/
theorem readInt?_of_trimmed {s : String} {sign : Sign} {c : Char} {cs : List Char}
    (trimmed : trimBlanks s.toList = sign.chars ++ c :: cs) (digit : isDecimalDigit c) :
    readInt? s = (readNat? (c :: cs)).map sign.apply := by
  unfold readInt?
  rw [trimmed]
  cases sign with
  | plus =>
    change Option.map _ (do let a ← readNat? (c :: cs); pure (a : Int)) = _
    cases readNat? (c :: cs) <;> rfl
  | minus =>
    change Option.map _ (do let a ← readNat? (c :: cs); pure (a : Int)) = _
    cases readNat? (c :: cs) <;> rfl
  | none =>
    -- A digit is not taken for a sign.
    split
    case h_1 parts =>
      cases parts
      exact absurd digit (by decide)
    case h_2 parts =>
      cases parts
      exact absurd digit (by decide)
    case h_3 =>
      change Option.map _ (do let a ← readNat? (c :: cs); pure (a : Int)) = _
      cases readNat? (c :: cs) <;> rfl

/-- A numeral is read as its number, unless it has too many digits. -/
theorem Numeral.readInt?_chars (w : Numeral) {s : String} (written : w.chars = s.toList) :
    readInt? s = if w.digits.length ≤ maxDigits then some w.value else none := by
  obtain ⟨c, cs, parts, digit⟩ := w.intercalate_groups_eq_cons
  have trimmed : trimBlanks s.toList = w.sign.chars ++ c :: cs := by
    rw [← written, w.trimBlanks_chars, core, parts]
  rw [readInt?_of_trimmed trimmed digit, ← parts, w.readNat?_groups]
  split <;> rfl

/-- What is read without a sign are groups of digits. -/
theorem groups_of_readNat? {cs : List Char} {n : Nat} (run : readNat? cs = some n) :
    ∃ groups, cs = ['_'].intercalate groups ∧ groups ≠ [] ∧ (∀ g ∈ groups, g ≠ []) ∧
      ∀ g ∈ groups, ∀ c ∈ g, isDecimalDigit c := by
  unfold readNat? at run
  split at run
  case h_1 m count found =>
    obtain ⟨g, gs, rfl, digital, filled, started⟩ := groups_of_readDigits found
    have first : g ≠ [] := started.resolve_left (by simp)
    exact ⟨g :: gs, rfl, by simp, by simpa [first] using filled, digital⟩
  case h_2 => cases run

/-- Only numerals are read. -/
theorem exists_numeral {s : String} {i : Int} (run : readInt? s = some i) :
    ∃ w : Numeral, w.chars = s.toList := by
  obtain ⟨before, after, whole, blankBefore, blankAfter⟩ := exists_padding s.toList
  have written : ∀ (sign : Sign) (cs : List Char), trimBlanks s.toList = sign.chars ++ cs →
      readNat? cs ≠ none → ∃ w : Numeral, w.chars = s.toList := by
    intro sign cs parts read
    obtain ⟨n, found⟩ := Option.ne_none_iff_exists'.mp read
    obtain ⟨groups, rfl, some, filled, digital⟩ := groups_of_readNat? found
    refine ⟨⟨before, sign, groups, after, blankBefore, blankAfter, some, filled, digital⟩, ?_⟩
    rw [whole, parts]
    rfl
  unfold readInt? at run
  split at run
  case h_1 cs parts =>
    refine written .minus cs parts fun none => ?_
    rw [none] at run
    cases run
  case h_2 cs parts =>
    refine written .plus cs parts fun none => ?_
    rw [none] at run
    cases run
  case h_3 =>
    refine written .none (trimBlanks s.toList) rfl fun none => ?_
    rw [none] at run
    cases run

/-- A text is read as a number if and only if it is a numeral of that number with no more digits
than can be read. -/
theorem readInt?_eq_some_iff {s : String} {i : Int} :
    readInt? s = some i ↔
      ∃ w : Numeral, w.chars = s.toList ∧ w.digits.length ≤ maxDigits ∧ w.value = i := by
  constructor
  · intro run
    obtain ⟨w, written⟩ := exists_numeral run
    rw [w.readInt?_chars written] at run
    split at run
    case isTrue short => exact ⟨w, written, short, Option.some.inj run⟩
    case isFalse => cases run
  · rintro ⟨w, written, short, rfl⟩
    rw [w.readInt?_chars written, if_pos short]

/-! ## Decimal numbers -/

/-- The numeral that shows a whole number. -/
def Numeral.ofInt (i : Int) : Numeral where
  before := []
  sign := if i < 0 then .minus else .none
  groups := [Nat.toDigits 10 i.natAbs]
  after := []
  blankBefore := by simp
  blankAfter := by simp
  grouped := by simp
  filled := by
    simp only [List.mem_singleton, forall_eq]
    exact Nat.toDigits_ne_nil
  digital := by
    simp only [List.mem_singleton, forall_eq]
    intro c member
    rw [← toList_decimal] at member
    exact isDecimalDigit_of_isDigit (isDigit_of_mem_decimal member)

theorem Numeral.chars_ofInt (i : Int) : (ofInt i).chars = (toString i).toList := by
  have digits : (ofInt i).chars = (ofInt i).sign.chars ++ (toString i.natAbs).toList := by
    rw [toList_decimal]
    simp [chars, core, ofInt]
  rw [digits]
  cases i with
  | ofNat n => rfl
  | negSucc n =>
    change _ = ("-" ++ toString (n + 1)).toList
    have sign : (ofInt (Int.negSucc n)).sign = .minus := if_pos (Int.negSucc_lt_zero n)
    rw [sign, String.toList_append]
    rfl

theorem Numeral.length_digits_ofInt (i : Int) :
    (ofInt i).digits.length = (toString i.natAbs).length := by
  rw [← String.length_toList, toList_decimal]
  simp [digits, ofInt]

theorem Numeral.value_ofInt (i : Int) : (ofInt i).value = i := by
  have digits : ∀ c ∈ Nat.toDigits 10 i.natAbs, c.isDigit := by
    intro c member
    rw [← toList_decimal] at member
    exact isDigit_of_mem_decimal member
  have number : digitsValue 0 (ofInt i).digits = i.natAbs := by
    have flat : (ofInt i).digits = Nat.toDigits 10 i.natAbs := by simp [Numeral.digits, ofInt]
    rw [flat, digitsValue_of_digits digits, Nat.ofDigitChars_ten_toDigits]
  unfold value
  rw [number]
  by_cases negative : i < 0
  · simp only [ofInt, if_pos negative, Sign.apply]
    omega
  · simp only [ofInt, if_neg negative, Sign.apply]
    omega

/-- A decimal number is read back if it has no more digits than can be read. -/
theorem readInt?_decimal (i : Int) :
    readInt? (toString i) =
      if (toString i.natAbs).length ≤ maxDigits then some i else none := by
  rw [(Numeral.ofInt i).readInt?_chars (Numeral.chars_ofInt i), Numeral.length_digits_ofInt,
    Numeral.value_ofInt]

end Text

/-! ## Names -/

namespace TensorName

/-- A text is a place that can be read: a numeral with no more digits than can be read. -/
def IsPlace (s : String) : Prop :=
  ∃ w : Text.Numeral, w.chars = s.toList ∧ w.digits.length ≤ Text.maxDigits

theorem isPlace_iff {s : String} : IsPlace s ↔ Text.readInt? s ≠ none := by
  rw [Option.ne_none_iff_exists']
  simp only [Text.readInt?_eq_some_iff]
  constructor
  · rintro ⟨w, written, short⟩
    exact ⟨w.value, w, written, short, rfl⟩
  · rintro ⟨_, w, written, short, -⟩
    exact ⟨w, written, short⟩

/-- A text has no colon, one colon or several. -/
theorem cases_of_colons (s : String) :
    ':' ∉ s.toList ∨
    (∃ left right, s = left ++ ":" ++ right ∧ ':' ∉ left.toList ∧ ':' ∉ right.toList) ∨
    2 ≤ s.toList.count ':' := by
  by_cases colon : ':' ∈ s.toList
  · obtain ⟨left, right, parts, leftFree⟩ := List.eq_append_cons_of_mem colon
    refine .inr ?_
    by_cases again : ':' ∈ right
    · refine .inr ?_
      have more : 0 < right.count ':' := List.count_pos_iff.mpr again
      rw [parts, List.count_append, List.count_cons_self]
      omega
    · refine .inl ⟨String.ofList left, String.ofList right, String.toList_injective ?_, ?_, ?_⟩
      · rw [parts]
        simp
      · rwa [String.toList_ofList]
      · rwa [String.toList_ofList]
  · exact .inl colon

theorem parse_of_no_colon {s : String} (free : ':' ∉ s.toList) :
    parse s = .ok ⟨dropControlMark s, 0⟩ := by
  have parts : Text.splitAt ":" s = [s] := by
    unfold Text.splitAt
    change (Text.splitChars [':'] s.toList [] 0).map String.ofList = _
    rw [Text.splitChars_of_not_mem free]
    simp
  unfold parse
  rw [parts]

theorem parse_of_one_colon {left right : String} (leftFree : ':' ∉ left.toList)
    (rightFree : ':' ∉ right.toList) :
    parse (left ++ ":" ++ right) =
      (Text.readInt? right).elim (.error (.badOutputIndex (left ++ ":" ++ right)))
        fun i => .ok ⟨dropControlMark left, i⟩ := by
  unfold parse
  rw [splitAt_of_one_colon leftFree rightFree]
  dsimp only
  cases Text.readInt? right <;> rfl

theorem parse_of_colons {s : String} (several : 2 ≤ s.toList.count ':') :
    parse s = .error (.badTensorName s) := by
  have length : (Text.splitAt ":" s).length = s.toList.count ':' + 1 := by
    unfold Text.splitAt
    rw [List.length_map]
    exact Text.length_splitChars ':' s.toList []
  unfold parse
  split
  case h_1 parts =>
    rw [parts, List.length_singleton] at length
    omega
  case h_2 parts =>
    rw [parts, List.length_cons, List.length_singleton] at length
    omega
  case h_3 => rfl

theorem count_of_one_colon {left right : String} (leftFree : ':' ∉ left.toList)
    (rightFree : ':' ∉ right.toList) : (left ++ ":" ++ right).toList.count ':' = 1 := by
  rw [String.toList_append, String.toList_append, List.count_append, List.count_append,
    List.count_eq_zero.mpr leftFree, List.count_eq_zero.mpr rightFree]
  rfl

/-- A name is refused if and only if it has several colons, or one without a place behind it. -/
theorem parse_eq_error_iff {s : String} {fault : Fault} :
    parse s = .error fault ↔
      (2 ≤ s.toList.count ':' ∧ fault = .badTensorName s) ∨
      ((∃ left right, s = left ++ ":" ++ right ∧ ':' ∉ left.toList ∧ ':' ∉ right.toList ∧
        ¬ IsPlace right) ∧ fault = .badOutputIndex s) := by
  rcases cases_of_colons s with free | ⟨left, right, rfl, leftFree, rightFree⟩ | several
  · have none : s.toList.count ':' = 0 := List.count_eq_zero.mpr free
    rw [parse_of_no_colon free]
    constructor
    · intro run
      cases run
    · rintro (⟨several, -⟩ | ⟨⟨left, right, rfl, leftFree, rightFree, -⟩, -⟩)
      · omega
      · rw [count_of_one_colon leftFree rightFree] at none
        cases none
  · have one := count_of_one_colon leftFree rightFree
    rw [parse_of_one_colon leftFree rightFree]
    constructor
    · intro run
      refine .inr ⟨⟨left, right, rfl, leftFree, rightFree, fun place => ?_⟩, ?_⟩
      · obtain ⟨i, read⟩ := Option.ne_none_iff_exists'.mp (isPlace_iff.mp place)
        rw [read] at run
        cases run
      · cases read : Text.readInt? right with
        | none =>
          rw [read] at run
          exact (Except.error.inj run).symm
        | some i =>
          rw [read] at run
          cases run
    · rintro (⟨several, -⟩ | ⟨⟨left', right', same, leftFree', rightFree', unread⟩, rfl⟩)
      · omega
      · -- There is only one way to take the name apart at its colon.
        have parts := splitAt_of_one_colon leftFree rightFree
        rw [same, splitAt_of_one_colon leftFree' rightFree'] at parts
        cases parts
        have none : Text.readInt? right = none := by
          by_contra read
          exact unread (isPlace_iff.mpr read)
        rw [none]
        rfl
  · rw [parse_of_colons several]
    constructor
    · intro run
      exact .inl ⟨several, (Except.error.inj run).symm⟩
    · rintro (⟨-, rfl⟩ | ⟨⟨left, right, rfl, leftFree, rightFree, -⟩, -⟩)
      · rfl
      · rw [count_of_one_colon leftFree rightFree] at several
        omega

/-- A mark in front of a bare name is dropped. -/
theorem parse_marked {op : String} (bare : IsBare op) : parse ("^" ++ op) = .ok ⟨op, 0⟩ := by
  have marked : ("^" ++ op).toList = '^' :: op.toList := by
    rw [String.toList_append]
    rfl
  have free : ':' ∉ ("^" ++ op).toList := by
    rw [marked, List.mem_cons, not_or]
    exact ⟨by decide, bare.1⟩
  have unmarked : dropControlMark ("^" ++ op) = op := by
    unfold dropControlMark
    rw [marked]
    exact String.ofList_toList
  rw [parse_of_no_colon free, unmarked]

theorem colon_not_mem_decimal (i : Int) : ':' ∉ (toString i).toList := by
  cases i with
  | ofNat n =>
    intro member
    cases Text.isDigit_of_mem_decimal (n := n) member
  | negSucc n =>
    change ':' ∉ ("-" ++ toString (n + 1)).toList
    rw [String.toList_append, List.mem_append, not_or]
    refine ⟨by decide, fun member => ?_⟩
    cases Text.isDigit_of_mem_decimal member

/-- A full name is read back, unless its place has too many digits. -/
theorem parse_render {op : String} (bare : IsBare op) (i : Int) :
    parse (render ⟨op, i⟩) =
      if (toString i.natAbs).length ≤ Text.maxDigits then .ok ⟨op, i⟩
      else .error (.badOutputIndex (render ⟨op, i⟩)) := by
  unfold render
  rw [parse_of_one_colon bare.1 (colon_not_mem_decimal i), Text.readInt?_decimal,
    dropControlMark_of_isBare bare]
  split <;> rfl

/-- Names are read back. For a bare name of an operation, the full name with a place gives both,
unless the place has more digits than can be read; the name alone, marked or not, is that of the
first output. A name is refused if and only if it has several colons, or one without a place behind
it. -/
theorem names_read_back {op : String} (bare : IsBare op) :
    (∀ i : Int, parse (render ⟨op, i⟩) =
      if (toString i.natAbs).length ≤ Text.maxDigits then .ok ⟨op, i⟩
      else .error (.badOutputIndex (render ⟨op, i⟩))) ∧
    parse ("^" ++ op) = .ok ⟨op, 0⟩ ∧ parse op = .ok ⟨op, 0⟩ ∧
    ∀ (s : String) (fault : Fault), parse s = .error fault ↔
      (2 ≤ s.toList.count ':' ∧ fault = .badTensorName s) ∨
      ((∃ left right, s = left ++ ":" ++ right ∧ ':' ∉ left.toList ∧ ':' ∉ right.toList ∧
        ¬ IsPlace right) ∧ fault = .badOutputIndex s) := by
  refine ⟨parse_render bare, parse_marked bare, ?_, fun s fault => parse_eq_error_iff⟩
  rw [parse_of_no_colon bare.1, dropControlMark_of_isBare bare]

theorem names_read_back_conv :
    IsBare "conv" ∧ parse "conv:-12" = .ok ⟨"conv", -12⟩ ∧ parse "^conv" = .ok ⟨"conv", 0⟩ ∧
      parse "conv" = .ok ⟨"conv", 0⟩ ∧ parse "conv:1:2" = .error (.badTensorName "conv:1:2") ∧
      parse "conv:-" = .error (.badOutputIndex "conv:-") := by
  have bare : IsBare "conv" := by
    unfold IsBare
    decide
  obtain ⟨full, marked, alone, refused⟩ := names_read_back bare
  refine ⟨bare, ?_, marked, alone, (refused _ _).mpr (.inl ⟨by decide, rfl⟩), ?_⟩
  · have read := full (-12)
    rw [if_pos (by decide)] at read
    exact read
  · refine (refused _ _).mpr (.inr ⟨⟨"conv", "-", rfl, by decide, by decide, ?_⟩, rfl⟩)
    rw [isPlace_iff]
    decide

/-- The least number that has too many digits to be read. -/
def leastUnread : Nat := Nat.pow 10 Text.maxDigits

theorem long_place_refused :
    IsBare "conv" ∧ parse (render ⟨"conv", leastUnread⟩) =
      .error (.badOutputIndex (render ⟨"conv", leastUnread⟩)) := by
  have bare : IsBare "conv" := by
    unfold IsBare
    decide
  have digits : ∀ k, 0 < k → ¬ (toString (Nat.pow 10 k)).length ≤ k := by
    intro k some short
    rw [← String.length_toList, Text.toList_decimal,
      Nat.length_toDigits_le_iff (by decide) some] at short
    exact Nat.lt_irrefl _ short
  have long : ¬ (toString leastUnread).length ≤ Text.maxDigits := by
    unfold leastUnread
    exact digits Text.maxDigits (by decide)
  rw [parse_render bare, Int.natAbs_natCast, if_neg long]
  exact ⟨bare, rfl⟩

end TensorName

end TensorEmit
