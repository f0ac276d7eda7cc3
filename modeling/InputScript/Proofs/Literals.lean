/-
Module: InputScript.Proofs.Literals
Purpose: The grammar of decimal literals with a fraction or an exponent, their exact values, and how they
  are read: a literal with digits of any script is the double precision number that its exact value is
  rounded to, and it is neither a hexadecimal literal nor a decimal integer.
Main exports: FractionLiteral, FractionLiteral.text
-/
import InputScript.Coercion
import InputScript.Proofs.Doubles
import InputScript.Proofs.Numerals

namespace InputScript.Number

open Text

/-! ### Literals and their values -/

/-- The sign in front of a number, if one is written. -/
inductive Sign where
  | absent
  | plus
  | minus
  deriving DecidableEq, Repr

/-- The written sign. -/
def Sign.text : Sign → List Char
  | .absent => []
  | .plus => ['+']
  | .minus => ['-']

/-- Whether the sign is a minus. -/
def Sign.negative : Sign → Bool
  | .minus => true
  | _ => false

/-- A row of decimal digits of any script.  It may be empty. -/
structure DigitRow where
  text : List Char
  isRow : text.all isDecimalDigit = true

namespace DigitRow

/-- No digits. -/
def empty : DigitRow := ⟨[], rfl⟩

/-- The values of the digits. -/
def values (row : DigitRow) : List ℕ :=
  row.text.map fun c => (digitValue c).getD 0

/-- The number that the digits spell, the last digit counting units. -/
def value (row : DigitRow) : ℕ :=
  Nat.ofDigits 10 row.values.reverse

end DigitRow

/-- An exponent: a mark, a sign and one or more digits. -/
structure ExponentMark where
  mark : Char
  sign : Sign
  row : DigitRow
  isMark : mark = 'e' ∨ mark = 'E'
  nonempty : row.text ≠ []

/-- A decimal literal with a fraction, an exponent or both: a sign, digits, a point and more digits, and
an exponent.  There is a digit before or after the point. -/
structure FractionLiteral where
  sign : Sign
  whole : DigitRow
  /-- The digits after the point, if there is a point. -/
  fraction : Option DigitRow
  exponent : Option ExponentMark
  hasDigit : whole.text ≠ [] ∨ (fraction.getD .empty).text ≠ []
  isMarked : fraction.isSome = true ∨ exponent.isSome = true

namespace FractionLiteral

/-- The point and the digits after it. -/
def pointText : Option DigitRow → List Char
  | none => []
  | some row => '.' :: row.text

/-- The mark of the exponent, its sign and its digits. -/
def exponentText : Option ExponentMark → List Char
  | none => []
  | some exponent => exponent.mark :: (exponent.sign.text ++ exponent.row.text)

/-- The literal as it is written. -/
def text (literal : FractionLiteral) : List Char :=
  literal.sign.text ++
    (literal.whole.text ++ (pointText literal.fraction ++ exponentText literal.exponent))

/-- The power of ten that the exponent stands for. -/
def power : Option ExponentMark → ℤ
  | none => 0
  | some exponent => signed exponent.sign.negative exponent.row.value

/-- The exact value of the literal. -/
def value (literal : FractionLiteral) : ℚ :=
  let fraction := literal.fraction.getD .empty
  signedBy literal.sign.negative
    ((literal.whole.value + fraction.value / 10 ^ fraction.text.length) * 10 ^ power literal.exponent)

end FractionLiteral

/-! ### Digits of all scripts -/

variable {c : Char}

theorem digitValue_lt {value : ℕ} (found : digitValue c = some value) : value < 10 := by
  obtain ⟨start, first, rfl⟩ := Option.map_eq_some_iff.mp found
  have range := List.find?_some first
  simp only [Bool.and_eq_true, decide_eq_true_eq] at range
  omega

theorem asciiDigit_ofNat {value : ℕ} (small : value < 10) :
    isAsciiDigit (Char.ofNat (0x30 + value)) = true ∧
      asciiDigitValue (Char.ofNat (0x30 + value)) = value := by
  interval_cases value <;> decide

theorem asciiDigits_append (first second : List Char) :
    asciiDigits (first ++ second) = asciiDigits first ++ asciiDigits second :=
  List.map_append

/-- A character that is no digit is kept. -/
theorem asciiDigits_cons (other : digitValue c = none) (rest : List Char) :
    asciiDigits (c :: rest) = c :: asciiDigits rest := by
  rw [asciiDigits, List.map_cons, other, ← asciiDigits]

@[simp] theorem asciiDigits_sign (sign : Sign) : asciiDigits sign.text = sign.text := by
  cases sign <;> decide

namespace DigitRow

variable (row : DigitRow)

/-- The row written with the digits `0` to `9`. -/
def plain : List Char := asciiDigits row.text

theorem length_plain : row.plain.length = row.text.length :=
  List.length_map _

theorem plain_eq_nil : row.plain = [] ↔ row.text = [] :=
  List.map_eq_nil_iff

theorem plain_spec {text : List Char} (isRow : text.all isDecimalDigit = true) :
    (∀ c ∈ asciiDigits text, isAsciiDigit c = true) ∧
      (asciiDigits text).map asciiDigitValue = text.map fun c => (digitValue c).getD 0 := by
  induction text with
  | nil => exact ⟨List.forall_mem_nil _, rfl⟩
  | cons c rest hypothesis =>
      rw [List.all_cons, Bool.and_eq_true, isDecimalDigit] at isRow
      obtain ⟨value, found⟩ := Option.isSome_iff_exists.mp isRow.1
      obtain ⟨digits, values⟩ := hypothesis isRow.2
      obtain ⟨digit, digitEq⟩ := asciiDigit_ofNat (digitValue_lt found)
      have whole : asciiDigits (c :: rest) = Char.ofNat (0x30 + value) :: asciiDigits rest := by
        rw [asciiDigits, List.map_cons, found, ← asciiDigits]
      rw [whole, List.map_cons, List.map_cons, digitEq, values, found]
      exact ⟨List.forall_mem_cons.mpr ⟨digit, digits⟩, rfl⟩

theorem isAsciiDigit_of_mem_plain : ∀ c ∈ row.plain, isAsciiDigit c = true :=
  (plain_spec row.isRow).1

theorem decimalValue_plain : decimalValue row.plain = row.value := by
  rw [decimalValue, plain, (plain_spec row.isRow).2, positional_eq_ofDigits]
  rfl

/-- The digits of two rows, one after the other, spell the first number moved up and the second one. -/
theorem decimalValue_append (other : DigitRow) :
    decimalValue (row.plain ++ other.plain) =
      row.value * 10 ^ other.text.length + other.value := by
  rw [← row.decimalValue_plain, ← other.decimalValue_plain, ← length_plain]
  simp only [decimalValue, positional_eq_ofDigits, List.map_append, List.reverse_append,
    Nat.ofDigits_append, List.length_reverse, List.length_map]
  ring

theorem isDigitRow_plain (nonempty : row.text ≠ []) : IsDigitRow row.plain :=
  ⟨fun nothing => nonempty (row.plain_eq_nil.mp nothing), row.isAsciiDigit_of_mem_plain⟩

end DigitRow

/-! ### Reading a literal -/

variable {rest : List Char}

/-- A row of digits ends where something else begins. -/
theorem scan_row {row : List Char} (digits : ∀ c ∈ row, isAsciiDigit c = true)
    (ends : ∀ c ∈ rest.head?, isAsciiDigit c = false) :
    (row ++ rest).takeWhile isAsciiDigit = row ∧ (row ++ rest).dropWhile isAsciiDigit = rest := by
  rw [List.takeWhile_append_of_pos digits, List.dropWhile_append_of_pos digits]
  cases rest with
  | nil => simp
  | cons c rest =>
      have other := ends c rfl
      simp [other]

theorem splitSign_text (sign : Sign) (unsigned : splitSign rest = (false, rest)) :
    splitSign (sign.text ++ rest) = (sign.negative, rest) := by
  cases sign with
  | absent => exact unsigned
  | plus => rfl
  | minus => rfl

theorem splitSign_cons (rest : List Char) (solid : isAsciiDigit c = true ∨ c = '.') :
    splitSign (c :: rest) = (false, c :: rest) := by
  unfold splitSign
  split
  · next same =>
      cases same
      simp [isAsciiDigit] at solid
  · next same =>
      cases same
      simp [isAsciiDigit] at solid
  · rfl

/-- The digits after a point, if there is one, and what follows. -/
def splitPoint : List Char → List Char × List Char
  | '.' :: rest => (rest.takeWhile isAsciiDigit, rest.dropWhile isAsciiDigit)
  | rest => ([], rest)

/-- A literal is taken apart at its sign, its point and its exponent. -/
theorem decimalLiteral?_eq (text : List Char) :
    decimalLiteral? text =
      if ((splitSign text).2.takeWhile isAsciiDigit).isEmpty &&
        (splitPoint ((splitSign text).2.dropWhile isAsciiDigit)).1.isEmpty then none
      else (exponentPart? (splitPoint ((splitSign text).2.dropWhile isAsciiDigit)).2).map fun exponent =>
        ⟨(splitSign text).1, (splitSign text).2.takeWhile isAsciiDigit,
          (splitPoint ((splitSign text).2.dropWhile isAsciiDigit)).1, exponent⟩ :=
  rfl

variable {text : List Char} {negative : Bool}

theorem decimalLiteral?_of_parts {unsigned whole behind fraction : List Char}
    (sign : splitSign text = (negative, unsigned))
    (taken : unsigned.takeWhile isAsciiDigit = whole)
    (dropped : unsigned.dropWhile isAsciiDigit = behind)
    (point : splitPoint behind = (fraction, rest)) (hasDigit : whole ≠ [] ∨ fraction ≠ []) :
    decimalLiteral? text =
      (exponentPart? rest).map fun exponent => ⟨negative, whole, fraction, exponent⟩ := by
  rw [decimalLiteral?_eq, sign, taken, dropped, point, if_neg]
  rw [Bool.and_eq_true, List.isEmpty_iff, List.isEmpty_iff]
  tauto

namespace FractionLiteral

/-- The point and the digits after it, written with `0` to `9`. -/
def pointPlain : Option DigitRow → List Char
  | none => []
  | some row => '.' :: row.plain

/-- The exponent, written with `0` to `9`. -/
def exponentPlain : Option ExponentMark → List Char
  | none => []
  | some exponent => exponent.mark :: (exponent.sign.text ++ exponent.row.plain)

/-- The literal written with the digits `0` to `9`. -/
def plain (literal : FractionLiteral) : List Char :=
  literal.sign.text ++
    (literal.whole.plain ++ (pointPlain literal.fraction ++ exponentPlain literal.exponent))

theorem asciiDigits_pointText (fraction : Option DigitRow) :
    asciiDigits (pointText fraction) = pointPlain fraction := by
  cases fraction with
  | none => rfl
  | some row => exact asciiDigits_cons (by decide) row.text

theorem asciiDigits_exponentText (exponent : Option ExponentMark) :
    asciiDigits (exponentText exponent) = exponentPlain exponent := by
  cases exponent with
  | none => rfl
  | some exponent =>
      have other : digitValue exponent.mark = none := by
        rcases exponent.isMark with mark | mark <;> rw [mark] <;> decide
      rw [exponentText, asciiDigits_cons other, asciiDigits_append, asciiDigits_sign]
      rfl

theorem asciiDigits_text (literal : FractionLiteral) : asciiDigits literal.text = literal.plain := by
  rw [text, asciiDigits_append, asciiDigits_append, asciiDigits_append, asciiDigits_sign,
    asciiDigits_pointText, asciiDigits_exponentText]
  rfl

theorem exponentPart?_plain (exponent : Option ExponentMark) :
    exponentPart? (exponentPlain exponent) = some (power exponent) := by
  cases exponent with
  | none => rfl
  | some exponent =>
      have row := exponent.row.isDigitRow_plain exponent.nonempty
      have isMark : (exponent.mark == 'e' || exponent.mark == 'E') = true := by
        simpa using exponent.isMark
      have decimal : IsDecimal (exponent.sign.text ++ exponent.row.plain) exponent.sign.negative
          exponent.row.plain := by
        cases exponent.sign with
        | absent => exact .bare row
        | plus => exact .plus row
        | minus => exact .minus row
      rw [exponentPlain, exponentPart?, if_pos isMark, signedDigits?_eq_some.mpr decimal,
        Option.map_some, power, ← exponent.row.decimalValue_plain]

/-- An exponent begins with neither a digit nor a point. -/
theorem head?_exponentPlain (exponent : Option ExponentMark) :
    ∀ c ∈ (exponentPlain exponent).head?, isAsciiDigit c = false ∧ c ≠ '.' := by
  cases exponent with
  | none => simp [exponentPlain]
  | some exponent =>
      rintro c ⟨⟩
      rcases exponent.isMark with mark | mark <;> rw [mark] <;> decide

/-- Behind its sign a literal begins with a digit or with the point. -/
theorem splitSign_unsigned (literal : FractionLiteral) :
    splitSign (literal.whole.plain ++ (pointPlain literal.fraction ++ exponentPlain literal.exponent)) =
      (false, literal.whole.plain ++
        (pointPlain literal.fraction ++ exponentPlain literal.exponent)) := by
  cases digits : literal.whole.plain with
  | cons c rest =>
      have digit := literal.whole.isAsciiDigit_of_mem_plain c (by simp [digits])
      exact splitSign_cons _ (.inl digit)
  | nil =>
      have behind := literal.hasDigit.resolve_left (not_not.mpr (literal.whole.plain_eq_nil.mp digits))
      cases point : literal.fraction with
      | none =>
          rw [point] at behind
          exact absurd rfl behind
      | some row => exact splitSign_cons _ (.inr rfl)

theorem splitPoint_plain (fraction : Option DigitRow) (exponent : Option ExponentMark) :
    splitPoint (pointPlain fraction ++ exponentPlain exponent) =
      ((fraction.getD .empty).plain, exponentPlain exponent) := by
  have head := head?_exponentPlain exponent
  cases fraction with
  | none =>
      rw [pointPlain, List.nil_append, splitPoint]
      · rfl
      · intro rest same
        rw [same] at head
        exact (head '.' rfl).2 rfl
  | some row =>
      obtain ⟨taken, dropped⟩ := scan_row row.isAsciiDigit_of_mem_plain fun c first => (head c first).1
      rw [pointPlain, List.cons_append, splitPoint, taken, dropped]
      rfl

theorem head?_pointPlain (fraction : Option DigitRow) (exponent : Option ExponentMark) :
    ∀ c ∈ (pointPlain fraction ++ exponentPlain exponent).head?, isAsciiDigit c = false := by
  cases fraction with
  | none => exact fun c first => (head?_exponentPlain exponent c first).1
  | some row =>
      rintro c ⟨⟩
      decide

/-- A literal is taken apart into its parts. -/
theorem decimalLiteral?_plain (literal : FractionLiteral) :
    decimalLiteral? literal.plain =
      some ⟨literal.sign.negative, literal.whole.plain, (literal.fraction.getD .empty).plain,
        power literal.exponent⟩ := by
  have hasDigit : literal.whole.plain ≠ [] ∨ (literal.fraction.getD .empty).plain ≠ [] := by
    rw [Ne, Ne, DigitRow.plain_eq_nil, DigitRow.plain_eq_nil]
    exact literal.hasDigit
  obtain ⟨taken, dropped⟩ := scan_row literal.whole.isAsciiDigit_of_mem_plain
    (head?_pointPlain literal.fraction literal.exponent)
  rw [plain, decimalLiteral?_of_parts (splitSign_text literal.sign literal.splitSign_unsigned) taken
    dropped (splitPoint_plain literal.fraction literal.exponent) hasDigit, exponentPart?_plain]
  rfl

/-- The digits and the scale that are read give the value of the literal. -/
theorem value_eq (literal : FractionLiteral) :
    literal.value = signedBy literal.sign.negative
      (decimalValue (literal.whole.plain ++ (literal.fraction.getD .empty).plain) *
        10 ^ (power literal.exponent - (literal.fraction.getD .empty).plain.length)) := by
  have ten : (10 : ℚ) ≠ 0 := by norm_num
  rw [value, DigitRow.decimalValue_append, DigitRow.length_plain, zpow_sub₀ ten, zpow_natCast]
  congr 1
  push_cast
  field_simp

/-- A digit of the literal. -/
theorem exists_digit (literal : FractionLiteral) :
    ∃ c ∈ literal.whole.plain ++ (pointPlain literal.fraction ++ exponentPlain literal.exponent),
      isAsciiDigit c = true := by
  rcases literal.hasDigit with before | behind
  · obtain ⟨c, member⟩ := List.exists_mem_of_ne_nil _ (literal.whole.isDigitRow_plain before).1
    exact ⟨c, by simp [member], literal.whole.isAsciiDigit_of_mem_plain c member⟩
  · cases point : literal.fraction with
    | none =>
        rw [point] at behind
        exact absurd rfl behind
    | some row =>
        rw [point] at behind
        obtain ⟨c, member⟩ := List.exists_mem_of_ne_nil _ (row.isDigitRow_plain behind).1
        exact ⟨c, by simp [pointPlain, member], row.isAsciiDigit_of_mem_plain c member⟩

/-- The characters of a literal that are no digits. -/
theorem mem_text {literal : FractionLiteral} {c : Char} (member : c ∈ literal.text)
    (other : isDecimalDigit c = false) : c ∈ ['+', '-', '.', 'e', 'E'] := by
  have notInRow (row : DigitRow) (inside : c ∈ row.text) : False := by
    rw [List.all_eq_true.mp row.isRow c inside] at other
    cases other
  have inSign (sign : Sign) (inside : c ∈ sign.text) : c ∈ ['+', '-', '.', 'e', 'E'] := by
    cases sign <;> simp_all [Sign.text]
  simp only [text, List.mem_append] at member
  rcases member with sign | whole | point | exponent
  · exact inSign _ sign
  · exact absurd whole (notInRow _)
  · cases fraction : literal.fraction with
    | none => simp [fraction, pointText] at point
    | some row =>
        rw [fraction, pointText, List.mem_cons] at point
        rcases point with rfl | inRow
        · decide
        · exact absurd inRow (notInRow row)
  · cases mark : literal.exponent with
    | none => simp [mark, exponentText] at exponent
    | some part =>
        rw [mark, exponentText, List.mem_cons, List.mem_append] at exponent
        rcases exponent with rfl | sign | inRow
        · rcases part.isMark with same | same <;> rw [same] <;> decide
        · exact inSign _ sign
        · exact absurd inRow (notInRow part.row)

/-- A literal has a point or the mark of an exponent. -/
theorem exists_mark (literal : FractionLiteral) : ∃ c ∈ literal.text, c ∈ ['.', 'e', 'E'] := by
  rcases literal.isMarked with point | marked
  · obtain ⟨row, fraction⟩ := Option.isSome_iff_exists.mp point
    exact ⟨'.', by simp [text, fraction, pointText], by decide⟩
  · obtain ⟨part, exponent⟩ := Option.isSome_iff_exists.mp marked
    refine ⟨part.mark, by simp [text, exponent, exponentText], ?_⟩
    rcases part.isMark with same | same <;> rw [same] <;> decide

end FractionLiteral

/-! ### What a literal is not -/

theorem mem_of_mem_asciiDigits (member : c ∈ asciiDigits text) (other : isAsciiDigit c = false) :
    c ∈ text := by
  obtain ⟨original, inside, same⟩ := List.mem_map.mp member
  split at same
  · next value found =>
      rw [← same, (asciiDigit_ofNat (digitValue_lt found)).1] at other
      cases other
  · rwa [← same]

/-- A text without underscores has no digit groups. -/
theorem ungroup?_eq_some (flag : Bool) (plain : '_' ∉ text) :
    ungroup? flag text = some text := by
  induction text generalizing flag with
  | nil => rfl
  | cons c rest hypothesis =>
      rw [List.mem_cons, not_or] at plain
      have later := hypothesis (isAsciiDigit c) plain.2
      rw [ungroup?]
      · simp [later, Ne.symm plain.1]
      · rintro next rest rfl
        exact absurd rfl plain.1

theorem asciiLower_of_isAsciiDigit (digit : isAsciiDigit c = true) : asciiLower c = c := by
  simp only [isAsciiDigit, Bool.and_eq_true, decide_eq_true_eq] at digit
  rw [asciiLower, if_neg]
  simp only [Bool.and_eq_true, decide_eq_true_eq]
  omega

/-- A text with a digit is no word for a number. -/
theorem namedFloat?_eq_none {unsigned : List Char} (sign : splitSign text = (negative, unsigned))
    (member : c ∈ unsigned) (digit : isAsciiDigit c = true) : namedFloat? text = none := by
  have inside : c ∈ unsigned.map asciiLower :=
    List.mem_map.mpr ⟨c, member, asciiLower_of_isAsciiDigit digit⟩
  have other (word : String) (letters : word.toList.any isAsciiDigit = false) :
      (String.ofList (unsigned.map asciiLower) == word) = false := by
    rw [beq_eq_false_iff_ne]
    rintro rfl
    rw [String.toList_ofList, List.any_eq_false] at letters
    exact letters c inside digit
  simp only [namedFloat?, sign, other "inf" (by decide), other "infinity" (by decide),
    other "nan" (by decide)]
  rfl

theorem SpellsHex.exists_mark {number : ℕ} (spelled : SpellsHex text number) :
    ∃ c ∈ text, c ∈ ['x', 'X'] := by
  cases spelled with
  | @literal mark row _ marked _ => exact ⟨mark, by simp, by simpa using marked⟩

theorem IsDecimal.isAsciiDigit_or_sign {digits : List Char}
    (decimal : IsDecimal text negative digits) (member : c ∈ text) :
    isAsciiDigit c = true ∨ c ∈ ['+', '-'] := by
  cases decimal with
  | bare row => exact .inl (row.2 c member)
  | plus row =>
      rcases List.mem_cons.mp member with rfl | inside
      · exact .inr (by decide)
      · exact .inl (row.2 c inside)
  | minus row =>
      rcases List.mem_cons.mp member with rfl | inside
      · exact .inr (by decide)
      · exact .inl (row.2 c inside)

namespace FractionLiteral

variable (literal : FractionLiteral)

theorem hexValue?_text : hexValue? literal.text = none := by
  rw [Option.eq_none_iff_forall_ne_some]
  intro number found
  obtain ⟨c, member, mark⟩ := (hexValue?_eq_some.mp found).exists_mark
  have other : isDecimalDigit c = false ∧ c ∉ ['+', '-', '.', 'e', 'E'] := by
    fin_cases mark <;> decide
  exact other.2 (mem_text member other.1)

theorem signedDigits?_text : signedDigits? literal.text = none := by
  rw [signedDigits?_eq_none]
  intro negative digits decimal
  obtain ⟨c, member, mark⟩ := literal.exists_mark
  have other : ¬ (isAsciiDigit c = true ∨ c ∈ ['+', '-']) := by
    fin_cases mark <;> decide
  exact other (decimal.isAsciiDigit_or_sign member)

/-- The literal without the blanks around it is read as the number nearest to it. -/
theorem plainFloat?_text (tight : trim literal.text = literal.text) :
    ∃ number, plainFloat? literal.text = some number ∧ Rounds literal.value (decode number) := by
  have noGroup : '_' ∉ literal.text := fun member =>
    absurd (mem_text member (by decide)) (by decide)
  obtain ⟨c, member, digit⟩ := literal.exists_digit
  have sign := splitSign_text literal.sign literal.splitSign_unsigned
  have noName := namedFloat?_eq_none sign member digit
  have ungrouped : ungroup? false literal.plain = some literal.plain := by
    apply ungroup?_eq_some
    intro inside
    rw [← asciiDigits_text] at inside
    exact noGroup (mem_of_mem_asciiDigits inside (by decide))
  refine ⟨_, ?_, literal.value_eq ▸ rounds_nearestDecimal _ _ _⟩
  rw [plainFloat?, if_neg (by simpa using noGroup), readFloat?, String.toList_ofList, tight,
    asciiDigits_text]
  rw [← plain] at noName
  simp only [noName, ungrouped, Option.bind_some, decimalLiteral?_plain]
  rfl

end FractionLiteral

end InputScript.Number
