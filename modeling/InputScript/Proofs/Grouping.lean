/-
Module: InputScript.Proofs.Grouping
Purpose: Numbers as settings have them: digits of any script that single underscores may group, with a sign,
  a point and an exponent, and the words for infinity and for no number.  A text is read as an integer just
  if it spells one of few enough digits, and as a double precision number just if it spells one, which is
  then the number that the exact value is rounded to.
Main exports: DigitPart, SpellsInteger, SpellsFloat, exists_readFloat?
-/
import InputScript.Proofs.Literals
import InputScript.Proofs.Trimming

namespace InputScript.Number

open Text

/-! ### Texts that spell numbers -/

/-- One or more digits of any script, of which each but the last may be followed by an underscore, and the
values of the digits. -/
inductive DigitPart : List Char → List ℕ → Prop where
  | single {c : Char} {value : ℕ} (digit : digitValue c = some value) : DigitPart [c] [value]
  | next {c : Char} {value : ℕ} {rest : List Char} {values : List ℕ} (digit : digitValue c = some value)
      (part : DigitPart rest values) : DigitPart (c :: rest) (value :: values)
  | grouped {c : Char} {value : ℕ} {rest : List Char} {values : List ℕ} (digit : digitValue c = some value)
      (part : DigitPart rest values) : DigitPart (c :: '_' :: rest) (value :: values)

/-- The number that digits spell, the last digit counting units. -/
def numberOf (values : List ℕ) : ℕ := Nat.ofDigits 10 values.reverse

/-- An integer: an optional sign, and no more digits than are converted. -/
inductive SpellsInteger : List Char → ℤ → Prop where
  | literal (sign : Sign) {row : List Char} {values : List ℕ} (part : DigitPart row values)
      (few : values.length ≤ digitLimit) :
      SpellsInteger (sign.text ++ row) (signed sign.negative (numberOf values))

/-- Digits or nothing. -/
def OptionalPart (row : List Char) (values : List ℕ) : Prop :=
  row = [] ∧ values = [] ∨ DigitPart row values

/-- The digits of a number before and after its point; without a point there are none after it. -/
inductive Mantissa : List Char → List ℕ → List ℕ → Prop where
  | bare {row : List Char} {values : List ℕ} (part : DigitPart row values) : Mantissa row values []
  | pointed {row behind : List Char} {whole fraction : List ℕ} (before : OptionalPart row whole)
      (after : OptionalPart behind fraction) (hasDigit : whole ≠ [] ∨ fraction ≠ []) :
      Mantissa (row ++ '.' :: behind) whole fraction

/-- The power of ten that a number is multiplied by: none, or a mark, an optional sign and digits. -/
inductive Exponent : List Char → ℤ → Prop where
  | absent : Exponent [] 0
  | present {mark : Char} (isMark : mark = 'e' ∨ mark = 'E') (sign : Sign) {row : List Char}
      {values : List ℕ} (part : DigitPart row values) :
      Exponent (mark :: (sign.text ++ row)) (signed sign.negative (numberOf values))

/-- The number of digits before and after the point, times a power of ten. -/
def decimalNumber (whole fraction : List ℕ) (power : ℤ) : ℚ :=
  (numberOf whole + numberOf fraction / 10 ^ fraction.length) * 10 ^ power

/-- The sign of what is a number. -/
def Binary.sign? : Binary → Option Bool
  | .finite negative _ _ => some negative
  | .infinite negative => some negative
  | .notANumber => none

/-- A text and the double precision number that it spells: the number of its sign that the exact value is
rounded to, infinity, or no number. -/
inductive SpellsFloat : List Char → Float → Prop where
  | decimal (sign : Sign) {mantissa exponent : List Char} {whole fraction : List ℕ} {power : ℤ}
      {number : Float} (digits : Mantissa mantissa whole fraction) (scale : Exponent exponent power)
      (rounds : Rounds (signedBy sign.negative (decimalNumber whole fraction power)) (decode number))
      (signs : (decode number).sign? = some sign.negative) :
      SpellsFloat (sign.text ++ (mantissa ++ exponent)) number
  | infinity (sign : Sign) {word : List Char} {number : Float}
      (isWord : String.ofList (word.map asciiLower) ∈ ["inf", "infinity"])
      (infinite : decode number = .infinite sign.negative) : SpellsFloat (sign.text ++ word) number
  | nan (sign : Sign) {word : List Char} {number : Float}
      (isWord : String.ofList (word.map asciiLower) = "nan") (undefined : decode number = .notANumber) :
      SpellsFloat (sign.text ++ word) number

/-! ### Digits without groups -/

/-- One of `0` to `9` by its value. -/
def plainDigit (value : ℕ) : Char := Char.ofNat (0x30 + value)

variable {c : Char} {value : ℕ}

theorem isAsciiDigit_plainDigit (digit : digitValue c = some value) :
    isAsciiDigit (plainDigit value) = true :=
  (asciiDigit_ofNat (digitValue_lt digit)).1

/-- A text written with the digits `0` to `9` and without the underscores between them.  The flag says
whether a digit stands before the text. -/
inductive Strips : Bool → List Char → List Char → Prop where
  | nil {afterDigit : Bool} : Strips afterDigit [] []
  | digit {afterDigit : Bool} {c : Char} {value : ℕ} {rest out : List Char}
      (digit : digitValue c = some value) (follows : Strips true rest out) :
      Strips afterDigit (c :: rest) (plainDigit value :: out)
  | grouped {c : Char} {value : ℕ} {rest out : List Char} (digit : digitValue c = some value)
      (follows : Strips true rest out) : Strips true ('_' :: c :: rest) (plainDigit value :: out)
  | other {afterDigit : Bool} {c : Char} {rest out : List Char} (noDigit : digitValue c = none)
      (noGroup : c ≠ '_') (follows : Strips false rest out) : Strips afterDigit (c :: rest) (c :: out)

theorem isAsciiDigit_of_digitValue (noDigit : digitValue c = none) : isAsciiDigit c = false := by
  rw [Bool.eq_false_iff]
  intro digit
  simp only [isAsciiDigit, Bool.and_eq_true, decide_eq_true_eq] at digit
  rw [digitValue, Option.map_eq_none_iff, List.find?_eq_none] at noDigit
  have outside := noDigit 0x30 (by decide)
  simp only [Bool.and_eq_true, decide_eq_true_eq] at outside
  omega

theorem asciiDigits_digit (digit : digitValue c = some value) (rest : List Char) :
    asciiDigits (c :: rest) = plainDigit value :: asciiDigits rest := by
  rw [asciiDigits, List.map_cons, digit, ← asciiDigits]
  rfl

variable {text : List Char}

/-- The first character of a text is a digit, or it is kept. -/
theorem exists_of_asciiDigits_eq_cons {plain : List Char} {first : Char}
    (begins : asciiDigits text = first :: plain) :
    ∃ c rest, text = c :: rest ∧ asciiDigits rest = plain ∧
      ((∃ value, digitValue c = some value ∧ first = plainDigit value) ∨
        digitValue c = none ∧ first = c) := by
  cases text with
  | nil => cases begins
  | cons c rest =>
      refine ⟨c, rest, rfl, ?_⟩
      cases digit : digitValue c with
      | none =>
          rw [asciiDigits_cons digit] at begins
          cases begins
          exact ⟨rfl, .inr ⟨rfl, rfl⟩⟩
      | some value =>
          rw [asciiDigits_digit digit] at begins
          cases begins
          exact ⟨rfl, .inl ⟨value, rfl, rfl⟩⟩

theorem ungroup?_digit (digit : isAsciiDigit c = true) (flag : Bool) (rest : List Char) :
    ungroup? flag (c :: rest) = (ungroup? true rest).map (c :: ·) := by
  have noGroup : c ≠ '_' := by
    rintro rfl
    cases digit
  rw [ungroup?]
  · rw [if_neg (by simpa using noGroup), digit]
  · rintro _ _ rfl
    exact absurd rfl noGroup

theorem ungroup?_other (noDigit : isAsciiDigit c = false) (noGroup : c ≠ '_') (flag : Bool)
    (rest : List Char) : ungroup? flag (c :: rest) = (ungroup? false rest).map (c :: ·) := by
  rw [ungroup?]
  · rw [if_neg (by simpa using noGroup), noDigit]
  · rintro _ _ rfl
    exact absurd rfl noGroup

variable {flag : Bool} {out : List Char}

theorem Strips.ungroup?_eq (strips : Strips flag text out) :
    ungroup? flag (asciiDigits text) = some out := by
  induction strips with
  | nil => rfl
  | digit digit _ follows =>
      rw [asciiDigits_digit digit, ungroup?_digit (isAsciiDigit_plainDigit digit), follows]
      rfl
  | grouped digit _ follows =>
      rw [asciiDigits_cons (by decide), asciiDigits_digit digit, ungroup?,
        if_pos (by simpa using isAsciiDigit_plainDigit digit), follows]
      rfl
  | other noDigit noGroup _ follows =>
      rw [asciiDigits_cons noDigit, ungroup?_other (isAsciiDigit_of_digitValue noDigit) noGroup, follows]
      rfl

theorem strips_of_ungroup? (ungrouped : ungroup? flag (asciiDigits text) = some out) :
    Strips flag text out := by
  generalize plainEq : asciiDigits text = plain at ungrouped
  -- The induction is on what is read; the text is taken apart beside it, character by character.
  fun_induction ungroup? flag plain generalizing text out with
  | case1 =>
      cases ungrouped
      obtain rfl : text = [] := List.map_eq_nil_iff.mp plainEq
      exact .nil
  | case2 flag next rest isGroup follows =>
      rw [Bool.and_eq_true] at isGroup
      obtain ⟨out, restEq, rfl⟩ := Option.map_eq_some_iff.mp ungrouped
      obtain ⟨mark, text, rfl, textEq, ⟨value, digit, same⟩ | ⟨-, rfl⟩⟩ :=
        exists_of_asciiDigits_eq_cons plainEq
      · have impossible := isAsciiDigit_plainDigit digit
        rw [← same] at impossible
        cases impossible
      · obtain ⟨c, text, rfl, behind, ⟨value, digit, rfl⟩ | ⟨noDigit, rfl⟩⟩ :=
          exists_of_asciiDigits_eq_cons textEq
        · rw [isGroup.1]
          exact .grouped digit (follows behind restEq)
        · rw [isAsciiDigit_of_digitValue noDigit] at isGroup
          cases isGroup.2
  | case3 => cases ungrouped
  | case4 => cases ungrouped
  | case5 flag c rest _ noGroup follows =>
      rw [beq_iff_eq] at noGroup
      obtain ⟨out, restEq, rfl⟩ := Option.map_eq_some_iff.mp ungrouped
      obtain ⟨first, text, rfl, textEq, ⟨value, digit, rfl⟩ | ⟨noDigit, rfl⟩⟩ :=
        exists_of_asciiDigits_eq_cons plainEq
      · rw [isAsciiDigit_plainDigit digit] at restEq follows
        exact .digit digit (follows textEq restEq)
      · rw [isAsciiDigit_of_digitValue noDigit] at restEq follows
        exact .other noDigit noGroup (follows textEq restEq)

theorem ungroup?_asciiDigits :
    ungroup? flag (asciiDigits text) = some out ↔ Strips flag text out :=
  ⟨strips_of_ungroup?, Strips.ungroup?_eq⟩

/-! ### Rows of digits -/

variable {row : List Char} {values : List ℕ}

theorem DigitPart.exists_first (part : DigitPart row values) :
    ∃ c value rest, row = c :: rest ∧ digitValue c = some value := by
  cases part with
  | single digit => exact ⟨_, _, _, rfl, digit⟩
  | next digit _ => exact ⟨_, _, _, rfl, digit⟩
  | grouped digit _ => exact ⟨_, _, _, rfl, digit⟩

variable {rest : List Char}

/-- An underscore may stand between two digits. -/
theorem Strips.group (digit : digitValue c = some value) (strips : Strips flag (c :: rest) out) :
    Strips true ('_' :: c :: rest) out := by
  have mark : digitValue '_' = none := by decide
  cases strips with
  | digit same follows => exact .grouped same follows
  | grouped =>
      rw [mark] at digit
      cases digit
  | other noDigit =>
      rw [digit] at noDigit
      cases noDigit

/-- Digits and groups are stripped to the digits. -/
theorem DigitPart.strips (part : DigitPart row values) (follows : Strips true rest out)
    (flag : Bool) :
    Strips flag (row ++ rest) (values.map plainDigit ++ out) := by
  induction part generalizing flag with
  | single digit => exact .digit digit follows
  | next digit _ hypothesis => exact .digit digit (hypothesis true)
  | grouped digit part hypothesis =>
      obtain ⟨c, value, rest, rfl, first⟩ := part.exists_first
      exact .digit digit (.group first (hypothesis true))

/-- What is stripped to digits is made of digits and groups. -/
theorem Strips.exists_part (nonempty : row ≠ []) (digits : ∀ c ∈ row, isAsciiDigit c = true)
    (strips : Strips flag text (row ++ out)) :
    ∃ part values rest, DigitPart part values ∧ row = values.map plainDigit ∧ Strips true rest out ∧
      (text = part ++ rest ∨ flag = true ∧ text = '_' :: (part ++ rest)) := by
  induction row generalizing flag text with
  | nil => exact absurd rfl nonempty
  | cons first row hypothesis =>
      rw [List.forall_mem_cons] at digits
      -- The first digit stands alone or after an underscore.
      obtain ⟨c, value, text, digit, rfl, follows, shape⟩ : ∃ c value rest, digitValue c = some value ∧
          first = plainDigit value ∧ Strips true rest (row ++ out) ∧
            (text = c :: rest ∨ flag = true ∧ text = '_' :: c :: rest) := by
        cases strips with
        | digit digit follows => exact ⟨_, _, _, digit, rfl, follows, .inl rfl⟩
        | grouped digit follows => exact ⟨_, _, _, digit, rfl, follows, .inr ⟨rfl, rfl⟩⟩
        | other noDigit _ _ =>
            rw [isAsciiDigit_of_digitValue noDigit] at digits
            cases digits.1
      by_cases last : row = []
      · subst last
        exact ⟨[c], [value], text, .single digit, rfl, follows, shape⟩
      · obtain ⟨part, values, rest, isPart, rfl, behind, rfl | ⟨-, rfl⟩⟩ :=
          hypothesis last digits.2 follows
        · exact ⟨c :: part, value :: values, rest, .next digit isPart, rfl, behind, shape⟩
        · exact ⟨c :: '_' :: part, value :: values, rest, .grouped digit isPart, rfl, behind, shape⟩

theorem Strips.eq_nil (strips : Strips flag text []) : text = [] := by
  cases strips with
  | nil => rfl

/-- A character that is no digit is kept, and no digit stands before what follows it. -/
theorem Strips.exists_other (noDigit : isAsciiDigit c = false)
    (strips : Strips flag text (c :: out)) :
    ∃ rest, text = c :: rest ∧ Strips false rest out := by
  have impossible {value : ℕ} {d : Char} (digit : digitValue d = some value)
      (noDigit : isAsciiDigit (plainDigit value) = false) : False := by
    rw [isAsciiDigit_plainDigit digit] at noDigit
    cases noDigit
  cases strips with
  | digit digit _ => exact (impossible digit noDigit).elim
  | grouped digit _ => exact (impossible digit noDigit).elim
  | other _ _ follows => exact ⟨_, rfl, follows⟩

theorem digitValue_lt_of_part (part : DigitPart row values) :
    ∀ value ∈ values, value < 10 := by
  induction part with
  | single digit => simpa using digitValue_lt digit
  | next digit _ hypothesis | grouped digit _ hypothesis =>
      exact List.forall_mem_cons.mpr ⟨digitValue_lt digit, hypothesis⟩

section Values

variable {values : List ℕ} (small : ∀ value ∈ values, value < 10)

include small

theorem isAsciiDigit_of_mem_plainDigits : ∀ c ∈ values.map plainDigit, isAsciiDigit c = true := by
  intro c member
  obtain ⟨value, inside, rfl⟩ := List.mem_map.mp member
  exact (asciiDigit_ofNat (small value inside)).1

theorem decimalValue_plainDigits : decimalValue (values.map plainDigit) = numberOf values := by
  have same : (values.map plainDigit).map asciiDigitValue = values := by
    rw [List.map_map]
    refine (List.map_congr_left fun value member => ?_).trans (List.map_id values)
    exact (asciiDigit_ofNat (small value member)).2
  rw [decimalValue, same, positional_eq_ofDigits, numberOf]

end Values

/-! ### Integers -/

theorem splitSign_unsigned (notMinus : c ≠ '-') (notPlus : c ≠ '+') (rest : List Char) :
    splitSign (c :: rest) = (false, c :: rest) := by
  unfold splitSign
  split
  · next same => exact absurd (List.cons.inj same).1 notMinus
  · next same => exact absurd (List.cons.inj same).1 notPlus
  · rfl

/-- Every text has a sign, or is without one. -/
theorem exists_sign (text : List Char) :
    ∃ (sign : Sign) (rest : List Char), text = sign.text ++ rest ∧
      splitSign (asciiDigits text) = (sign.negative, asciiDigits rest) := by
  cases text with
  | nil => exact ⟨.absent, [], rfl, rfl⟩
  | cons c rest =>
      by_cases minus : c = '-'
      · subst minus
        refine ⟨.minus, rest, rfl, ?_⟩
        rw [asciiDigits_cons (by decide)]
        rfl
      · by_cases plus : c = '+'
        · subst plus
          refine ⟨.plus, rest, rfl, ?_⟩
          rw [asciiDigits_cons (by decide)]
          rfl
        · refine ⟨.absent, c :: rest, rfl, ?_⟩
          cases digit : digitValue c with
          | none =>
              rw [asciiDigits_cons digit]
              exact splitSign_unsigned minus plus _
          | some value =>
              rw [asciiDigits_digit digit]
              exact splitSign_cons _ (.inl (isAsciiDigit_plainDigit digit))

/-- Digits and groups end with the text, and count as many digits as they have values. -/
theorem DigitPart.scan (part : DigitPart row values) :
    (∀ c ∈ asciiDigits row, (isAsciiDigit c || c == '_') = true) ∧
      (asciiDigits row).filter isAsciiDigit = values.map plainDigit := by
  induction part with
  | single digit =>
      have isDigit := isAsciiDigit_plainDigit digit
      rw [asciiDigits_digit digit, asciiDigits, List.map_nil]
      simp [isDigit]
  | next digit _ hypothesis =>
      have isDigit := isAsciiDigit_plainDigit digit
      rw [asciiDigits_digit digit, List.forall_mem_cons, List.filter_cons_of_pos isDigit,
        hypothesis.2, isDigit]
      exact ⟨⟨rfl, hypothesis.1⟩, rfl⟩
  | grouped digit _ hypothesis =>
      have isDigit := isAsciiDigit_plainDigit digit
      rw [asciiDigits_digit digit, asciiDigits_cons (by decide), List.forall_mem_cons, List.forall_mem_cons,
        List.filter_cons_of_pos isDigit, List.filter_cons_of_neg (by decide), hypothesis.2, isDigit]
      exact ⟨⟨rfl, rfl, hypothesis.1⟩, rfl⟩

section Integers

variable {text : String} {sign : Sign} {row : List Char}
  (signed : splitSign (asciiDigits (trim text.toList)) = (sign.negative, asciiDigits row))

include signed

theorem readInteger_of_part {values : List ℕ} (part : DigitPart row values) :
    readInteger text =
      if values.length > digitLimit then .error (.tooManyDigits ⟨values.length⟩)
      else .ok (Number.signed sign.negative (numberOf values)) := by
  have small := digitValue_lt_of_part part
  obtain ⟨inside, digits⟩ := part.scan
  have stripped : ungroup? false (asciiDigits row) = some (values.map plainDigit) := by
    have strips := part.strips .nil false
    rw [List.append_nil, List.append_nil] at strips
    exact strips.ungroup?_eq
  have nonempty : values.map plainDigit ≠ [] := by
    cases part <;> simp
  have isRow : (!(values.map plainDigit).isEmpty && (values.map plainDigit).all isAsciiDigit) = true := by
    rw [Bool.and_eq_true, List.all_eq_true]
    exact ⟨by simpa using nonempty, isAsciiDigit_of_mem_plainDigits small⟩
  simp only [readInteger, signed, List.takeWhile_eq_self_iff.mpr inside, digits, stripped,
    List.length_map, isRow, decimalValue_plainDigits small]
  simp

/-- What is read is stripped to digits, so it is made of digits and groups. -/
theorem exists_part_of_readInteger {number : ℤ} (read : readInteger text = .ok number) :
    ∃ values, DigitPart row values := by
  simp only [readInteger, signed] at read
  split at read
  · cases read
  · split at read
    · next plain stripped =>
        split at read
        · next isRow =>
            rw [Bool.and_eq_true, List.all_eq_true, Bool.not_eq_true', List.isEmpty_eq_false_iff] at isRow
            have strips := ungroup?_asciiDigits.mp stripped
            rw [← List.append_nil plain] at strips
            obtain ⟨part, values, behind, isPart, -, ends, rfl | ⟨impossible, -⟩⟩ :=
              strips.exists_part isRow.1 isRow.2
            · rw [ends.eq_nil, List.append_nil]
              exact ⟨values, isPart⟩
            · cases impossible
        · cases read
    · cases read

end Integers

/-- A text is read as an integer just if it spells one. -/
theorem readInteger_eq_ok {text : String} {number : ℤ} :
    readInteger text = .ok number ↔ SpellsInteger (trim text.toList) number := by
  constructor
  · intro read
    obtain ⟨sign, row, whole, signed⟩ := exists_sign (trim text.toList)
    obtain ⟨values, part⟩ := exists_part_of_readInteger signed read
    rw [readInteger_of_part signed part] at read
    split at read
    · cases read
    · next few =>
        cases read
        rw [whole]
        exact .literal sign part (not_lt.mp few)
  · intro spelled
    generalize whole : trim text.toList = written at spelled
    cases spelled with
    | @literal sign row values part few =>
        obtain ⟨c, value, rest, rfl, digit⟩ := part.exists_first
        have unsigned : splitSign (asciiDigits (c :: rest)) = (false, asciiDigits (c :: rest)) := by
          rw [asciiDigits_digit digit]
          exact splitSign_cons _ (.inl (isAsciiDigit_plainDigit digit))
        have signed : splitSign (asciiDigits (trim text.toList)) =
            (sign.negative, asciiDigits (c :: rest)) := by
          rw [whole, asciiDigits_append, asciiDigits_sign]
          exact splitSign_text sign unsigned
        rw [readInteger_of_part signed part, if_neg (not_lt.mpr few)]

/-! ### Signs of rounded numbers -/

theorem sign?_decode (negative : Bool) {magnitude : ℕ} (atMost : magnitude ≤ 2047 * twoTo 52) :
    (decode (Float.ofBits (UInt64.ofNat (signBit negative + magnitude)))).sign? = some negative := by
  have twoTo52 : twoTo 52 = 4503599627370496 := by decide
  obtain ⟨exponent, fraction, small, rfl⟩ :
      ∃ exponent fraction, fraction < twoTo 52 ∧ magnitude = exponent * twoTo 52 + fraction :=
    ⟨magnitude / twoTo 52, magnitude % twoTo 52, Nat.mod_lt _ (by decide), (Nat.div_add_mod' _ _).symm⟩
  have short : exponent < 2048 ∧ (exponent = 2047 → fraction = 0) := by
    rw [twoTo52] at atMost small
    omega
  rw [← ofFields, decode_ofFields negative short.1 small short.2]
  split
  · rfl
  · split <;> rfl

theorem sign?_nearest (negative : Bool) (numerator denominator : ℕ) :
    (decode (nearest negative numerator denominator)).sign? = some negative := by
  rw [nearest, nearestBits]
  split
  · exact @sign?_decode negative 0 (Nat.zero_le _)
  · exact sign?_decode negative (Nat.min_le_right _ _)

theorem sign?_nearestDecimal (negative : Bool) (digits : ℕ) (exponent : ℤ) :
    (decode (nearestDecimal negative digits exponent)).sign? = some negative := by
  rw [nearestDecimal]
  split
  · exact sign?_nearest _ _ _
  · split
    · cases negative <;> rfl
    · split
      · exact sign?_nearest _ _ _
      · split <;> exact sign?_nearest _ _ _

/-! ### Literals taken apart -/

/-- The sign that is taken off a text stands before the rest. -/
theorem splitSign_eq (text : List Char) :
    ∃ sign : Sign, text = sign.text ++ (splitSign text).2 ∧ (splitSign text).1 = sign.negative := by
  unfold splitSign
  split
  · exact ⟨.minus, rfl, rfl⟩
  · exact ⟨.plus, rfl, rfl⟩
  · exact ⟨.absent, rfl, rfl⟩

theorem IsDecimal.exists_sign {digits : List Char} {negative : Bool}
    (decimal : IsDecimal text negative digits) :
    IsDigitRow digits ∧ ∃ sign : Sign, text = sign.text ++ digits ∧ negative = sign.negative := by
  cases decimal with
  | bare row => exact ⟨row, .absent, rfl, rfl⟩
  | plus row => exact ⟨row, .plus, rfl, rfl⟩
  | minus row => exact ⟨row, .minus, rfl, rfl⟩

variable {power : ℤ}

/-- An exponent that is read is absent, or has a mark, a sign and digits. -/
theorem exists_of_exponentPart? (found : exponentPart? text = some power) :
    text = [] ∧ power = 0 ∨
      ∃ (mark : Char) (sign : Sign) (row : List Char), (mark = 'e' ∨ mark = 'E') ∧ IsDigitRow row ∧
        text = mark :: (sign.text ++ row) ∧ power = signed sign.negative (decimalValue row) := by
  cases text with
  | nil =>
      cases found
      exact .inl ⟨rfl, rfl⟩
  | cons mark rest =>
      rw [exponentPart?] at found
      split at found
      · next isMark =>
          rw [Bool.or_eq_true, beq_iff_eq, beq_iff_eq] at isMark
          obtain ⟨⟨negative, digits⟩, read, rfl⟩ := Option.map_eq_some_iff.mp found
          obtain ⟨isRow, sign, rfl, rfl⟩ := (signedDigits?_eq_some.mp read).exists_sign
          exact .inr ⟨mark, sign, digits, isMark, isRow, rfl, rfl⟩
      · cases found

theorem splitPoint_eq (text : List Char) :
    (∀ c ∈ (splitPoint text).1, isAsciiDigit c = true) ∧
      ((splitPoint text).1 = [] ∧ text = (splitPoint text).2 ∨
        text = '.' :: ((splitPoint text).1 ++ (splitPoint text).2)) := by
  unfold splitPoint
  split
  · refine ⟨fun c member => List.mem_takeWhile_imp member, .inr ?_⟩
    rw [List.takeWhile_append_dropWhile]
  · exact ⟨List.forall_mem_nil _, .inl ⟨rfl, rfl⟩⟩

/-- The parts of a literal that is read. -/
theorem exists_of_decimalLiteral? {literal : DecimalLiteral}
    (found : decimalLiteral? text = some literal) :
    (∀ c ∈ literal.whole, isAsciiDigit c = true) ∧ (∀ c ∈ literal.fraction, isAsciiDigit c = true) ∧
      (literal.whole ≠ [] ∨ literal.fraction ≠ []) ∧
      ∃ (sign : Sign) (point behind : List Char),
        text = sign.text ++ (literal.whole ++ (point ++ behind)) ∧ literal.negative = sign.negative ∧
        (point = [] ∧ literal.fraction = [] ∨ point = '.' :: literal.fraction) ∧
        exponentPart? behind = some literal.exponent := by
  rw [decimalLiteral?_eq] at found
  split at found
  · cases found
  · next hasDigit =>
      rw [Bool.and_eq_true, List.isEmpty_iff, List.isEmpty_iff, not_and_or] at hasDigit
      obtain ⟨exponent, read, rfl⟩ := Option.map_eq_some_iff.mp found
      obtain ⟨sign, whole, signs⟩ := splitSign_eq text
      obtain ⟨digits, shape⟩ := splitPoint_eq ((splitSign text).2.dropWhile isAsciiDigit)
      have scanned : (splitSign text).2.takeWhile isAsciiDigit ++ (splitSign text).2.dropWhile isAsciiDigit =
          (splitSign text).2 := List.takeWhile_append_dropWhile
      refine ⟨fun c member => List.mem_takeWhile_imp member, digits, hasDigit, sign, ?_⟩
      dsimp only
      rcases shape with ⟨none, rest⟩ | rest
      · refine ⟨[], _, ?_, signs, .inl ⟨rfl, none⟩, read⟩
        rw [List.nil_append, ← rest, scanned]
        exact whole
      · refine ⟨_, _, ?_, signs, .inr rfl, read⟩
        rw [List.cons_append, ← rest, scanned]
        exact whole

/-! ### Double precision numbers -/

theorem Strips.exists_sign (sign : Sign) (strips : Strips false text (sign.text ++ out)) :
    ∃ rest, text = sign.text ++ rest ∧ Strips false rest out := by
  cases sign with
  | absent => exact ⟨text, rfl, strips⟩
  | plus => exact strips.exists_other (by decide)
  | minus => exact strips.exists_other (by decide)

theorem strips_sign (sign : Sign) (follows : Strips false rest out) :
    Strips false (sign.text ++ rest) (sign.text ++ out) := by
  cases sign with
  | absent => exact follows
  | plus => exact .other (by decide) (by decide) follows
  | minus => exact .other (by decide) (by decide) follows

/-- What is stripped to digits or nothing is made of digits and groups or nothing. -/
theorem Strips.exists_optional (digits : ∀ c ∈ row, isAsciiDigit c = true)
    (strips : Strips false text (row ++ out)) :
    ∃ part values rest flag, OptionalPart part values ∧ row = values.map plainDigit ∧
      Strips flag rest out ∧ text = part ++ rest := by
  by_cases none : row = []
  · subst none
    exact ⟨[], [], text, false, .inl ⟨rfl, rfl⟩, rfl, strips, rfl⟩
  · obtain ⟨part, values, rest, isPart, same, follows, rfl | ⟨impossible, -⟩⟩ :=
      strips.exists_part none digits
    · exact ⟨part, values, rest, true, .inr isPart, same, follows, rfl⟩
    · cases impossible

theorem OptionalPart.strips (part : OptionalPart row values)
    (follows : ∀ flag, Strips flag rest out) :
    Strips false (row ++ rest) (values.map plainDigit ++ out) := by
  rcases part with ⟨rfl, rfl⟩ | part
  · exact follows false
  · exact part.strips (follows true) false

theorem OptionalPart.lt_ten (part : OptionalPart row values) :
    ∀ value ∈ values, value < 10 := by
  rcases part with ⟨-, rfl⟩ | part
  · exact List.forall_mem_nil _
  · exact digitValue_lt_of_part part

/-- An exponent that is read is spelled. -/
theorem Strips.exists_exponent {behind : List Char} (found : exponentPart? behind = some power)
    (strips : Strips flag text behind) : Exponent text power := by
  rcases exists_of_exponentPart? found with ⟨rfl, rfl⟩ | ⟨mark, sign, row, isMark, isRow, rfl, rfl⟩
  · rw [strips.eq_nil]
    exact .absent
  · have noDigit : isAsciiDigit mark = false := by
      rcases isMark with rfl | rfl <;> decide
    obtain ⟨unmarked, rfl, afterMark⟩ := strips.exists_other noDigit
    obtain ⟨unsigned, rfl, afterSign⟩ := afterMark.exists_sign sign
    rw [← List.append_nil row] at afterSign
    obtain ⟨part, values, rest, isPart, rfl, ends, rfl | ⟨impossible, -⟩⟩ :=
      afterSign.exists_part isRow.1 isRow.2
    · rw [ends.eq_nil, List.append_nil, decimalValue_plainDigits (digitValue_lt_of_part isPart)]
      exact .present isMark sign isPart
    · cases impossible

variable {whole fraction : List ℕ}

/-- The number of digits before and after the point by all digits together. -/
theorem decimalNumber_eq (power : ℤ) (wholeSmall : ∀ value ∈ whole, value < 10)
    (fractionSmall : ∀ value ∈ fraction, value < 10) :
    decimalNumber whole fraction power =
      decimalValue (whole.map plainDigit ++ fraction.map plainDigit) *
        10 ^ (power - (fraction.map plainDigit).length) := by
  have ten : (10 : ℚ) ≠ 0 := by norm_num
  have together : numberOf (whole ++ fraction) =
      numberOf whole * 10 ^ fraction.length + numberOf fraction := by
    rw [numberOf, List.reverse_append, Nat.ofDigits_append, List.length_reverse, numberOf, numberOf]
    ring
  have small : ∀ value ∈ whole ++ fraction, value < 10 :=
    List.forall_mem_append.mpr ⟨wholeSmall, fractionSmall⟩
  rw [← List.map_append, decimalValue_plainDigits small, together, List.length_map, decimalNumber,
    zpow_sub₀ ten, zpow_natCast]
  push_cast
  field_simp

/-- Behind the digits before a point, the point and the digits after it are spelled, if they are there. -/
theorem Strips.exists_mantissa {tail point digits behind : List Char}
    (isWhole : OptionalPart row whole) (areDigits : ∀ c ∈ digits, isAsciiDigit c = true)
    (hasDigit : whole ≠ [] ∨ digits ≠ [])
    (shape : point = [] ∧ digits = [] ∨ point = '.' :: digits)
    (strips : Strips flag tail (point ++ behind)) :
    ∃ mantissa fraction rest afterDigit, Mantissa (row ++ mantissa) whole fraction ∧
      digits = fraction.map plainDigit ∧ (∀ value ∈ fraction, value < 10) ∧
      Strips afterDigit rest behind ∧ tail = mantissa ++ rest := by
  rcases shape with ⟨rfl, rfl⟩ | rfl
  · rcases isWhole with ⟨rfl, rfl⟩ | part
    · simp at hasDigit
    · refine ⟨[], [], tail, flag, ?_, rfl, List.forall_mem_nil _, strips, rfl⟩
      rw [List.append_nil]
      exact .bare part
  · obtain ⟨afterPoint, rfl, follows⟩ := strips.exists_other (by decide)
    obtain ⟨part, fraction, rest, afterDigit, isFraction, rfl, behindAll, rfl⟩ :=
      follows.exists_optional areDigits
    rw [Ne, Ne, List.map_eq_nil_iff] at hasDigit
    exact ⟨'.' :: part, fraction, rest, afterDigit, .pointed isWhole isFraction hasDigit, rfl,
      isFraction.lt_ten, behindAll, rfl⟩

/-- A decimal literal that is read is spelled. -/
theorem Strips.spellsFloat {stripped : List Char} {literal : DecimalLiteral}
    (strips : Strips false text stripped) (found : decimalLiteral? stripped = some literal) :
    SpellsFloat text literal.toFloat := by
  obtain ⟨wholeDigits, fractionDigits, hasDigit, sign, point, behind, rfl, signs, shape, exponent⟩ :=
    exists_of_decimalLiteral? found
  obtain ⟨unsigned, rfl, afterSign⟩ := strips.exists_sign sign
  obtain ⟨row, whole, tail, flag, isWhole, wholeEq, afterWhole, rfl⟩ :=
    afterSign.exists_optional wholeDigits
  rw [wholeEq, Ne, List.map_eq_nil_iff] at hasDigit
  obtain ⟨mantissa, fraction, rest, flag, isMantissa, fractionEq, fractionSmall, afterMantissa, rfl⟩ :=
    afterWhole.exists_mantissa isWhole fractionDigits hasDigit shape
  rw [← List.append_assoc row]
  refine .decimal sign isMantissa (afterMantissa.exists_exponent exponent) ?_ ?_
  · rw [decimalNumber_eq _ isWhole.lt_ten fractionSmall, ← wholeEq, ← fractionEq, ← signs]
    exact rounds_nearestDecimal _ _ _
  · rw [← signs]
    exact sign?_nearestDecimal _ _ _

/-- A spelled exponent is stripped to one that is read. -/
theorem Exponent.exists_plain (exponent : Exponent text power) :
    ∃ plain, (∀ flag, Strips flag text plain) ∧ exponentPart? plain = some power ∧
      ∀ c ∈ plain.head?, isAsciiDigit c = false ∧ c ≠ '.' := by
  cases exponent with
  | absent => exact ⟨[], fun _ => .nil, rfl, by simp⟩
  | @present mark isMark sign row values part =>
      have markKinds : digitValue mark = none ∧ mark ≠ '_' ∧ isAsciiDigit mark = false ∧ mark ≠ '.' := by
        rcases isMark with rfl | rfl <;> decide
      have strips := part.strips .nil false
      rw [List.append_nil, List.append_nil] at strips
      have small := digitValue_lt_of_part part
      have isRow : IsDigitRow (values.map plainDigit) := by
        refine ⟨?_, isAsciiDigit_of_mem_plainDigits small⟩
        cases part <;> simp
      have decimal : IsDecimal (sign.text ++ values.map plainDigit) sign.negative
          (values.map plainDigit) := by
        cases sign with
        | absent => exact .bare isRow
        | plus => exact .plus isRow
        | minus => exact .minus isRow
      refine ⟨mark :: (sign.text ++ values.map plainDigit), ?_, ?_, ?_⟩
      · intro flag
        exact .other markKinds.1 markKinds.2.1 (strips_sign sign strips)
      · rw [exponentPart?, if_pos (by simpa using isMark), signedDigits?_eq_some.mpr decimal,
          Option.map_some, ← decimalValue_plainDigits small]
      · rintro c ⟨⟩
        exact markKinds.2.2

/-- Spelled digits with a point are stripped to ones that are taken apart. -/
theorem Mantissa.exists_point {plain : List Char} (mantissa : Mantissa text whole fraction)
    (follows : ∀ flag, Strips flag rest plain)
    (head : ∀ c ∈ plain.head?, isAsciiDigit c = false ∧ c ≠ '.') :
    ∃ point, Strips false (text ++ rest) (whole.map plainDigit ++ (point ++ plain)) ∧
      splitPoint (point ++ plain) = (fraction.map plainDigit, plain) ∧
      (∀ c ∈ (point ++ plain).head?, isAsciiDigit c = false) ∧
      (whole = [] → ∃ behind, point ++ plain = '.' :: behind) ∧
      (whole ≠ [] ∨ fraction ≠ []) ∧ ∀ value ∈ whole, value < 10 := by
  cases mantissa with
  | bare part =>
      refine ⟨[], part.strips (follows true) false, ?_, fun c first => (head c first).1, ?_, .inl ?_,
        digitValue_lt_of_part part⟩
      · rw [List.nil_append, splitPoint]
        · rfl
        · intro behind same
          rw [same] at head
          exact (head '.' rfl).2 rfl
      · intro none
        cases part <;> cases none
      · cases part <;> simp
  | pointed before after hasDigit =>
      have digits := isAsciiDigit_of_mem_plainDigits after.lt_ten
      obtain ⟨taken, dropped⟩ := scan_row digits fun c first => (head c first).1
      refine ⟨'.' :: fraction.map plainDigit, ?_, ?_, ?_, fun _ => ⟨_, rfl⟩, hasDigit, before.lt_ten⟩
      · rw [List.append_assoc]
        exact before.strips fun flag => .other (by decide) (by decide) (after.strips follows)
      · rw [List.cons_append, splitPoint, taken, dropped]
      · rintro c ⟨⟩
        decide

/-- A spelled decimal literal is read. -/
theorem exists_decimalLiteral? (sign : Sign) {mantissa exponent : List Char}
    (digits : Mantissa mantissa whole fraction) (scale : Exponent exponent power) :
    ∃ stripped literal, Strips false (sign.text ++ (mantissa ++ exponent)) stripped ∧
      decimalLiteral? stripped = some literal := by
  obtain ⟨plain, follows, read, head⟩ := scale.exists_plain
  obtain ⟨point, strips, splits, ends, pointed, hasDigit, small⟩ := digits.exists_point follows head
  have isRow := isAsciiDigit_of_mem_plainDigits small
  obtain ⟨taken, dropped⟩ := scan_row isRow ends
  have unsigned : splitSign (whole.map plainDigit ++ (point ++ plain)) =
      (false, whole.map plainDigit ++ (point ++ plain)) := by
    cases whole with
    | nil =>
        -- Without digits before the point it begins with the point.
        obtain ⟨behind, same⟩ := pointed rfl
        rw [same]
        exact splitSign_cons _ (.inr rfl)
    | cons value values => exact splitSign_cons _ (.inl (isRow _ List.mem_cons_self))
  have someDigit : whole.map plainDigit ≠ [] ∨ fraction.map plainDigit ≠ [] := by
    rwa [Ne, Ne, List.map_eq_nil_iff, List.map_eq_nil_iff]
  refine ⟨_, ⟨sign.negative, whole.map plainDigit, fraction.map plainDigit, power⟩,
    strips_sign sign strips, ?_⟩
  rw [decimalLiteral?_of_parts (splitSign_text sign unsigned) taken dropped splits someDigit, read]
  rfl

/-! ### Words for numbers -/

/-- The words for numbers. -/
def numberWords : List String := ["inf", "infinity", "nan"]

/-- A digit is no letter. -/
theorem asciiLower_of_digitValue (digit : digitValue c = some value) :
    asciiLower c = c := by
  obtain ⟨start, first, -⟩ := Option.map_eq_some_iff.mp digit
  have inside := List.find?_some first
  simp only [Bool.and_eq_true, decide_eq_true_eq] at inside
  have apart : ∀ start ∈ digitZeros, start + 10 ≤ 0x41 ∨ 0x5A < start := by decide
  have here := apart start (List.mem_of_find?_eq_some first)
  rw [asciiLower, if_neg]
  simp only [Bool.and_eq_true, decide_eq_true_eq]
  omega

theorem all_letters : (numberWords.all fun word => word.toList.all fun c =>
    (digitValue c).isNone && c != '-' && c != '+') = true := by
  decide +kernel

/-- A word for a number has no digits and no sign in it. -/
theorem letters_of_isWord {word : List Char} (isWord : String.ofList (word.map asciiLower) ∈ numberWords) :
    ∀ c ∈ word, digitValue c = none ∧ c ≠ '-' ∧ c ≠ '+' := by
  intro c member
  have lower : asciiLower c ∈ (String.ofList (word.map asciiLower)).toList := by
    rw [String.toList_ofList]
    exact List.mem_map_of_mem member
  have letter := List.all_eq_true.mp (List.all_eq_true.mp all_letters _ isWord) _ lower
  simp only [Bool.and_eq_true, Option.isNone_iff_eq_none, bne_iff_ne] at letter
  obtain ⟨⟨noDigit, notMinus⟩, notPlus⟩ := letter
  refine ⟨?_, ?_, ?_⟩
  · cases digit : digitValue c with
    | none => rfl
    | some value =>
        rw [asciiLower_of_digitValue digit, digit] at noDigit
        cases noDigit
  · rintro rfl
    exact notMinus rfl
  · rintro rfl
    exact notPlus rfl

/-- A text without digits is kept, and so is one that is kept without digits. -/
theorem asciiDigits_eq_self (noDigits : ∀ c ∈ text, digitValue c = none) :
    asciiDigits text = text := by
  rw [asciiDigits]
  refine (List.map_congr_left fun c member => ?_).trans (List.map_id text)
  rw [noDigits c member]
  rfl

theorem eq_of_asciiDigits (noDigits : ∀ c ∈ asciiDigits text, digitValue c = none) :
    asciiDigits text = text := by
  apply asciiDigits_eq_self
  intro c member
  cases digit : digitValue c with
  | none => rfl
  | some value =>
      have inside : plainDigit value ∈ asciiDigits text := by
        refine List.mem_map.mpr ⟨c, member, ?_⟩
        rw [digit]
        rfl
      have impossible := isAsciiDigit_of_digitValue (noDigits _ inside)
      rw [isAsciiDigit_plainDigit digit] at impossible
      cases impossible

variable {number : Float}

/-- What is read as a word for a number is one. -/
theorem spellsFloat_of_namedFloat? (named : namedFloat? (asciiDigits text) = some number) :
    SpellsFloat text number := by
  obtain ⟨sign, rest, rfl, signed⟩ := exists_sign text
  have kept (isWord : String.ofList ((asciiDigits rest).map asciiLower) ∈ numberWords) :
      asciiDigits rest = rest := eq_of_asciiDigits fun c member => (letters_of_isWord isWord c member).1
  simp only [namedFloat?, signed] at named
  split at named
  · next isWord =>
      have isNumberWord : String.ofList ((asciiDigits rest).map asciiLower) ∈ ["inf", "infinity"] := by
        simpa using isWord
      rw [kept (List.mem_append_left ["nan"] isNumberWord)] at isNumberWord
      cases named
      refine .infinity sign isNumberWord ?_
      cases sign.negative <;> rfl
  · split at named
    · next isWord =>
        rw [beq_iff_eq] at isWord
        have isNumberWord : String.ofList ((asciiDigits rest).map asciiLower) ∈ numberWords := by
          rw [isWord]
          decide
        rw [kept isNumberWord] at isWord
        cases named
        exact .nan sign isWord rfl
    · cases named

/-- A word for a number is read. -/
theorem exists_namedFloat? (sign : Sign) {word : List Char}
    (isWord : String.ofList (word.map asciiLower) ∈ numberWords) :
    ∃ number, namedFloat? (asciiDigits (sign.text ++ word)) = some number := by
  have letters := letters_of_isWord isWord
  have unsigned : splitSign word = (false, word) := by
    cases word with
    | nil => rfl
    | cons c rest =>
        obtain ⟨-, notMinus, notPlus⟩ := letters c List.mem_cons_self
        exact splitSign_unsigned notMinus notPlus rest
  rw [asciiDigits_append, asciiDigits_sign, asciiDigits_eq_self fun c member => (letters c member).1]
  simp only [namedFloat?, splitSign_text sign unsigned]
  split
  · exact ⟨_, rfl⟩
  · next noInfinity =>
      rw [if_pos]
      · exact ⟨_, rfl⟩
      · simp only [numberWords, List.mem_cons, List.not_mem_nil, or_false] at isWord
        simp only [Bool.or_eq_true, beq_iff_eq] at noInfinity ⊢
        tauto

/-- A number that is read is the one that the text spells. -/
theorem readFloat?_spells {text : String} (read : readFloat? text = some number) :
    SpellsFloat (trim text.toList) number := by
  simp only [readFloat?] at read
  split at read
  · next named =>
      cases read
      exact spellsFloat_of_namedFloat? named
  · obtain ⟨stripped, ungrouped, found⟩ := Option.bind_eq_some_iff.mp read
    obtain ⟨literal, isLiteral, rfl⟩ := Option.map_eq_some_iff.mp found
    exact (ungroup?_asciiDigits.mp ungrouped).spellsFloat isLiteral

/-- A text that spells a number is read as one. -/
theorem exists_readFloat? {text : String} (spelled : SpellsFloat (trim text.toList) number) :
    ∃ other, readFloat? text = some other := by
  generalize whole : trim text.toList = written at spelled
  simp only [readFloat?, whole]
  split
  · exact ⟨_, rfl⟩
  · next noName =>
      cases spelled with
      | decimal sign digits scale =>
          obtain ⟨stripped, literal, strips, found⟩ := exists_decimalLiteral? sign digits scale
          rw [strips.ungroup?_eq, Option.bind_some, found]
          exact ⟨_, rfl⟩
      | infinity sign isWord =>
          obtain ⟨named, read⟩ := exists_namedFloat? sign (List.mem_append_left ["nan"] isWord)
          rw [noName] at read
          cases read
      | nan sign isWord =>
          obtain ⟨named, read⟩ := exists_namedFloat? sign (by rw [isWord]; decide)
          rw [noName] at read
          cases read

end InputScript.Number
