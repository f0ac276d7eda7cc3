/-
Module: InputScript.Proofs.Encoding
Purpose: Text in files.  The bytes that a text is written to are read back as that text, and a text
  without carriage returns is cut into the lines that it was made of.
Main exports: decodeBytes_encodeBytes, unifyLineEnds_eq_self
-/
import InputScript.Text.Utf8
import Mathlib.Data.List.Basic

namespace InputScript.Text

/-! ### Bytes -/

theorem byteArray_loop_eq (bytes : ByteArray) (position : Nat) (read : List UInt8) :
    ByteArray.toList.loop bytes position read = read.reverse ++ bytes.data.toList.drop position := by
  fun_induction ByteArray.toList.loop bytes position read with
  | case1 position read inside hypothesis =>
      have bound : position < bytes.data.toList.length := by simpa using inside
      rw [hypothesis, List.drop_eq_getElem_cons bound, List.reverse_cons, List.append_assoc,
        List.singleton_append]
      simp [ByteArray.get!, inside]
  | case2 position read outside =>
      rw [List.drop_eq_nil_of_le (by simpa using Nat.le_of_not_lt outside), List.append_nil]

/-- The bytes of a text are those of its characters. -/
theorem encodeBytes_eq (text : String) :
    encodeBytes text = text.toList.flatMap String.utf8EncodeChar := by
  have spelled : text.toUTF8 = (text.toList.flatMap String.utf8EncodeChar).toByteArray := by
    conv => lhs; rw [← String.ofList_toList (s := text)]
    rfl
  rw [encodeBytes, spelled, ByteArray.toList, byteArray_loop_eq, List.reverse_nil, List.nil_append,
    List.drop_zero, List.toList_data_toByteArray]

theorem toNat_byte {value : Nat} (small : value < 256) : (UInt8.ofNat value).toNat = value :=
  UInt8.toNat_ofNat_of_lt' small

theorem continues_byte {least greatest value : Nat} (small : value < 256)
    (inside : least ≤ value ∧ value ≤ greatest) :
    continues least greatest (UInt8.ofNat value) = true := by
  rw [continues, toNat_byte small, Bool.and_eq_true, decide_eq_true_eq, decide_eq_true_eq]
  exact inside

theorem payload_byte {value : Nat} (small : value < 64) :
    payload (UInt8.ofNat (value + 0x80)) = value := by
  rw [payload, toNat_byte (by omega)]
  omega

section Characters

variable {code : Nat} (position : Nat) (rest : List UInt8)

theorem decodeFrom_one (small : code ≤ 0x7F) :
    decodeFrom position (UInt8.ofNat code :: rest) = .cons code (decodeFrom (position + 1) rest) := by
  rw [decodeFrom.eq_def]
  simp only [toNat_byte (show code < 256 by omega)]
  rw [if_pos (by omega)]

theorem decodeFrom_two (large : 0x7F < code) (small : code ≤ 0x7FF) :
    decodeFrom position (UInt8.ofNat (code / 64 % 32 + 0xC0) :: UInt8.ofNat (code % 64 + 0x80) :: rest) =
      .cons code (decodeFrom (position + 2) rest) := by
  have lead := toNat_byte (show code / 64 % 32 + 0xC0 < 256 by omega)
  have started : (decide (code / 64 % 32 + 0xC0 < 0xC2) || decide (0xF4 < code / 64 % 32 + 0xC0)) =
      false := by
    rw [Bool.or_eq_false_iff, decide_eq_false_iff_not, decide_eq_false_iff_not]
    omega
  have second : continues 0x80 0xBF (UInt8.ofNat (code % 64 + 0x80)) = true :=
    continues_byte (by omega) (by omega)
  have value : (code / 64 % 32 + 0xC0) % 32 * 64 + code % 64 = code := by omega
  rw [decodeFrom.eq_def]
  simp only [lead, started, second, payload_byte (Nat.mod_lt code (by decide : 64 > 0)), value]
  rw [if_neg (by omega), if_neg Bool.false_ne_true, if_pos (by omega), if_pos trivial]

/-- A character of three bytes that is no surrogate has a second byte within the bounds of the first. -/
theorem continues_secondOfThree (large : 0x7FF < code) (small : code ≤ 0xFFFF)
    (valid : code < 0xD800 ∨ 0xDFFF < code) :
    continues (secondOfThree (code / 4096 % 16 + 0xE0)).1 (secondOfThree (code / 4096 % 16 + 0xE0)).2
      (UInt8.ofNat (code / 64 % 64 + 0x80)) = true := by
  unfold secondOfThree
  split
  · next least =>
      rw [beq_iff_eq] at least
      exact continues_byte (by omega) (by omega)
  · split
    · next surrogates =>
        rw [beq_iff_eq] at surrogates
        exact continues_byte (by omega) (by omega)
    · exact continues_byte (by omega) (by omega)

theorem decodeFrom_three (large : 0x7FF < code) (small : code ≤ 0xFFFF)
    (valid : code < 0xD800 ∨ 0xDFFF < code) :
    decodeFrom position (UInt8.ofNat (code / 4096 % 16 + 0xE0) ::
        UInt8.ofNat (code / 64 % 64 + 0x80) :: UInt8.ofNat (code % 64 + 0x80) :: rest) =
      .cons code (decodeFrom (position + 3) rest) := by
  have lead := toNat_byte (show code / 4096 % 16 + 0xE0 < 256 by omega)
  have started : (decide (code / 4096 % 16 + 0xE0 < 0xC2) || decide (0xF4 < code / 4096 % 16 + 0xE0)) =
      false := by
    rw [Bool.or_eq_false_iff, decide_eq_false_iff_not, decide_eq_false_iff_not]
    omega
  have second := continues_secondOfThree large small valid
  have third : continues 0x80 0xBF (UInt8.ofNat (code % 64 + 0x80)) = true :=
    continues_byte (by omega) (by omega)
  have value : (code / 4096 % 16 + 0xE0) % 16 * 4096 + code / 64 % 64 * 64 + code % 64 = code := by
    omega
  rw [decodeFrom.eq_def]
  simp only [lead, started, if_pos (show code / 4096 % 16 + 0xE0 < 0xF0 by omega), second, third,
    payload_byte (Nat.mod_lt _ (by decide : 64 > 0)), value]
  rw [if_neg (by omega), if_neg Bool.false_ne_true, if_neg (by omega), if_neg (by simp),
    if_neg (by simp)]

/-- A character of four bytes has a second byte within the bounds of the first. -/
theorem continues_secondOfFour (large : 0xFFFF < code) (small : code < 0x110000) :
    continues (secondOfFour (code / 262144 % 8 + 0xF0)).1 (secondOfFour (code / 262144 % 8 + 0xF0)).2
      (UInt8.ofNat (code / 4096 % 64 + 0x80)) = true := by
  unfold secondOfFour
  split
  · next least =>
      rw [beq_iff_eq] at least
      exact continues_byte (by omega) (by omega)
  · split
    · next greatest =>
        rw [beq_iff_eq] at greatest
        exact continues_byte (by omega) (by omega)
    · exact continues_byte (by omega) (by omega)

theorem decodeFrom_four (large : 0xFFFF < code) (small : code < 0x110000) :
    decodeFrom position (UInt8.ofNat (code / 262144 % 8 + 0xF0) ::
        UInt8.ofNat (code / 4096 % 64 + 0x80) :: UInt8.ofNat (code / 64 % 64 + 0x80) ::
          UInt8.ofNat (code % 64 + 0x80) :: rest) =
      .cons code (decodeFrom (position + 4) rest) := by
  have lead := toNat_byte (show code / 262144 % 8 + 0xF0 < 256 by omega)
  have started : (decide (code / 262144 % 8 + 0xF0 < 0xC2) || decide (0xF4 < code / 262144 % 8 + 0xF0)) =
      false := by
    rw [Bool.or_eq_false_iff, decide_eq_false_iff_not, decide_eq_false_iff_not]
    omega
  have second := continues_secondOfFour large small
  have third : continues 0x80 0xBF (UInt8.ofNat (code / 64 % 64 + 0x80)) = true :=
    continues_byte (by omega) (by omega)
  have fourth : continues 0x80 0xBF (UInt8.ofNat (code % 64 + 0x80)) = true :=
    continues_byte (by omega) (by omega)
  have value : (code / 262144 % 8 + 0xF0) % 8 * 262144 + code / 4096 % 64 * 4096 +
      code / 64 % 64 * 64 + code % 64 = code := by omega
  have long : ¬code / 262144 % 8 + 0xF0 < 0xF0 := by omega
  rw [decodeFrom.eq_def]
  simp only [lead, started, if_neg long, second, third, fourth,
    payload_byte (Nat.mod_lt _ (by decide : 64 > 0)), value]
  rw [if_neg (by omega), if_neg Bool.false_ne_true, if_neg (by omega), if_neg (by simp),
    if_neg (by simp), if_pos trivial]

end Characters

theorem decodeFrom_utf8EncodeChar (c : Char) (position : Nat) (rest : List UInt8) :
    ∃ further, decodeFrom position (String.utf8EncodeChar c ++ rest) =
      .cons c.toNat (decodeFrom further rest) := by
  have valid : c.toNat < 0xD800 ∨ 0xDFFF < c.toNat ∧ c.toNat < 0x110000 := c.valid
  have code : c.val.toNat = c.toNat := rfl
  simp only [String.utf8EncodeChar, code]
  split
  · next small => exact ⟨_, decodeFrom_one position rest small⟩
  · next large =>
      split
      · next small => exact ⟨_, decodeFrom_two position rest (Nat.lt_of_not_le large) small⟩
      · next large =>
          split
          · next small =>
              exact ⟨_, decodeFrom_three position rest (Nat.lt_of_not_le large) small (by omega)⟩
          · next large =>
              exact ⟨_, decodeFrom_four position rest (Nat.lt_of_not_le large) (by omega)⟩

/-- The bytes that a text is written to are read back as that text. -/
theorem decodeBytes_encodeBytes (text : String) :
    decodeBytes (encodeBytes text) = ⟨text.toList, .complete⟩ := by
  have characters (letters : List Char) (position : Nat) :
      decodeFrom position (letters.flatMap String.utf8EncodeChar) = ⟨letters, .complete⟩ := by
    induction letters generalizing position with
    | nil => rfl
    | cons c letters hypothesis =>
        rw [List.flatMap_cons]
        obtain ⟨further, decoded⟩ := decodeFrom_utf8EncodeChar c position
          (letters.flatMap String.utf8EncodeChar)
        rw [decoded, hypothesis, Decoded.cons, Char.ofNat_toNat]
  rw [decodeBytes, encodeBytes_eq, characters]

/-! ### Lines -/

/-- Without carriage returns all ends of lines are written in one way. -/
theorem unifyLineEnds_eq_self {text : List Char} (plain : '\r' ∉ text) : unifyLineEnds text = text := by
  fun_induction unifyLineEnds text with
  | case1 => rfl
  | case2 rest _ => exact absurd List.mem_cons_self plain
  | case3 c rest _ hypothesis =>
      rw [List.mem_cons, not_or] at plain
      rw [hypothesis plain.2, if_neg]
      rw [beq_iff_eq]
      exact Ne.symm plain.1

theorem not_mem_unifyLineEnds (text : List Char) : '\r' ∉ unifyLineEnds text := by
  fun_induction unifyLineEnds text with
  | case1 => exact List.not_mem_nil
  | case2 rest hypothesis =>
      rw [List.mem_cons, not_or]
      exact ⟨by decide, hypothesis⟩
  | case3 c rest _ hypothesis =>
      rw [List.mem_cons, not_or]
      refine ⟨?_, hypothesis⟩
      split
      · decide
      · next other =>
          rw [beq_iff_eq] at other
          exact Ne.symm other

/-- A text is cut after each line. -/
theorem linesWithEnds_append {line : List Char} (single : '\n' ∉ line) (rest : List Char) :
    linesWithEnds (line ++ '\n' :: rest) = (line ++ ['\n']) :: linesWithEnds rest := by
  induction line with
  | nil =>
      rw [List.nil_append, linesWithEnds, if_pos (beq_self_eq_true _)]
      rfl
  | cons c line hypothesis =>
      rw [List.mem_cons, not_or] at single
      have joins : (c == '\n') = false := beq_eq_false_iff_ne.mpr (Ne.symm single.1)
      rw [List.cons_append, linesWithEnds, joins, if_neg Bool.false_ne_true,
        hypothesis single.2]
      rfl

/-- A line with or without its end. -/
def IsLine (line : List Char) : Prop :=
  ∃ body, '\n' ∉ body ∧ (line = body ∨ line = body ++ ['\n'])

theorem isLine_of_mem_linesWithEnds {text line : List Char} (member : line ∈ linesWithEnds text) :
    IsLine line ∧ ∀ c ∈ line, c ∈ text := by
  induction text generalizing line with
  | nil => cases member
  | cons c rest hypothesis =>
      rw [linesWithEnds] at member
      split at member
      · next ends =>
          rw [beq_iff_eq] at ends
          rcases List.mem_cons.mp member with rfl | later
          · refine ⟨⟨[], List.not_mem_nil, .inr rfl⟩, ?_⟩
            rw [ends]
            exact List.forall_mem_singleton.mpr List.mem_cons_self
          · obtain ⟨isLine, inside⟩ := hypothesis later
            exact ⟨isLine, fun letter found => List.mem_cons_of_mem _ (inside letter found)⟩
      · next joins =>
          rw [beq_iff_eq] at joins
          split at member
          · rw [List.mem_singleton] at member
            subst member
            refine ⟨⟨[c], ?_, .inl rfl⟩, List.forall_mem_singleton.mpr List.mem_cons_self⟩
            rw [List.mem_singleton]
            exact Ne.symm joins
          · next first others split =>
              rw [split] at hypothesis
              rcases List.mem_cons.mp member with rfl | later
              · obtain ⟨⟨body, single, shape⟩, inside⟩ := hypothesis List.mem_cons_self
                refine ⟨⟨c :: body, ?_, ?_⟩, ?_⟩
                · rw [List.mem_cons, not_or]
                  exact ⟨Ne.symm joins, single⟩
                · rcases shape with rfl | rfl
                  · exact .inl rfl
                  · exact .inr rfl
                · refine List.forall_mem_cons.mpr ⟨List.mem_cons_self, fun letter found => ?_⟩
                  exact List.mem_cons_of_mem _ (inside letter found)
              · obtain ⟨isLine, inside⟩ := hypothesis (List.mem_cons_of_mem _ later)
                exact ⟨isLine, fun letter found => List.mem_cons_of_mem _ (inside letter found)⟩

end InputScript.Text
