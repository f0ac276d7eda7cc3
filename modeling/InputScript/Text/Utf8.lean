/-
Module: InputScript.Text.Utf8
Purpose: Text in files: decoding of bytes, with the place and the reason of what cannot be decoded,
  and the ends of lines.
Main exports: DecodeFault, Decoded, decodeBytes, linesWithEnds
-/
import InputScript.Text.Quoted

namespace InputScript.Text

/-- Why bytes are no text. -/
inductive DecodeReason where
  | invalidStart
  | invalidContinuation
  | unexpectedEnd
  deriving DecidableEq, Repr

/-- The wording of a reason. -/
def DecodeReason.text : DecodeReason → String
  | .invalidStart => "invalid start byte"
  | .invalidContinuation => "invalid continuation byte"
  | .unexpectedEnd => "unexpected end of data"

/-- Bytes that are no text: their place, the bytes themselves, and the reason. -/
structure DecodeFault where
  position : Nat
  bytes : List UInt8
  reason : DecodeReason
  deriving DecidableEq, Repr

/-- The wording of a decoding fault. -/
def DecodeFault.message (fault : DecodeFault) : String :=
  let reason := fault.reason.text
  match fault.bytes with
  | [byte] =>
    let shown := String.ofList (hexDigits 2 byte.toNat)
    s!"'utf-8' codec can't decode byte 0x{shown} in position {fault.position}: {reason}"
  | bytes =>
    let last := fault.position + bytes.length - 1
    s!"'utf-8' codec can't decode bytes in position {fault.position}-{last}: {reason}"

/-- How decoding ends. -/
inductive DecodeEnd where
  | complete
  /-- The bytes at some place are no text. -/
  | invalid (fault : DecodeFault)
  /-- The bytes end within a character. -/
  | cut (bytes : List UInt8)
  deriving DecidableEq, Repr

/-- The text that bytes begin with, and how it ends. -/
structure Decoded where
  text : List Char
  ending : DecodeEnd
  deriving DecidableEq, Repr

/-- Put a character in front. -/
def Decoded.cons (code : Nat) (decoded : Decoded) : Decoded :=
  { decoded with text := Char.ofNat code :: decoded.text }

/-- Whether a byte is a continuation byte within bounds. -/
def continues (least greatest : Nat) (byte : UInt8) : Bool :=
  least ≤ byte.toNat && byte.toNat ≤ greatest

/-- The value bits of a continuation byte. -/
def payload (byte : UInt8) : Nat := byte.toNat % 64

/-- The bounds of the second byte of a character of three bytes. -/
def secondOfThree (lead : Nat) : Nat × Nat :=
  if lead == 0xE0 then (0xA0, 0xBF)
  else if lead == 0xED then (0x80, 0x9F)
  else (0x80, 0xBF)

/-- The bounds of the second byte of a character of four bytes. -/
def secondOfFour (lead : Nat) : Nat × Nat :=
  if lead == 0xF0 then (0x90, 0xBF)
  else if lead == 0xF4 then (0x80, 0x8F)
  else (0x80, 0xBF)

/-- Stop at bytes that are no text. -/
def invalidAt (position : Nat) (bytes : List UInt8) (reason : DecodeReason) : Decoded :=
  ⟨[], .invalid ⟨position, bytes, reason⟩⟩

/-- Decode bytes that stand at a position. -/
def decodeFrom (position : Nat) : List UInt8 → Decoded
  | [] => ⟨[], .complete⟩
  | lead :: rest =>
    let value := lead.toNat
    if value < 0x80 then .cons value (decodeFrom (position + 1) rest)
    else if value < 0xC2 || 0xF4 < value then invalidAt position [lead] .invalidStart
    else
      match rest with
      | [] => ⟨[], .cut [lead]⟩
      | second :: afterSecond =>
        if value < 0xE0 then
          if continues 0x80 0xBF second then
            .cons (value % 32 * 64 + payload second) (decodeFrom (position + 2) afterSecond)
          else invalidAt position [lead] .invalidContinuation
        else
          let bounds := if value < 0xF0 then secondOfThree value else secondOfFour value
          if !continues bounds.1 bounds.2 second then
            invalidAt position [lead] .invalidContinuation
          else
            match afterSecond with
            | [] => ⟨[], .cut [lead, second]⟩
            | third :: afterThird =>
              if !continues 0x80 0xBF third then
                invalidAt position [lead, second] .invalidContinuation
              else if value < 0xF0 then
                .cons (value % 16 * 4096 + payload second * 64 + payload third)
                  (decodeFrom (position + 3) afterThird)
              else
                match afterThird with
                | [] => ⟨[], .cut [lead, second, third]⟩
                | fourth :: afterFourth =>
                  if continues 0x80 0xBF fourth then
                    .cons
                      (value % 8 * 262144 + payload second * 4096 + payload third * 64 +
                        payload fourth)
                      (decodeFrom (position + 4) afterFourth)
                  else invalidAt position [lead, second, third] .invalidContinuation

/-- Decode bytes. -/
def decodeBytes (bytes : List UInt8) : Decoded :=
  decodeFrom 0 bytes

/-- What is wrong with bytes that are decoded as a whole. -/
def Decoded.fault? (length : Nat) (decoded : Decoded) : Option DecodeFault :=
  match decoded.ending with
  | .complete => none
  | .invalid fault => some fault
  | .cut bytes => some ⟨length - bytes.length, bytes, .unexpectedEnd⟩

/-- The bytes of a text. -/
def encodeBytes (text : String) : List UInt8 :=
  text.toUTF8.toList

/-! ### Ends of lines -/

/-- Write all ends of lines in one way. -/
def unifyLineEnds : List Char → List Char
  | [] => []
  | '\r' :: '\n' :: rest => '\n' :: unifyLineEnds rest
  | c :: rest => (if c == '\r' then '\n' else c) :: unifyLineEnds rest

/-- The lines of a text, each with its end; the last one may have none. -/
def linesWithEnds : List Char → List (List Char)
  | [] => []
  | c :: rest =>
    if c == '\n' then ['\n'] :: linesWithEnds rest
    else
      match linesWithEnds rest with
      | [] => [[c]]
      | line :: others => (c :: line) :: others

end InputScript.Text
