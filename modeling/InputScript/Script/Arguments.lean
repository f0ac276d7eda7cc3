/-
Module: InputScript.Script.Arguments
Purpose: Reading an argument text: its pieces outside of brackets, and the nested steps among them.
Main exports: isBalanced, outerPieces, tokenize, fitsWithin
-/
import InputScript.Script.Alias
import InputScript.Script.Step
import InputScript.Text.Blank

namespace InputScript.Script

open Text

/-! ### Brackets -/

/-- The characters between two arguments. -/
def separatesArguments (c : Char) : Bool :=
  isBlank c || c == ','

/-- Whether the brackets of a text pair up when `depth` of them are open before it. -/
def isBalancedFrom : Nat → List Char → Bool
  | depth, [] => depth == 0
  | depth, c :: rest =>
    if c == openBracket then isBalancedFrom (depth + 1) rest
    else if c == closeBracket then
      match depth with
      | 0 => false
      | outer + 1 => isBalancedFrom outer rest
    else isBalancedFrom depth rest

/-- Whether the brackets of a text pair up. -/
def isBalanced (text : List Char) : Bool :=
  isBalancedFrom 0 text

/-- The number of open brackets after a character. -/
def depthAfter (depth : Nat) (c : Char) : Nat :=
  if c == openBracket then depth + 1
  else if c == closeBracket then depth - 1
  else depth

/-- The pieces of a text between the separators that stand outside of brackets, empty pieces
included, when `depth` brackets are open before it. -/
def splitOutside : Nat → List Char → List (List Char)
  | _, [] => [[]]
  | depth, c :: rest =>
    if depth == 0 && separatesArguments c then
      [] :: splitOutside 0 rest
    else
      match splitOutside (depthAfter depth c) rest with
      | [] => [[c]]
      | piece :: pieces => (c :: piece) :: pieces

/-- The non-empty pieces between the separators that stand outside of brackets. -/
def outerPieces (text : List Char) : List (List Char) :=
  (splitOutside 0 text).filter (!·.isEmpty)

/-! ### Nested steps -/

/-- The characters that the name of a nested step is made of. -/
def isNameChar (c : Char) : Bool :=
  !(isBlank c || c == ',' || c == openBracket || c == closeBracket || c == separator)

/-- A piece that is a name with a bracketed text after it, as the name and the text inside the
outermost brackets. -/
def nestedParts? (piece : List Char) : Option (List Char × List Char) :=
  let name := piece.takeWhile isNameChar
  match piece.dropWhile isNameChar with
  | [] => none
  | mark :: body =>
    if !name.isEmpty && mark == openBracket && body.getLast? == some closeBracket then
      some (name, body.dropLast)
    else none

/-! ### Lengths, for the recursion into nested steps -/

theorem length_le_of_mem_splitOutside {depth : Nat} {text piece : List Char}
    (member : piece ∈ splitOutside depth text) : piece.length ≤ text.length := by
  induction text generalizing depth piece with
  | nil => simp_all [splitOutside]
  | cons c rest hypothesis =>
      rw [splitOutside] at member
      split at member
      · rcases List.mem_cons.mp member with rfl | later
        · simp
        · exact Nat.le_succ_of_le (hypothesis later)
      · split at member
        · simp_all
        · next first others splits =>
            have bound {other : List Char} (inside : other ∈ first :: others) :
                other.length ≤ rest.length :=
              hypothesis (splits ▸ inside)
            rcases List.mem_cons.mp member with rfl | later
            · simpa using bound List.mem_cons_self
            · exact Nat.le_succ_of_le (bound (List.mem_cons_of_mem _ later))

theorem length_le_of_mem_outerPieces {text piece : List Char}
    (member : piece ∈ outerPieces text) : piece.length ≤ text.length :=
  length_le_of_mem_splitOutside (List.mem_filter.mp member).1

theorem nestedParts?_length {piece name inner : List Char}
    (parts : nestedParts? piece = some (name, inner)) : inner.length < piece.length := by
  have whole : piece.takeWhile isNameChar ++ piece.dropWhile isNameChar = piece :=
    List.takeWhile_append_dropWhile
  rw [nestedParts?] at parts
  split at parts
  · cases parts
  · next mark body rest =>
      split at parts
      · cases parts
        rw [← whole, rest]
        simp only [List.length_append, List.length_cons, List.length_dropLast]
        omega
      · cases parts

/-! ### Tokens -/

/-- Read an argument text.  In a balanced text every piece outside of brackets is one argument, a
nested step where it has that shape; a text whose brackets do not pair up is cut at all separators
and its pieces are plain tokens. -/
def tokenize (aliases : Aliases) (text : List Char) : List Argument :=
  if isBalanced text then
    (outerPieces text).attach.map fun ⟨piece, member⟩ =>
      match parts : nestedParts? piece with
      | some (name, inner) =>
        if isBalanced inner then
          have : inner.length < text.length :=
            Nat.lt_of_lt_of_le (nestedParts?_length parts) (length_le_of_mem_outerPieces member)
          .step (aliases.expand (String.ofList name)) (tokenize aliases inner)
        else .token (String.ofList piece)
      | none => .token (String.ofList piece)
  else
    (pieces separatesArguments text).map fun piece => .token (String.ofList piece)
termination_by text.length

/-- The argument that one piece of a balanced text is. -/
def toArgument (aliases : Aliases) (piece : List Char) : Argument :=
  match nestedParts? piece with
  | some (name, inner) =>
    if isBalanced inner then
      .step (aliases.expand (String.ofList name)) (tokenize aliases inner)
    else .token (String.ofList piece)
  | none => .token (String.ofList piece)

theorem tokenize_of_balanced {aliases : Aliases} {text : List Char} (balanced : isBalanced text) :
    tokenize aliases text = (outerPieces text).map (toArgument aliases) := by
  rw [tokenize, if_pos balanced]
  conv => rhs; rw [← List.attach_map_val]
  apply List.map_congr_left
  rintro ⟨piece, _⟩ _
  dsimp only [toArgument]
  split <;> simp_all

theorem tokenize_of_unbalanced {aliases : Aliases} {text : List Char}
    (unbalanced : isBalanced text = false) :
    tokenize aliases text =
      (pieces separatesArguments text).map fun piece => .token (String.ofList piece) := by
  rw [tokenize, if_neg (by simp [unbalanced])]

/-! ### Depth -/

/-- The texts inside the nested steps of an argument text. -/
def nestedTexts (text : List Char) : List (List Char) :=
  if isBalanced text then
    ((outerPieces text).filterMap nestedParts?).filterMap fun (_, inner) =>
      if isBalanced inner then some inner else none
  else []

/-- Whether no more than so many steps of an argument text stand inside each other. -/
def fitsWithin : Nat → List Char → Bool
  | 0, text => (nestedTexts text).isEmpty
  | room + 1, text => (nestedTexts text).all (fitsWithin room)

end InputScript.Script
