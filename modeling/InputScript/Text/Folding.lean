/-
Module: InputScript.Text.Folding
Purpose: Full case folding, under which names are compared without regard to letter case.
Main exports: foldChar, fold, folded, sameFolded
-/
namespace InputScript.Text

/-- A run of letters that fold alike: every `stride`-th code point from `first` to `last` folds to
the code point `offset` further on. -/
structure FoldRun where
  first : Nat
  last : Nat
  stride : Nat
  offset : Int

/-- The run of one letter. -/
def FoldRun.letter (code : Nat) (offset : Int) : FoldRun :=
  ⟨code, code, 1, offset⟩

/-- Whether the run says how a code point folds. -/
def FoldRun.covers (run : FoldRun) (code : Nat) : Bool :=
  run.first ≤ code && code ≤ run.last && (code - run.first) % run.stride == 0

/-- The letters that fold to one letter, in order of their code points. -/
def foldRuns : List FoldRun := [
  ⟨0x41, 0x5A, 1, 32⟩, .letter 0xB5 775, ⟨0xC0, 0xD6, 1, 32⟩, ⟨0xD8, 0xDE, 1, 32⟩,
  ⟨0x100, 0x12E, 2, 1⟩, ⟨0x132, 0x136, 2, 1⟩, ⟨0x139, 0x147, 2, 1⟩, ⟨0x14A, 0x176, 2, 1⟩,
  .letter 0x178 (-121), ⟨0x179, 0x17D, 2, 1⟩, .letter 0x17F (-268), .letter 0x181 210,
  ⟨0x182, 0x184, 2, 1⟩, .letter 0x186 206, .letter 0x187 1, ⟨0x189, 0x18A, 1, 205⟩, .letter 0x18B 1,
  .letter 0x18E 79, .letter 0x18F 202, .letter 0x190 203, .letter 0x191 1, .letter 0x193 205,
  .letter 0x194 207, .letter 0x196 211, .letter 0x197 209, .letter 0x198 1, .letter 0x19C 211,
  .letter 0x19D 213, .letter 0x19F 214, ⟨0x1A0, 0x1A4, 2, 1⟩, .letter 0x1A6 218, .letter 0x1A7 1,
  .letter 0x1A9 218, .letter 0x1AC 1, .letter 0x1AE 218, .letter 0x1AF 1, ⟨0x1B1, 0x1B2, 1, 217⟩,
  ⟨0x1B3, 0x1B5, 2, 1⟩, .letter 0x1B7 219, .letter 0x1B8 1, .letter 0x1BC 1, .letter 0x1C4 2,
  .letter 0x1C5 1, .letter 0x1C7 2, .letter 0x1C8 1, .letter 0x1CA 2, ⟨0x1CB, 0x1DB, 2, 1⟩,
  ⟨0x1DE, 0x1EE, 2, 1⟩, .letter 0x1F1 2, ⟨0x1F2, 0x1F4, 2, 1⟩, .letter 0x1F6 (-97),
  .letter 0x1F7 (-56), ⟨0x1F8, 0x21E, 2, 1⟩, .letter 0x220 (-130), ⟨0x222, 0x232, 2, 1⟩,
  .letter 0x23A 10795, .letter 0x23B 1, .letter 0x23D (-163), .letter 0x23E 10792, .letter 0x241 1,
  .letter 0x243 (-195), .letter 0x244 69, .letter 0x245 71, ⟨0x246, 0x24E, 2, 1⟩, .letter 0x345 116,
  ⟨0x370, 0x372, 2, 1⟩, .letter 0x376 1, .letter 0x37F 116, .letter 0x386 38, ⟨0x388, 0x38A, 1, 37⟩,
  .letter 0x38C 64, ⟨0x38E, 0x38F, 1, 63⟩, ⟨0x391, 0x3A1, 1, 32⟩, ⟨0x3A3, 0x3AB, 1, 32⟩,
  .letter 0x3C2 1, .letter 0x3CF 8, .letter 0x3D0 (-30), .letter 0x3D1 (-25), .letter 0x3D5 (-15),
  .letter 0x3D6 (-22), ⟨0x3D8, 0x3EE, 2, 1⟩, .letter 0x3F0 (-54), .letter 0x3F1 (-48),
  .letter 0x3F4 (-60), .letter 0x3F5 (-64), .letter 0x3F7 1, .letter 0x3F9 (-7), .letter 0x3FA 1,
  ⟨0x3FD, 0x3FF, 1, -130⟩, ⟨0x400, 0x40F, 1, 80⟩, ⟨0x410, 0x42F, 1, 32⟩, ⟨0x460, 0x480, 2, 1⟩,
  ⟨0x48A, 0x4BE, 2, 1⟩, .letter 0x4C0 15, ⟨0x4C1, 0x4CD, 2, 1⟩, ⟨0x4D0, 0x52E, 2, 1⟩,
  ⟨0x531, 0x556, 1, 48⟩, ⟨0x10A0, 0x10C5, 1, 7264⟩, .letter 0x10C7 7264, .letter 0x10CD 7264,
  ⟨0x13F8, 0x13FD, 1, -8⟩, .letter 0x1C80 (-6222), .letter 0x1C81 (-6221), .letter 0x1C82 (-6212),
  ⟨0x1C83, 0x1C84, 1, -6210⟩, .letter 0x1C85 (-6211), .letter 0x1C86 (-6204),
  .letter 0x1C87 (-6180), .letter 0x1C88 35267, ⟨0x1C90, 0x1CBA, 1, -3008⟩,
  ⟨0x1CBD, 0x1CBF, 1, -3008⟩, ⟨0x1E00, 0x1E94, 2, 1⟩, .letter 0x1E9B (-58), ⟨0x1EA0, 0x1EFE, 2, 1⟩,
  ⟨0x1F08, 0x1F0F, 1, -8⟩, ⟨0x1F18, 0x1F1D, 1, -8⟩, ⟨0x1F28, 0x1F2F, 1, -8⟩,
  ⟨0x1F38, 0x1F3F, 1, -8⟩, ⟨0x1F48, 0x1F4D, 1, -8⟩, ⟨0x1F59, 0x1F5F, 2, -8⟩,
  ⟨0x1F68, 0x1F6F, 1, -8⟩, ⟨0x1FB8, 0x1FB9, 1, -8⟩, ⟨0x1FBA, 0x1FBB, 1, -74⟩,
  .letter 0x1FBE (-7173), ⟨0x1FC8, 0x1FCB, 1, -86⟩, ⟨0x1FD8, 0x1FD9, 1, -8⟩,
  ⟨0x1FDA, 0x1FDB, 1, -100⟩, ⟨0x1FE8, 0x1FE9, 1, -8⟩, ⟨0x1FEA, 0x1FEB, 1, -112⟩,
  .letter 0x1FEC (-7), ⟨0x1FF8, 0x1FF9, 1, -128⟩, ⟨0x1FFA, 0x1FFB, 1, -126⟩, .letter 0x2126 (-7517),
  .letter 0x212A (-8383), .letter 0x212B (-8262), .letter 0x2132 28, ⟨0x2160, 0x216F, 1, 16⟩,
  .letter 0x2183 1, ⟨0x24B6, 0x24CF, 1, 26⟩, ⟨0x2C00, 0x2C2F, 1, 48⟩, .letter 0x2C60 1,
  .letter 0x2C62 (-10743), .letter 0x2C63 (-3814), .letter 0x2C64 (-10727), ⟨0x2C67, 0x2C6B, 2, 1⟩,
  .letter 0x2C6D (-10780), .letter 0x2C6E (-10749), .letter 0x2C6F (-10783),
  .letter 0x2C70 (-10782), .letter 0x2C72 1, .letter 0x2C75 1, ⟨0x2C7E, 0x2C7F, 1, -10815⟩,
  ⟨0x2C80, 0x2CE2, 2, 1⟩, ⟨0x2CEB, 0x2CED, 2, 1⟩, .letter 0x2CF2 1, ⟨0xA640, 0xA66C, 2, 1⟩,
  ⟨0xA680, 0xA69A, 2, 1⟩, ⟨0xA722, 0xA72E, 2, 1⟩, ⟨0xA732, 0xA76E, 2, 1⟩, ⟨0xA779, 0xA77B, 2, 1⟩,
  .letter 0xA77D (-35332), ⟨0xA77E, 0xA786, 2, 1⟩, .letter 0xA78B 1, .letter 0xA78D (-42280),
  ⟨0xA790, 0xA792, 2, 1⟩, ⟨0xA796, 0xA7A8, 2, 1⟩, .letter 0xA7AA (-42308), .letter 0xA7AB (-42319),
  .letter 0xA7AC (-42315), .letter 0xA7AD (-42305), .letter 0xA7AE (-42308),
  .letter 0xA7B0 (-42258), .letter 0xA7B1 (-42282), .letter 0xA7B2 (-42261), .letter 0xA7B3 928,
  ⟨0xA7B4, 0xA7C2, 2, 1⟩, .letter 0xA7C4 (-48), .letter 0xA7C5 (-42307), .letter 0xA7C6 (-35384),
  ⟨0xA7C7, 0xA7C9, 2, 1⟩, .letter 0xA7D0 1, ⟨0xA7D6, 0xA7D8, 2, 1⟩, .letter 0xA7F5 1,
  ⟨0xAB70, 0xABBF, 1, -38864⟩, ⟨0xFF21, 0xFF3A, 1, 32⟩, ⟨0x10400, 0x10427, 1, 40⟩,
  ⟨0x104B0, 0x104D3, 1, 40⟩, ⟨0x10570, 0x1057A, 1, 39⟩, ⟨0x1057C, 0x1058A, 1, 39⟩,
  ⟨0x1058C, 0x10592, 1, 39⟩, ⟨0x10594, 0x10595, 1, 39⟩, ⟨0x10C80, 0x10CB2, 1, 64⟩,
  ⟨0x118A0, 0x118BF, 1, 32⟩, ⟨0x16E40, 0x16E5F, 1, 32⟩, ⟨0x1E900, 0x1E921, 1, 34⟩]

/-- The Greek vowels with an iota subscript: rows of eight small and eight capital letters, which
fold to the plain small letter and an iota. -/
def iotaExpansions : List (Nat × List Nat) :=
  [(0x1F80, 0x1F00), (0x1F90, 0x1F20), (0x1FA0, 0x1F60)].flatMap fun (row, plain) =>
    (List.range 16).map fun place => (row + place, [plain + place % 8, 0x3B9])

/-- The letters that fold to several letters. -/
def foldExpansions : List (Nat × List Nat) :=
  iotaExpansions ++ [
    (0xDF, [0x73, 0x73]), (0x130, [0x69, 0x307]), (0x149, [0x2BC, 0x6E]), (0x1F0, [0x6A, 0x30C]),
    (0x390, [0x3B9, 0x308, 0x301]), (0x3B0, [0x3C5, 0x308, 0x301]), (0x587, [0x565, 0x582]),
    (0x1E96, [0x68, 0x331]), (0x1E97, [0x74, 0x308]), (0x1E98, [0x77, 0x30A]),
    (0x1E99, [0x79, 0x30A]), (0x1E9A, [0x61, 0x2BE]), (0x1E9E, [0x73, 0x73]),
    (0x1F50, [0x3C5, 0x313]), (0x1F52, [0x3C5, 0x313, 0x300]), (0x1F54, [0x3C5, 0x313, 0x301]),
    (0x1F56, [0x3C5, 0x313, 0x342]), (0x1FB2, [0x1F70, 0x3B9]), (0x1FB3, [0x3B1, 0x3B9]),
    (0x1FB4, [0x3AC, 0x3B9]), (0x1FB6, [0x3B1, 0x342]), (0x1FB7, [0x3B1, 0x342, 0x3B9]),
    (0x1FBC, [0x3B1, 0x3B9]), (0x1FC2, [0x1F74, 0x3B9]), (0x1FC3, [0x3B7, 0x3B9]),
    (0x1FC4, [0x3AE, 0x3B9]), (0x1FC6, [0x3B7, 0x342]), (0x1FC7, [0x3B7, 0x342, 0x3B9]),
    (0x1FCC, [0x3B7, 0x3B9]), (0x1FD2, [0x3B9, 0x308, 0x300]), (0x1FD3, [0x3B9, 0x308, 0x301]),
    (0x1FD6, [0x3B9, 0x342]), (0x1FD7, [0x3B9, 0x308, 0x342]), (0x1FE2, [0x3C5, 0x308, 0x300]),
    (0x1FE3, [0x3C5, 0x308, 0x301]), (0x1FE4, [0x3C1, 0x313]), (0x1FE6, [0x3C5, 0x342]),
    (0x1FE7, [0x3C5, 0x308, 0x342]), (0x1FF2, [0x1F7C, 0x3B9]), (0x1FF3, [0x3C9, 0x3B9]),
    (0x1FF4, [0x3CE, 0x3B9]), (0x1FF6, [0x3C9, 0x342]), (0x1FF7, [0x3C9, 0x342, 0x3B9]),
    (0x1FFC, [0x3C9, 0x3B9]), (0xFB00, [0x66, 0x66]), (0xFB01, [0x66, 0x69]),
    (0xFB02, [0x66, 0x6C]), (0xFB03, [0x66, 0x66, 0x69]), (0xFB04, [0x66, 0x66, 0x6C]),
    (0xFB05, [0x73, 0x74]), (0xFB06, [0x73, 0x74]), (0xFB13, [0x574, 0x576]),
    (0xFB14, [0x574, 0x565]), (0xFB15, [0x574, 0x56B]), (0xFB16, [0x57E, 0x576]),
    (0xFB17, [0x574, 0x56D])]

/-- The letters that a character folds to; itself when it has no case. -/
def foldChar (c : Char) : List Char :=
  let code := c.toNat
  if code < 0x80 then
    if 0x41 ≤ code && code ≤ 0x5A then [Char.ofNat (code + 0x20)] else [c]
  else
    match foldRuns.find? (·.covers code) with
    | some run => [Char.ofNat (code + run.offset).toNat]
    | none =>
      match foldExpansions.find? (·.1 == code) with
      | some expansion => expansion.2.map Char.ofNat
      | none => [c]

/-- The folded text. -/
def fold (text : List Char) : List Char :=
  text.flatMap foldChar

/-- `fold` on strings. -/
def folded (text : String) : String :=
  String.ofList (fold text.toList)

/-- Two names that differ in letter case only. -/
def sameFolded (left right : String) : Bool :=
  folded left == folded right

end InputScript.Text
