import ScriptTyping.Text.Columns

/-!
# Ligatures

Letters that take fewer columns together than apart. A `Ligand` is the later part of such a pair,
and `Ligand.take?` says what the earlier part does to the columns. Between the two parts there may
be joiners and ignorable marks. Arabic Lam and Alef join across other marks and are classes of their
own.
-/

namespace ScriptTyping.Text

/-- The zero width joiner. -/
def joiner : Char := '\u200D'

/-- The letters of the joining group Alef. -/
def alefRanges : List (Nat × Nat) := [
  (0x622, 0x623), (0x625, 0x625), (0x627, 0x627), (0x671, 0x673), (0x675, 0x675), (0x773, 0x774),
  (0x870, 0x882)]

/-- The letters of the joining group Lam. -/
def lamRanges : List (Nat × Nat) := [
  (0x644, 0x644), (0x6B5, 0x6B8), (0x76A, 0x76A), (0x8A6, 0x8A6), (0x8C7, 0x8C7)]

/-- Characters without a column that part two Arabic letters: all but those of the joining type
Transparent. -/
def nonJoiningRanges : List (Nat × Nat) := [
  (0x605, 0x605), (0x890, 0x891), (0x8E2, 0x8E2), (0x9BE, 0x9BE), (0x9D7, 0x9D7), (0xB3E, 0xB3E),
  (0xB57, 0xB57), (0xBBE, 0xBBE), (0xBD7, 0xBD7), (0xCC0, 0xCC0), (0xCC2, 0xCC2), (0xCC7, 0xCC8),
  (0xCCA, 0xCCB), (0xCD5, 0xCD6), (0xD3E, 0xD3E), (0xD4E, 0xD4E), (0xD57, 0xD57), (0xDCF, 0xDCF),
  (0xDDF, 0xDDF), (0x1160, 0x11FF), (0x1715, 0x1715), (0x1734, 0x1734), (0x180E, 0x180E),
  (0x1B35, 0x1B35), (0x1B3B, 0x1B3B), (0x1B3D, 0x1B3D), (0x1B43, 0x1B44), (0x1BAA, 0x1BAA),
  (0x1BF2, 0x1BF3), (0x200C, 0x200D), (0x2065, 0x2069), (0x302E, 0x302F), (0x3164, 0x3164),
  (0xA8FA, 0xA8FA), (0xA953, 0xA953), (0xA9C0, 0xA9C0), (0xD7B0, 0xD7C6), (0xD7CB, 0xD7FB),
  (0xFFA0, 0xFFA0), (0xFFF0, 0xFFF8), (0x111C0, 0x111C0), (0x111C2, 0x111C3), (0x11235, 0x11235),
  (0x1133E, 0x1133E), (0x1134D, 0x1134D), (0x11357, 0x11357), (0x113B8, 0x113B8),
  (0x113C2, 0x113C2), (0x113C5, 0x113C5), (0x113C7, 0x113C9), (0x113CF, 0x113CF),
  (0x113D1, 0x113D1), (0x114B0, 0x114B0), (0x114BD, 0x114BD), (0x115AF, 0x115AF),
  (0x116B6, 0x116B6), (0x11930, 0x11930), (0x1193D, 0x1193D), (0x1193F, 0x1193F),
  (0x11941, 0x11941), (0x11A84, 0x11A89), (0x11D46, 0x11D46), (0x11F02, 0x11F02),
  (0x11F41, 0x11F41), (0x16FF0, 0x16FF1), (0x1D165, 0x1D166), (0x1D16D, 0x1D172),
  (0xE0000, 0xE0000), (0xE0002, 0xE001F), (0xE0080, 0xE00FF), (0xE01F0, 0xE0FFF)]

/-- Khmer consonants that are written under the one before them after the sign COENG. -/
def subscriptRanges : List (Nat × Nat) := [
  (0x1780, 0x1782), (0x1784, 0x1787), (0x1789, 0x178C), (0x178E, 0x1793), (0x1795, 0x1798),
  (0x179B, 0x179D), (0x17A0, 0x17A0), (0x17A2, 0x17A2), (0x17A7, 0x17A7), (0x17AB, 0x17AC),
  (0x17AF, 0x17AF)]

/-- A letter that may be the second half of the ligature of Lam and Alef. -/
def isAlef (c : Char) : Bool :=
  inRanges alefRanges c

/-- A letter that may be the first half of the ligature of Lam and Alef. -/
def isLam (c : Char) : Bool :=
  inRanges lamRanges c

/-- A character that does not part two Arabic letters. -/
def isJoiningTransparent (c : Char) : Bool :=
  columns c == 0 && !inRanges nonJoiningRanges c

/-- An ignorable mark, which parts no ligature. -/
def isIgnorableMark (c : Char) : Bool :=
  inRanges [(0x34F, 0x34F), (0x17B4, 0x17B5), (0x180B, 0x180D), (0x180F, 0x180F),
    (0xFE00, 0xFE0F), (0xE0100, 0xE01EF)] c

/-- A Tifinagh letter that two-letter ligatures are made of. -/
def isTifinaghConsonant (c : Char) : Bool :=
  inRanges [(0x2D31, 0x2D65), (0x2D6F, 0x2D6F)] c

/-- The later part of a ligature; `joined` tells whether a joiner stands before it. -/
inductive Ligand where
  /-- Hebrew Lamed, after Alef and a joiner. -/
  | lamed (joined : Bool)
  /-- Buginese Ya, after A, the vowel sign I and a joiner. -/
  | ya (joined : Bool)
  /-- The vowel sign I, a joiner and Ya. -/
  | vowelAndYa
  /-- A Tifinagh consonant, after a consonant and a joiner. -/
  | consonant (joined : Bool)
  /-- The joiner of Tifinagh and a consonant. -/
  | joinedConsonant
  /-- A Lisu tone that follows another. -/
  | tone
  /-- The Old Turkic letter Orkhon I, after Orkhon Ec and a joiner. -/
  | orkhonI (joined : Bool)
  /-- A Khmer consonant that the sign COENG subscribes. -/
  | subscript
  deriving DecidableEq, Repr

namespace Ligand

/-- The ligand that a character is by itself. -/
def ofChar? (c : Char) : Option Ligand :=
  if c == '\u05DC' then some (lamed false)
  else if c == '\u1A10' then some (ya false)
  else if isTifinaghConsonant c then some (consonant false)
  else if c == '\uA4FC' || c == '\uA4FD' then some tone
  else if c.toNat == 0x10C03 then some (orkhonI false)
  else if inRanges subscriptRanges c then some subscript
  else none

/-- A ligand with a joiner before it. -/
def afterJoiner : Ligand → Ligand
  | lamed _ => lamed true
  | ya _ => ya true
  | consonant _ => consonant true
  | orkhonI _ => orkhonI true
  | l => l

/-- What a character adds to the columns when it joins a ligand, with the ligand that the two are
together, if they can be joined further. -/
def take? : Ligand → Char → Option (Int × Option Ligand)
  | lamed true, c => if c == '\u05D0' then some (0, none) else none
  | ya true, c => if c == '\u1A17' then some (0, some vowelAndYa) else none
  | vowelAndYa, c => if c == '\u1A15' then some (0, none) else none
  | consonant joined, c =>
    if c == '\u2D7F' then some (1, some joinedConsonant)
    else if joined && isTifinaghConsonant c then some (0, none)
    else none
  | joinedConsonant, c => if isTifinaghConsonant c then some (-1, none) else none
  | tone, c => if '\uA4F8' ≤ c && c ≤ '\uA4FB' then some (0, none) else none
  | orkhonI true, c => if c.toNat == 0x10C32 then some (0, none) else none
  | subscript, c => if c == '\u17D2' then some (-1, none) else none
  | _, _ => none

end Ligand

end ScriptTyping.Text
