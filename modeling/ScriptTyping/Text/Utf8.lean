/-!
# Texts as bytes

`encode` gives the UTF-8 form of a text and `decode` reads one. Bytes are read in pieces: a
character, a run of bytes that begins no character, or a character that the end of the bytes cuts
short. `decode` tells the first piece that is no character, and `decodeLossy` puts the replacement
character for each.
-/

namespace ScriptTyping.Text

/-- A piece of a sequence of bytes. -/
inductive Piece where
  | char (c : Char)
  /-- This many bytes begin a character, and the next byte does not go on with it. -/
  | malformed (size : Nat)
  /-- The bytes end within a character, after this many bytes of it. -/
  | unfinished (size : Nat)
  deriving DecidableEq, Repr

/-- How a character of several bytes begins: the bits of its first byte, the least and the greatest
second byte, and the number of bytes after the second. -/
structure Lead where
  bits : Nat
  least : Nat
  greatest : Nat
  further : Nat

/-- What a first byte says of a character of several bytes. Bytes that would write a character at
greater length than needed, a surrogate or no code point at all are no first bytes, or narrow the
range of the second. -/
def lead? (b : Nat) : Option Lead :=
  if 0xC2 ≤ b ∧ b ≤ 0xDF then some ⟨b - 0xC0, 0x80, 0xBF, 0⟩
  else if b = 0xE0 then some ⟨0, 0xA0, 0xBF, 1⟩
  else if b = 0xED then some ⟨0xD, 0x80, 0x9F, 1⟩
  else if 0xE1 ≤ b ∧ b ≤ 0xEF then some ⟨b - 0xE0, 0x80, 0xBF, 1⟩
  else if b = 0xF0 then some ⟨0, 0x90, 0xBF, 2⟩
  else if 0xF1 ≤ b ∧ b ≤ 0xF3 then some ⟨b - 0xF0, 0x80, 0xBF, 2⟩
  else if b = 0xF4 then some ⟨4, 0x80, 0x8F, 2⟩
  else none

/-- Goes on with a character of which `seen` bytes with the value `bits` have been read. The next
byte lies in the given range, and `further` bytes follow it. -/
def readOn (bits seen least greatest : Nat) : (further : Nat) → List UInt8 → Piece × List UInt8
  | _, [] => (.unfinished seen, [])
  | further, b :: bs =>
    if least ≤ b.toNat ∧ b.toNat ≤ greatest then
      let bits := 64 * bits + (b.toNat - 0x80)
      match further with
      | 0 => (.char (Char.ofNat bits), bs)
      | further + 1 => readOn bits (seen + 1) 0x80 0xBF further bs
    else
      (.malformed seen, b :: bs)

theorem length_readOn_le (bits seen least greatest further : Nat) (bs : List UInt8) :
    (readOn bits seen least greatest further bs).2.length ≤ bs.length := by
  fun_induction readOn bits seen least greatest further bs <;> simp_all
  omega

/-- The first piece of bytes that begin with `b`, and what is left after it. -/
def piece (b : UInt8) (bs : List UInt8) : Piece × List UInt8 :=
  if b.toNat < 0x80 then (.char (Char.ofNat b.toNat), bs)
  else
    match lead? b.toNat with
    | some l => readOn l.bits 1 l.least l.greatest l.further bs
    | none => (.malformed 1, bs)

theorem length_piece_le (b : UInt8) (bs : List UInt8) : (piece b bs).2.length ≤ bs.length := by
  unfold piece
  split
  · simp
  · split
    · exact length_readOn_le ..
    · simp

/-- Bytes in pieces. -/
def pieces : List UInt8 → List Piece
  | [] => []
  | b :: bs => (piece b bs).1 :: pieces (piece b bs).2
  termination_by bs => bs.length
  decreasing_by
    have := length_piece_le b bs
    simp only [List.length_cons]
    omega

/-- Where bytes stop being a text: after `index` bytes comes a run of `size` bytes that begins no
character, or a character that is cut short. -/
structure Flaw where
  index : Nat
  size : Option Nat
  deriving DecidableEq, Repr

namespace Flaw

/-- What is wrong with the bytes. -/
def message (f : Flaw) : String :=
  match f.size with
  | some size =>
    "invalid utf-8 sequence of " ++ toString size ++ " bytes from index " ++ toString f.index
  | none => "incomplete utf-8 byte sequence from index " ++ toString f.index

end Flaw

/-- The characters of pieces that begin at an index, or the first flaw. -/
def charsOf (index : Nat) : List Piece → Except Flaw (List Char)
  | [] => .ok []
  | .char c :: ps => (charsOf (index + c.utf8Size) ps).map (c :: ·)
  | .malformed size :: _ => .error { index, size := some size }
  | .unfinished _ :: _ => .error { index, size := none }

/-- The text that bytes are the UTF-8 form of. -/
def decode (bs : List UInt8) : Except Flaw String :=
  (charsOf 0 (pieces bs)).map String.ofList

/-- The character that a piece is shown as. -/
def Piece.shown : Piece → Char
  | char c => c
  | malformed _ | unfinished _ => '\uFFFD'

/-- The text of bytes with the replacement character for all that is no character. -/
def decodeLossy (bs : List UInt8) : String :=
  String.ofList ((pieces bs).map Piece.shown)

/-- The UTF-8 form of a text. -/
def encode (s : String) : List UInt8 :=
  s.toList.flatMap String.utf8EncodeChar

end ScriptTyping.Text
