import ScriptTyping.Text.Columns
import ScriptTyping.Text.Emoji
import ScriptTyping.Text.Ligature

/-!
# Width of a text

The columns of fixed width that a text takes. They are those of its characters, unless characters
join: pictures with skin tones, variation selectors and joiners, pairs of line end characters, and
the ligatures of some scripts. What a character adds depends on what follows it, so a text is
measured from its end, and `Ahead` holds what has been seen there.
-/

namespace ScriptTyping.Text

/-- What a character can join. -/
inductive Joint where
  | nothing
  | lineFeed
  | skinTone
  /-- A run of flag letters. -/
  | flagLetters (count : Nat)
  /-- A picture. -/
  | emoji
  /-- A joiner and a picture. -/
  | joinedEmoji
  /-- A keycap sign, a joiner and a picture. -/
  | joinedKeycap
  /-- A run of flag letters, a joiner and a picture. -/
  | joinedFlagLetters (count : Nat)
  /-- Tag digits, tag letters, the end of tags, a joiner and a picture. -/
  | joinedTags (digits letters : Nat)
  /-- The Kirat Rai vowel sign E. -/
  | vowelE
  /-- The Kirat Rai vowel sign AI, or two signs E. -/
  | vowelAi
  /-- An Arabic Alef, with any marks before it. -/
  | alef
  /-- The later part of another ligature. -/
  | ligand (l : Ligand)
  deriving DecidableEq, Repr

namespace Joint

/-- What a character that joins nothing leaves for the one before it. -/
def ofChar (c : Char) : Joint :=
  if isSkinTone c then skinTone
  else if isFlagLetter c then flagLetters 1
  else if isEmoji c then emoji
  else if isAlef c then alef
  else if c.toNat == 0x16D67 then vowelE
  else if c.toNat == 0x16D68 then vowelAi
  else ((Ligand.ofChar? c).map ligand).getD nothing

/-- A variation selector does not hide these from the characters before it. -/
def isTransparent : Joint → Bool
  | alef | ligand _ => true
  | _ => false

/-- Whether a picture before this one is already counted with it. -/
def isJoined : Joint → Bool
  | joinedEmoji | joinedKeycap => true
  | _ => false

/-- What a character adds to the columns when it joins, with what the two are together. -/
def take? : Joint → Char → Option (Int × Joint)
  | nothing, _ | lineFeed, _ | joinedKeycap, _ => none
  | skinTone, c =>
    if takesSkinTone c then some (0, emoji)
    else if c == joiner then some (0, joinedEmoji)
    else none
  | flagLetters n, c =>
    if isFlagLetter c then some (1, flagLetters (n + 1))
    else if c == joiner && 2 ≤ n then some (0, joinedEmoji)
    else none
  | emoji, c => if c == joiner then some (0, joinedEmoji) else none
  | joinedEmoji, c =>
    if c == '\u20E3' then some (0, joinedKeycap)
    else if isFlagLetter c then some (1, joinedFlagLetters 1)
    else if isSkinTone c then some (0, skinTone)
    else if c.toNat == 0xE007F then some (0, joinedTags 0 0)
    else if isEmoji c then some (0, emoji)
    else none
  | joinedFlagLetters n, c =>
    -- with two letters the flag counts with the picture, and a third stands before it
    if isFlagLetter c then some (if n % 2 = 1 then -1 else 3, joinedFlagLetters (n + 1))
    else if c == joiner && 2 ≤ n then some (0, joinedEmoji)
    else none
  | joinedTags digits letters, c =>
    if isTagLetter c && digits == 0 && letters < 6 then some (0, joinedTags 0 (letters + 1))
    else if isTagDigit c && digits < 3 && letters ≤ 4 then some (0, joinedTags (digits + 1) letters)
    else if c.toNat == 0x1F3F4 && (digits == 3 || (digits == 0 && 3 ≤ letters)) then some (0, emoji)
    else none
  | vowelE, c =>
    if c.toNat == 0x16D63 || c.toNat == 0x16D69 then some (0, nothing)
    else if c.toNat == 0x16D67 then some (0, vowelAi)
    else if c.toNat == 0x16D68 then some (1, vowelE)
    else none
  | vowelAi, c => if c.toNat == 0x16D63 then some (0, nothing) else none
  | alef, c =>
    if isLam c then some (0, nothing)
    else if isJoiningTransparent c then some (0, alef)
    else none
  | ligand l, c =>
    if c == joiner then some (0, ligand l.afterJoiner)
    else if isIgnorableMark c then some (0, ligand l)
    else (l.take? c).map fun (added, whole) => (added, (whole.map ligand).getD nothing)

/-- What a character adds to the columns, and what it leaves for the one before it. -/
def step (j : Joint) (c : Char) : Int × Joint :=
  (j.take? c).getD (columns c, ofChar c)

end Joint

/-- What follows a place in a text: what the character at the place can join, and the variation
selectors that may apply to it. -/
structure Ahead where
  joint : Joint := .nothing
  /-- The selector of the coloured form of a picture. -/
  emojiForm : Bool := false
  /-- The selector of the plain form of a picture. -/
  textForm : Bool := false
  /-- The selector of the wide form of a quotation mark. -/
  wideForm : Bool := false
  deriving DecidableEq, Repr

namespace Ahead

/-- The quotation marks that have a wide form. -/
def isWidenable (c : Char) : Bool :=
  c == '\u2018' || c == '\u2019' || c == '\u201C' || c == '\u201D'

/-- What remains before a selector: only what a selector does not hide. -/
def hidden (a : Ahead) : Ahead :=
  if a.joint.isTransparent then a else {}

/-- What follows the character before a selector of the coloured form. -/
def selectEmoji (a : Ahead) : Ahead :=
  if a.joint.isJoined then { a with emojiForm := true } else { a.hidden with emojiForm := true }

/-- What follows a character to which the selector of the coloured form does not apply. -/
def dropEmoji (a : Ahead) : Ahead :=
  if a.emojiForm then { a.hidden with emojiForm := false } else a

/-- What a character adds to the columns, and what follows the one before it. -/
def step (a : Ahead) (c : Char) : Int × Ahead :=
  if a.emojiForm && isEmojiSelectable c then
    (if a.joint.isJoined then 0 else 2, { joint := .emoji })
  else
    let a := a.dropEmoji
    if c.toNat ≤ 0xA0 then
      (if c == '\r' && a.joint == .lineFeed then 0 else 1,
        { joint := if c == '\n' then .lineFeed else .nothing })
    else if c == '\uFE0F' then (0, a.selectEmoji)
    else if c == '\uFE0E' then (0, { a.hidden with textForm := true })
    else if c == '\uFE01' then (0, { a.hidden with wideForm := true })
    else if a.wideForm && isWidenable c then (2, {})
    else if a.textForm && isTextSelectable c then (1, {})
    else
      let (added, j) := a.joint.step c
      (added, { joint := j })

end Ahead

/-- The columns of a text and what stands at its front. -/
def measure (cs : List Char) : Int × Ahead :=
  cs.foldr (fun c (columns, a) =>
    let (added, a) := a.step c
    (columns + added, a)) (0, {})

/-- The columns of a text. -/
def width (cs : List Char) : Nat :=
  (measure cs).1.toNat

end ScriptTyping.Text
