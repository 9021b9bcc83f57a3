import Mathlib.Tactic.Lemma
import ScriptTyping.Proofs.Scan.Depth
import ScriptTyping.Scan.Trailing

/-!
# The scans on bytes

The scans step through the UTF-8 form of a text byte by byte, also inside a character, and cut it at
the offsets they come to. `excessBytes?` and `trimBytes?` are these loops: each answers none when it
would cut inside a character. On the bytes of a text they never do, and they find what the scans find
on its characters (`excessBytes?_bytes`, `trimBytes?_bytes`). The reason is the same for every loop: it
waits for an ASCII byte, and no byte of a longer character is one.
-/

namespace ScriptTyping.Scan

/-- The UTF-8 form of a text. -/
def bytes (cs : List Char) : List UInt8 :=
  cs.flatMap String.utf8EncodeChar

/-- The byte that an ASCII character is written as. -/
def byte (c : Char) : UInt8 :=
  UInt8.ofNat c.toNat

/-- Whether a byte goes on with a character. -/
def goesOn (b : UInt8) : Bool :=
  0x80 ≤ b.toNat && b.toNat < 0xC0

/-- Whether bytes may be cut off here: at the end, or where a character begins. -/
def isBoundary (bs : List UInt8) : Bool :=
  !bs.head?.any goesOn

/-- Whether all characters of a text are ASCII. -/
def isAscii (cs : List Char) : Bool :=
  cs.all fun c => c.toNat < 0x80

/-- The quotes. -/
def quotes : List Char :=
  ['"', '\'', '\x60']

/-- The blanks of ASCII. -/
def blanks : List Char :=
  [' ', '\t', '\n', '\x0c', '\r']

lemma isQuote_eq_true_iff {c : Char} : isQuote c = true ↔ c ∈ quotes := by
  simp [isQuote, quotes, or_assoc]

lemma isAsciiBlank_eq_true_iff {c : Char} : Text.isAsciiBlank c = true ↔ c ∈ blanks := by
  simp [Text.isAsciiBlank, blanks, or_assoc]

section Loops

/-- What is left from the end of the line on. -/
def lineRest : List UInt8 → List UInt8
  | [] => []
  | b :: bs => if b = byte '\n' then b :: bs else lineRest bs

/-- What is left after the first star that a slash follows. -/
def blockRest : List UInt8 → List UInt8
  | [] => []
  | b :: bs => if b = byte '*' ∧ bs.head? = some (byte '/') then bs.tail else blockRest bs

/-- What is left after the closing quote; a backslash takes the next byte with it. -/
def quotedRest (quote : UInt8) : List UInt8 → List UInt8
  | [] => []
  | b :: bs =>
    if b = quote then bs
    else if b = byte '\\' then quotedRest quote bs.tail
    else quotedRest quote bs
  termination_by bs => bs.length
  decreasing_by all_goals simp only [List.length_cons, List.length_tail]; omega

/-- What is left after the slash that closes a regular expression, or from the end of the line on. -/
def patternRest (inBrackets : Bool) : List UInt8 → List UInt8
  | [] => []
  | b :: bs =>
    if b = byte '\n' then b :: bs
    else if b = byte '\\' then patternRest inBrackets bs.tail
    else if b = byte '[' then patternRest true bs
    else if b = byte ']' then patternRest false bs
    else if b = byte '/' ∧ inBrackets = false then bs
    else patternRest inBrackets bs
  termination_by bs => bs.length
  decreasing_by all_goals simp only [List.length_cons, List.length_tail]; omega

lemma length_lineRest_le (bs : List UInt8) : (lineRest bs).length ≤ bs.length := by
  fun_induction lineRest bs <;> simp_all
  omega

lemma length_blockRest_le (bs : List UInt8) : (blockRest bs).length ≤ bs.length := by
  fun_induction blockRest bs <;> simp_all <;> omega

lemma length_quotedRest_le (quote : UInt8) (bs : List UInt8) :
    (quotedRest quote bs).length ≤ bs.length := by
  fun_induction quotedRest quote bs <;> simp_all <;> omega

lemma length_patternRest_le (inBrackets : Bool) (bs : List UInt8) :
    (patternRest inBrackets bs).length ≤ bs.length := by
  fun_induction patternRest inBrackets bs <;> simp_all <;> omega

/-- The bytes from the first bracket on that opens a level deeper than `limit`; `last` is the last byte
of code before. -/
def excessBytes? (limit : Nat) (last : UInt8) (depth : Nat) :
    List UInt8 → Option (Option (List UInt8))
  | [] => some none
  | b :: bs =>
    if b = byte '/' ∧ bs.head? = some (byte '/') then excessBytes? limit last depth (lineRest bs)
    else if b = byte '/' ∧ bs.head? = some (byte '*') then
      if isBoundary bs.tail then excessBytes? limit last depth (blockRest bs.tail) else none
    else if b = byte '/' ∧ last ∈ beforePattern.map byte then
      excessBytes? limit (byte '/') depth (patternRest false bs)
    else if b ∈ quotes.map byte then excessBytes? limit b depth (quotedRest b bs)
    else if b ∈ openers.map byte then
      if limit < depth + 1 then some (some (b :: bs)) else excessBytes? limit b (depth + 1) bs
    else if b ∈ enders.map byte then excessBytes? limit b (depth - 1) bs
    else excessBytes? limit (if b ∈ blanks.map byte then last else b) depth bs
  termination_by bs => bs.length
  decreasing_by
    all_goals
      have line := length_lineRest_le bs
      have block := length_blockRest_le bs.tail
      have pattern := length_patternRest_le false bs
      have quoted := length_quotedRest_le b bs
      have tail : bs.tail.length ≤ bs.length := by simp
      simp only [List.length_cons]
      omega

/-- Whether the first lexeme of bytes is code, and what is left after it. A backslash takes bytes up to
where a character begins. -/
def lexemeBytes? (b : UInt8) (bs : List UInt8) : Option (Bool × List UInt8) :=
  if b = byte '/' ∧ bs.head? = some (byte '/') then some (false, lineRest bs)
  else if b = byte '/' ∧ bs.head? = some (byte '*') then
    if isBoundary bs.tail then some (false, blockRest bs.tail) else none
  else if b ∈ quotes.map byte then some (true, quotedRest b bs)
  else if b = byte '\\' then some (true, bs.tail.dropWhile goesOn)
  else some (!decide (b ∈ blanks.map byte), bs)

lemma length_le_of_lexemeBytes? {b : UInt8} {bs : List UInt8} {after : Bool × List UInt8}
    (h : lexemeBytes? b bs = some after) : after.2.length ≤ bs.length := by
  have line := length_lineRest_le bs
  have block := length_blockRest_le bs.tail
  have quoted := length_quotedRest_le b bs
  have escaped := (List.dropWhile_suffix (p := goesOn) (l := bs.tail)).length_le
  have tail : bs.tail.length ≤ bs.length := by simp
  unfold lexemeBytes? at h
  repeat' split at h
  all_goals
    cases h
    try exact Nat.le_trans ‹_› tail
    try assumption
  exact Nat.le_refl _

/-- What is left of bytes after their last lexeme that is code; `rest` when there is none. -/
def afterCodeBytes? (rest : List UInt8) : List UInt8 → Option (List UInt8)
  | [] => some rest
  | b :: bs =>
    match _found : lexemeBytes? b bs with
    | none => none
    | some after => afterCodeBytes? (if after.1 then after.2 else rest) after.2
  termination_by bs => bs.length
  decreasing_by
    have := length_le_of_lexemeBytes? _found
    simp only [List.length_cons]
    omega

/-- Bytes up to the end of their last lexeme that is code. -/
def trimBytes? (bs : List UInt8) : Option (List UInt8) :=
  (afterCodeBytes? bs bs).bind fun rest =>
    if isBoundary rest then some (bs.take (bs.length - rest.length)) else none

end Loops

section Encoding

variable {b : UInt8} {bs ws : List UInt8} {c d : Char} {cs ds : List Char}

/-- Bytes of longer characters. -/
def IsWide (ws : List UInt8) : Prop :=
  ∀ b ∈ ws, 0x80 ≤ b.toNat

lemma IsWide.tail (wide : IsWide (b :: ws)) : IsWide ws :=
  fun x hx => wide x (List.mem_cons_of_mem b hx)

/-- How a character is written: an ASCII character is its own byte; any other begins with a byte that
begins characters, and the further bytes go on with it. -/
lemma utf8EncodeChar_cases (c : Char) :
    (c.toNat < 0x80 ∧ String.utf8EncodeChar c = [byte c]) ∨
      (0x80 ≤ c.toNat ∧ ∃ b ws, String.utf8EncodeChar c = b :: ws ∧ 0xC0 ≤ b.toNat ∧
        ∀ x ∈ ws, goesOn x = true) := by
  have goes (n : Nat) : goesOn (UInt8.ofNat (n % 0x40 + 0x80)) = true := by
    simp only [goesOn, UInt8.toNat_ofNat', Bool.and_eq_true, decide_eq_true_eq]
    omega
  rw [String.utf8EncodeChar]
  split
  · exact .inl ⟨Nat.lt_succ_of_le ‹_›, rfl⟩
  · refine .inr ⟨Nat.lt_of_not_le ‹_›, ?_⟩
    split
    · exact ⟨_, _, rfl, by simp only [UInt8.toNat_ofNat']; omega, by simp [- UInt8.ofNat_add, goes]⟩
    · split
      · exact ⟨_, _, rfl, by simp only [UInt8.toNat_ofNat']; omega, by simp [- UInt8.ofNat_add, goes]⟩
      · exact ⟨_, _, rfl, by simp only [UInt8.toNat_ofNat']; omega, by simp [- UInt8.ofNat_add, goes]⟩

/-- The bytes of a text, by its first character. -/
lemma bytes_cons_cases (c : Char) (cs : List Char) :
    (c.toNat < 0x80 ∧ bytes (c :: cs) = byte c :: bytes cs) ∨
      (0x80 ≤ c.toNat ∧ ∃ b ws, bytes (c :: cs) = (b :: ws) ++ bytes cs ∧ 0xC0 ≤ b.toNat ∧
        IsWide (b :: ws) ∧ ∀ x ∈ ws, goesOn x = true) := by
  obtain ⟨ascii, written⟩ | ⟨long, b, ws, written, begins, goes⟩ := utf8EncodeChar_cases c
  · exact .inl ⟨ascii, by simp [bytes, written]⟩
  · have further : IsWide ws := fun x hx => of_decide_eq_true (Bool.and_eq_true_iff.1 (goes x hx)).1
    exact .inr ⟨long, b, ws, by simp [bytes, written], begins,
      List.forall_mem_cons.2 ⟨by omega, further⟩, goes⟩

@[simp] lemma bytes_nil : bytes [] = [] := rfl

@[simp] lemma bytes_append (cs ds : List Char) : bytes (cs ++ ds) = bytes cs ++ bytes ds :=
  List.flatMap_append

lemma bytes_cons_of_ascii (ascii : c.toNat < 0x80) : bytes (c :: cs) = byte c :: bytes cs := by
  obtain ⟨-, written⟩ | ⟨long, -⟩ := bytes_cons_cases c cs
  · exact written
  · omega

lemma length_bytes (cs : List Char) : (bytes cs).length = Text.byteLength cs := by
  induction cs with
  | nil => rfl
  | cons c cs ih => simpa [bytes] using ih

lemma toNat_byte (ascii : c.toNat < 0x80) : (byte c).toNat = c.toNat := by
  rw [byte, UInt8.toNat_ofNat']
  omega

/-- ASCII characters are told apart by their bytes. -/
lemma byte_eq_iff (hc : c.toNat < 0x80) (hd : d.toNat < 0x80) : byte c = byte d ↔ c = d := by
  refine ⟨fun same => ?_, congrArg byte⟩
  have same : c.toNat = d.toNat := by rw [← toNat_byte hc, same, toNat_byte hd]
  rw [← c.ofNat_toNat, same, d.ofNat_toNat]

lemma ascii_of_mem (hds : isAscii ds = true) (mem : d ∈ ds) : d.toNat < 0x80 :=
  of_decide_eq_true (List.all_eq_true.1 hds d mem)

lemma mem_map_byte (ds : List Char) (hc : c.toNat < 0x80) (hds : isAscii ds = true) :
    byte c ∈ ds.map byte ↔ c ∈ ds := by
  rw [List.mem_map]
  constructor
  · rintro ⟨d, mem, same⟩
    rwa [← (byte_eq_iff (ascii_of_mem hds mem) hc).1 same]
  · exact fun mem => ⟨c, mem, rfl⟩

lemma ne_byte (wide : 0x80 ≤ b.toNat) (hd : d.toNat < 0x80) : b ≠ byte d := by
  rintro rfl
  rw [toNat_byte hd] at wide
  omega

/-- No byte of a longer character is that of an ASCII character. -/
lemma notMem_map_byte (wide : 0x80 ≤ b.toNat) (hds : isAscii ds = true) : b ∉ ds.map byte := by
  intro mem
  obtain ⟨d, mem, same⟩ := List.mem_map.1 mem
  exact ne_byte wide (ascii_of_mem hds mem) same.symm

lemma head?_bytes_eq_iff (hd : d.toNat < 0x80) :
    (bytes cs).head? = some (byte d) ↔ cs.head? = some d := by
  cases cs with
  | nil => simp
  | cons c cs =>
    obtain ⟨ascii, written⟩ | ⟨long, b, ws, written, begins, -, -⟩ := bytes_cons_cases c cs
    · simp [written, byte_eq_iff ascii hd]
    · have other : c ≠ d := by rintro rfl; omega
      simp [written, ne_byte (by omega : 0x80 ≤ b.toNat) hd, other]

/-- The bytes of a text begin where a character begins. -/
lemma isBoundary_bytes (cs : List Char) : isBoundary (bytes cs) = true := by
  cases cs with
  | nil => rfl
  | cons c cs =>
    rw [isBoundary, Bool.not_eq_true']
    obtain ⟨ascii, written⟩ | ⟨-, b, ws, written, begins, -⟩ := bytes_cons_cases c cs
    · rw [written, List.head?_cons, Option.any_some, goesOn, toNat_byte ascii]
      simp only [Bool.and_eq_false_iff, decide_eq_false_iff_not]
      omega
    · rw [written, List.cons_append, List.head?_cons, Option.any_some, goesOn]
      simp only [Bool.and_eq_false_iff, decide_eq_false_iff_not]
      omega

end Encoding

section Agreement

variable {b last : UInt8} {bs ws : List UInt8} {c quote : Char} {cs : List Char}

lemma lineRest_wide (wide : IsWide ws) : lineRest (ws ++ bs) = lineRest bs := by
  induction ws with
  | nil => rfl
  | cons w ws ih =>
    rw [List.cons_append, lineRest, if_neg (ne_byte (wide w List.mem_cons_self) (by decide)),
      ih wide.tail]

lemma blockRest_wide (wide : IsWide ws) : blockRest (ws ++ bs) = blockRest bs := by
  induction ws with
  | nil => rfl
  | cons w ws ih =>
    have other : ¬(w = byte '*' ∧ (ws ++ bs).head? = some (byte '/')) := fun h =>
      ne_byte (wide w List.mem_cons_self) (by decide) h.1
    rw [List.cons_append, blockRest, if_neg other, ih wide.tail]

lemma quotedRest_wide (ascii : quote.toNat < 0x80) (wide : IsWide ws) :
    quotedRest (byte quote) (ws ++ bs) = quotedRest (byte quote) bs := by
  induction ws with
  | nil => rfl
  | cons w ws ih =>
    have other {d : Char} (hd : d.toNat < 0x80) := ne_byte (wide w List.mem_cons_self) hd
    rw [List.cons_append, quotedRest, if_neg (other ascii), if_neg (other (by decide)),
      ih wide.tail]

lemma patternRest_wide {inBrackets : Bool} (wide : IsWide ws) :
    patternRest inBrackets (ws ++ bs) = patternRest inBrackets bs := by
  induction ws with
  | nil => rfl
  | cons w ws ih =>
    have other {d : Char} (hd : d.toNat < 0x80) := ne_byte (wide w List.mem_cons_self) hd
    rw [List.cons_append, patternRest]
    simp only [other (d := '\n') (by decide), other (d := '\\') (by decide),
      other (d := '[') (by decide), other (d := ']') (by decide), other (d := '/') (by decide),
      false_and, if_false, ih wide.tail]

lemma lineRest_bytes (cs : List Char) : lineRest (bytes cs) = bytes (dropLine cs) := by
  fun_induction dropLine cs with
  | case1 => rfl
  | case2 cs => rw [bytes_cons_of_ascii (by decide), lineRest, if_pos rfl]
  | case3 c cs other ih =>
    obtain ⟨ascii, written⟩ | ⟨-, b, ws, written, -, wide, -⟩ := bytes_cons_cases c cs
    · rw [written, lineRest, if_neg (mt (byte_eq_iff ascii (by decide)).1 other), ih]
    · rw [written, lineRest_wide wide, ih]

lemma blockRest_bytes (cs : List Char) : blockRest (bytes cs) = bytes (dropBlock cs) := by
  fun_induction dropBlock cs with
  | case1 => rfl
  | case2 cs =>
    rw [bytes_cons_of_ascii (by decide), bytes_cons_of_ascii (by decide), blockRest,
      if_pos ⟨rfl, rfl⟩, List.tail_cons]
  | case3 c cs other ih =>
    obtain ⟨ascii, written⟩ | ⟨-, b, ws, written, -, wide, -⟩ := bytes_cons_cases c cs
    · have other : ¬(byte c = byte '*' ∧ (bytes cs).head? = some (byte '/')) := by
        rintro ⟨star, slash⟩
        obtain ⟨rest, rfl⟩ := List.head?_eq_some_iff.1 ((head?_bytes_eq_iff (by decide)).1 slash)
        exact other rest ((byte_eq_iff ascii (by decide)).1 star) rfl
      rw [written, blockRest, if_neg other, ih]
    · rw [written, blockRest_wide wide, ih]

lemma quotedRest_bytes (ascii : quote.toNat < 0x80) (cs : List Char) :
    quotedRest (byte quote) (bytes cs) = bytes (dropQuoted quote cs) := by
  fun_induction dropQuoted quote cs with
  | case1 => rw [bytes_nil, quotedRest]
  | case2 cs => rw [bytes_cons_of_ascii ascii, quotedRest, if_pos rfl]
  | case3 other =>
    rw [bytes_cons_of_ascii (by decide), quotedRest,
      if_neg (mt (byte_eq_iff (by decide) ascii).1 other), if_pos rfl, bytes_nil, List.tail_nil,
      quotedRest]
  | case4 d cs other ih =>
    rw [bytes_cons_of_ascii (by decide), quotedRest,
      if_neg (mt (byte_eq_iff (by decide) ascii).1 other), if_pos rfl]
    obtain ⟨-, written⟩ | ⟨-, b, ws, written, -, wide, -⟩ := bytes_cons_cases d cs
    · rw [written, List.tail_cons, ih]
    · rw [written, List.cons_append, List.tail_cons, quotedRest_wide ascii wide.tail, ih]
  | case5 c cs other notSlash ih =>
    obtain ⟨asciiC, written⟩ | ⟨-, b, ws, written, -, wide, -⟩ := bytes_cons_cases c cs
    · rw [written, quotedRest, if_neg (mt (byte_eq_iff asciiC ascii).1 other),
        if_neg (mt (byte_eq_iff asciiC (by decide)).1 notSlash), ih]
    · rw [written, quotedRest_wide ascii wide, ih]

lemma patternRest_bytes (inBrackets : Bool) (cs : List Char) :
    patternRest inBrackets (bytes cs) = bytes (dropPattern inBrackets cs) := by
  fun_induction dropPattern inBrackets cs with
  | case1 => rw [bytes_nil, patternRest]
  | case2 => rw [bytes_cons_of_ascii (by decide), patternRest, if_pos rfl]
  | case3 =>
    rw [bytes_cons_of_ascii (by decide), patternRest, if_neg (by decide), if_pos rfl, bytes_nil,
      List.tail_nil, patternRest]
  | case4 inBrackets d cs _ ih =>
    rw [bytes_cons_of_ascii (by decide), patternRest, if_neg (by decide), if_pos rfl]
    obtain ⟨-, written⟩ | ⟨-, b, ws, written, -, wide, -⟩ := bytes_cons_cases d cs
    · rw [written, List.tail_cons, ih]
    · rw [written, List.cons_append, List.tail_cons, patternRest_wide wide.tail, ih]
  | case5 inBrackets cs _ _ ih =>
    rw [bytes_cons_of_ascii (by decide), patternRest, if_neg (by decide), if_neg (by decide),
      if_pos rfl, ih]
  | case6 inBrackets cs _ _ _ ih =>
    rw [bytes_cons_of_ascii (by decide), patternRest, if_neg (by decide), if_neg (by decide),
      if_neg (by decide), if_pos rfl, ih]
  | case7 inBrackets c cs _ _ _ _ closes =>
    obtain ⟨rfl, rfl⟩ := closes
    rw [bytes_cons_of_ascii (by decide), patternRest, if_neg (by decide), if_neg (by decide),
      if_neg (by decide), if_neg (by decide), if_pos ⟨rfl, rfl⟩]
  | case8 inBrackets c cs feed escape opens ends closes ih =>
    obtain ⟨ascii, written⟩ | ⟨-, b, ws, written, -, wide, -⟩ := bytes_cons_cases c cs
    · have tells {d : Char} (hd : d.toNat < 0x80) (ne : c ≠ d) : byte c ≠ byte d :=
        mt (byte_eq_iff ascii hd).1 ne
      have closes : ¬(byte c = byte '/' ∧ inBrackets = false) := fun h =>
        closes ⟨(byte_eq_iff ascii (by decide)).1 h.1, h.2⟩
      rw [written, patternRest, if_neg (tells (by decide) feed), if_neg (tells (by decide) escape),
        if_neg (tells (by decide) opens), if_neg (tells (by decide) ends), if_neg closes, ih]
    · rw [written, patternRest_wide wide, ih]

/-- A byte of a longer character is code like any other. -/
lemma excessBytes?_long {limit depth : Nat} (long : 0x80 ≤ b.toNat) :
    excessBytes? limit last depth (b :: bs) = excessBytes? limit b depth bs := by
  have other {d : Char} (hd : d.toNat < 0x80) : b ≠ byte d := ne_byte long hd
  have notIn {ds : List Char} (hds : isAscii ds = true) : b ∉ ds.map byte :=
    notMem_map_byte long hds
  have slash {p : Prop} : ¬(b = byte '/' ∧ p) := fun h => other (by decide) h.1
  rw [excessBytes?, if_neg slash, if_neg slash, if_neg slash, if_neg (notIn (by decide)),
    if_neg (notIn (by decide)), if_neg (notIn (by decide)), if_neg (notIn (by decide))]

lemma excessBytes?_wide (limit : Nat) (last : UInt8) (depth : Nat) (bs : List UInt8)
    (wide : IsWide (b :: ws)) :
    ∃ x, 0x80 ≤ x.toNat ∧
      excessBytes? limit last depth ((b :: ws) ++ bs) = excessBytes? limit x depth bs := by
  induction ws generalizing b last with
  | nil => exact ⟨b, wide b List.mem_cons_self, excessBytes?_long (wide b List.mem_cons_self)⟩
  | cons w ws ih =>
    obtain ⟨x, long, same⟩ := ih b wide.tail
    exact ⟨x, long, (excessBytes?_long (wide b List.mem_cons_self)).trans same⟩

/-- A slash after a byte is what it is after the character that the byte ends. -/
def Tells (last : UInt8) (c : Char) : Prop :=
  last ∈ beforePattern.map byte ↔ c ∈ beforePattern

lemma tells_byte (ascii : c.toNat < 0x80) : Tells (byte c) c :=
  mem_map_byte _ ascii (by decide)

lemma tells_long (long : 0x80 ≤ b.toNat) (longChar : 0x80 ≤ c.toNat) : Tells b c := by
  have ascii : isAscii beforePattern = true := by decide
  refine iff_of_false (notMem_map_byte long ascii) fun mem => ?_
  have := ascii_of_mem ascii mem
  omega

/-- Whether a slash begins a comment shows in its bytes. -/
lemma begins_iff (ascii : c.toNat < 0x80) {d : Char} (hd : d.toNat < 0x80) :
    byte c = byte '/' ∧ (bytes cs).head? = some (byte d) ↔ c = '/' ∧ cs.head? = some d :=
  and_congr (byte_eq_iff ascii (by decide)) (head?_bytes_eq_iff hd)

/-- An ASCII character that begins no comment and no regular expression counts for itself. -/
lemma excessBytes?_plain {limit depth : Nat} {d : Char} (tells : Tells last c)
    (ascii : d.toNat < 0x80) (line : ¬(d = '/' ∧ cs.head? = some '/'))
    (block : ¬(d = '/' ∧ cs.head? = some '*')) (pattern : ¬(d = '/' ∧ c ∈ beforePattern)) :
    excessBytes? limit last depth (bytes (d :: cs)) =
      if d ∈ quotes then excessBytes? limit (byte d) depth (bytes (dropQuoted d cs))
      else if d ∈ openers then
        if limit < depth + 1 then some (some (bytes (d :: cs)))
        else excessBytes? limit (byte d) (depth + 1) (bytes cs)
      else if d ∈ enders then excessBytes? limit (byte d) (depth - 1) (bytes cs)
      else excessBytes? limit (if d ∈ blanks then last else byte d) depth (bytes cs) := by
  have pattern : ¬(byte d = byte '/' ∧ last ∈ beforePattern.map byte) := fun h =>
    pattern ⟨(byte_eq_iff ascii (by decide)).1 h.1, tells.1 h.2⟩
  rw [bytes_cons_of_ascii ascii, excessBytes?, if_neg (mt (begins_iff ascii (by decide)).1 line),
    if_neg (mt (begins_iff ascii (by decide)).1 block), if_neg pattern, quotedRest_bytes ascii]
  simp only [mem_map_byte quotes ascii (by decide), mem_map_byte openers ascii (by decide),
    mem_map_byte enders ascii (by decide), mem_map_byte blanks ascii (by decide)]

/-- **The search for a bracket too many never cuts inside a character.** -/
theorem excessBytes?_bytes {limit depth : Nat} (tells : Tells last c) (cs : List Char) :
    excessBytes? limit last depth (bytes cs) = some ((excess? limit c depth cs).map bytes) := by
  -- On the characters: each is one byte that both searches compare, or several that say nothing to them.
  fun_induction excess? limit c depth cs generalizing last with
  | case1 => rw [bytes_nil, excessBytes?, Option.map_none]
  | case2 c depth d cs line ih =>
    obtain ⟨rfl, head⟩ := line
    rw [bytes_cons_of_ascii (by decide), excessBytes?,
      if_pos ⟨rfl, (head?_bytes_eq_iff (by decide)).2 head⟩, lineRest_bytes, ih tells]
  | case3 c depth d cs line block ih =>
    obtain ⟨rfl, head⟩ := block
    obtain ⟨cs, rfl⟩ := List.head?_eq_some_iff.1 head
    have star : bytes ('*' :: cs) = byte '*' :: bytes cs := bytes_cons_of_ascii (by decide)
    rw [bytes_cons_of_ascii (by decide), excessBytes?,
      if_neg (mt (begins_iff (by decide) (by decide)).1 line), if_pos ⟨rfl, by rw [star]; rfl⟩, star,
      List.tail_cons, if_pos (isBoundary_bytes cs), blockRest_bytes]
    exact ih tells
  | case4 c depth d cs line block pattern ih =>
    obtain ⟨rfl, before⟩ := pattern
    rw [bytes_cons_of_ascii (by decide), excessBytes?,
      if_neg (mt (begins_iff (by decide) (by decide)).1 line),
      if_neg (mt (begins_iff (by decide) (by decide)).1 block), if_pos ⟨rfl, tells.2 before⟩,
      patternRest_bytes]
    exact ih (tells_byte (by decide))
  | case5 c depth d cs line block pattern quote ih =>
    have quote := isQuote_eq_true_iff.1 quote
    have ascii := ascii_of_mem (by decide) quote
    rw [excessBytes?_plain tells ascii line block pattern, if_pos quote, ih (tells_byte ascii)]
  | case6 c depth d cs line block pattern quote opens deep =>
    have opens : d ∈ openers := opens
    have ascii := ascii_of_mem (by decide) opens
    rw [excessBytes?_plain tells ascii line block pattern, if_neg (mt isQuote_eq_true_iff.2 quote),
      if_pos opens, if_pos deep, Option.map_some]
  | case7 c depth d cs line block pattern quote opens deep ih =>
    have opens : d ∈ openers := opens
    have ascii := ascii_of_mem (by decide) opens
    rw [excessBytes?_plain tells ascii line block pattern, if_neg (mt isQuote_eq_true_iff.2 quote),
      if_pos opens, if_neg deep, ih (tells_byte ascii)]
  | case8 c depth d cs line block pattern quote opens ends ih =>
    have opens : d ∉ openers := opens
    have ends : d ∈ enders := ends
    have ascii := ascii_of_mem (by decide) ends
    rw [excessBytes?_plain tells ascii line block pattern, if_neg (mt isQuote_eq_true_iff.2 quote),
      if_neg opens, if_pos ends, ih (tells_byte ascii)]
  | case9 c depth d cs line block pattern quote opens ends ih =>
    have opens : d ∉ openers := opens
    have ends : d ∉ enders := ends
    obtain ⟨ascii, -⟩ | ⟨long, b, ws, written, -, wide, -⟩ := bytes_cons_cases d cs
    · rw [excessBytes?_plain tells ascii line block pattern, if_neg (mt isQuote_eq_true_iff.2 quote),
        if_neg opens, if_neg ends]
      refine ih ?_
      by_cases blank : d ∈ blanks
      · rwa [if_pos blank, dif_pos (isAsciiBlank_eq_true_iff.2 blank)]
      · rw [if_neg blank, dif_neg (mt isAsciiBlank_eq_true_iff.1 blank)]
        exact tells_byte ascii
    · obtain ⟨x, longByte, same⟩ := excessBytes?_wide limit last depth (bytes cs) wide
      have notBlank : ¬ Text.isAsciiBlank d = true := fun blank => by
        have : d.toNat < 0x80 := ascii_of_mem (by decide) (isAsciiBlank_eq_true_iff.1 blank)
        omega
      rw [written, same]
      refine ih ?_
      rw [dif_neg notBlank]
      exact tells_long longByte long

lemma lexemeBytes?_long (long : 0x80 ≤ b.toNat) : lexemeBytes? b bs = some (true, bs) := by
  have other {d : Char} (hd : d.toNat < 0x80) : b ≠ byte d := ne_byte long hd
  have notIn {ds : List Char} (hds : isAscii ds = true) : b ∉ ds.map byte :=
    notMem_map_byte long hds
  have slash {p : Prop} : ¬(b = byte '/' ∧ p) := fun h => other (by decide) h.1
  rw [lexemeBytes?, if_neg slash, if_neg slash, if_neg (notIn (by decide)), if_neg (other (by decide)),
    decide_eq_false (notIn (by decide)), Bool.not_false]

lemma lexeme_long (long : 0x80 ≤ c.toNat) : lexeme c cs = (true, cs) := by
  have other {d : Char} (hd : d.toNat < 0x80) : c ≠ d := by rintro rfl; omega
  have notIn {ds : List Char} (hds : isAscii ds = true) : c ∉ ds := fun mem => by
    have := ascii_of_mem hds mem
    omega
  have slash {p : Prop} : ¬(c = '/' ∧ p) := fun h => other (by decide) h.1
  have blank : Text.isAsciiBlank c = false :=
    Bool.eq_false_iff.2 (mt isAsciiBlank_eq_true_iff.1 (notIn (by decide)))
  rw [lexeme, if_neg slash, if_neg slash, if_neg (mt isQuote_eq_true_iff.1 (notIn (by decide))),
    if_neg (other (by decide)), blank, Bool.not_false]

lemma dropWhile_bytes (cs : List Char) : (bytes cs).dropWhile goesOn = bytes cs := by
  have begins := isBoundary_bytes cs
  cases written : bytes cs with
  | nil => rfl
  | cons b bs =>
    rw [written, isBoundary, List.head?_cons, Option.any_some, Bool.not_eq_true'] at begins
    rw [List.dropWhile_cons_of_neg (by simp [begins])]

/-- The bytes behind the first one, from where a character begins. -/
lemma dropWhile_tail_bytes (cs : List Char) : (bytes cs).tail.dropWhile goesOn = bytes cs.tail := by
  cases cs with
  | nil => rfl
  | cons c cs =>
    obtain ⟨-, written⟩ | ⟨-, b, ws, written, -, -, goes⟩ := bytes_cons_cases c cs
    · rw [written, List.tail_cons, dropWhile_bytes, List.tail_cons]
    · rw [written, List.cons_append, List.tail_cons, List.dropWhile_append_of_pos goes,
        dropWhile_bytes, List.tail_cons]

/-- The first lexeme that an ASCII character begins. A backslash takes the whole character after it. -/
lemma lexemeBytes?_byte (ascii : c.toNat < 0x80) (cs : List Char) :
    lexemeBytes? (byte c) (bytes cs) = some ((lexeme c cs).1, bytes (lexeme c cs).2) := by
  unfold lexeme
  split
  next line => rw [lexemeBytes?, if_pos ((begins_iff ascii (by decide)).2 line), lineRest_bytes]
  next line =>
  split
  next block =>
    obtain ⟨rest, rfl⟩ := List.head?_eq_some_iff.1 block.2
    rw [lexemeBytes?, if_neg (mt (begins_iff ascii (by decide)).1 line),
      if_pos ((begins_iff ascii (by decide)).2 block), bytes_cons_of_ascii (by decide), List.tail_cons,
      if_pos (isBoundary_bytes rest), blockRest_bytes, List.tail_cons]
  next block =>
  rw [lexemeBytes?, if_neg (mt (begins_iff ascii (by decide)).1 line),
    if_neg (mt (begins_iff ascii (by decide)).1 block)]
  simp only [mem_map_byte quotes ascii (by decide), mem_map_byte blanks ascii (by decide),
    ← isQuote_eq_true_iff, ← isAsciiBlank_eq_true_iff, byte_eq_iff ascii (d := '\\') (by decide),
    quotedRest_bytes ascii, Bool.decide_eq_true]
  split
  · rfl
  · split
    · rw [dropWhile_tail_bytes]
    · rfl

lemma afterCodeBytes?_cons {rest : List UInt8} {after : Bool × List UInt8}
    (h : lexemeBytes? b bs = some after) :
    afterCodeBytes? rest (b :: bs) = afterCodeBytes? (if after.1 then after.2 else rest) after.2 := by
  rw [afterCodeBytes?]
  split
  · simp_all
  · obtain rfl := Option.some.inj (h.symm.trans ‹_›)
    rfl

/-- A longer character is code. -/
lemma afterCodeBytes?_wide {rest : List UInt8} (wide : IsWide (b :: ws)) :
    afterCodeBytes? rest ((b :: ws) ++ bs) = afterCodeBytes? bs bs := by
  induction ws generalizing b rest with
  | nil => exact afterCodeBytes?_cons (lexemeBytes?_long (wide b List.mem_cons_self))
  | cons w ws ih =>
    exact (afterCodeBytes?_cons (lexemeBytes?_long (wide b List.mem_cons_self))).trans (ih wide.tail)

lemma afterCodeBytes?_bytes (rest cs : List Char) :
    afterCodeBytes? (bytes rest) (bytes cs) = some (bytes (afterCode rest cs)) := by
  fun_induction afterCode rest cs with
  | case1 rest => rw [bytes_nil, afterCodeBytes?]
  | case2 rest c cs ih =>
    obtain ⟨ascii, written⟩ | ⟨long, b, ws, written, -, wide, -⟩ := bytes_cons_cases c cs
    · rw [written, afterCodeBytes?_cons (lexemeBytes?_byte ascii cs), ← apply_ite bytes]
      exact ih
    · rw [written, afterCodeBytes?_wide wide]
      rw [lexeme_long long] at ih ⊢
      exact ih

end Agreement

end ScriptTyping.Scan
