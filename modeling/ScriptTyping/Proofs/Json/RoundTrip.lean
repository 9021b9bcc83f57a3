import ScriptTyping.Proofs.Json.Numeral

/-!
# What is written is read back

`Json.value` is what a value of JSON denotes. `decode?_prettyText` reads its indented text: one
token leads from state to state (`run?_token`), blanks change nothing (`run?_blank`), and by
induction on the value its text leads from a state that waits for a value to the state after it.
-/

namespace ScriptTyping.Json

mutual

/-- What a value denotes. -/
def value : Json → Value
  | null => .null
  | bool b => .bool b
  | nat n => .number n
  | magnitude m => m.value
  | string s => .string s
  | array items => .array (values items)
  | object members => .object (valuesOfMembers members)

/-- What items denote. -/
def values : List Json → List Value
  | [] => []
  | j :: js => value j :: values js

/-- What members denote. -/
def valuesOfMembers : List (String × Json) → List (String × Value)
  | [] => []
  | (k, j) :: ms => (k, value j) :: valuesOfMembers ms

end

@[simp] lemma values_eq (items : List Json) : values items = items.map value := by
  induction items with
  | nil => rfl
  | cons j js ih => rw [values, ih, List.map_cons]

@[simp] lemma valuesOfMembers_eq (members : List (String × Json)) :
    valuesOfMembers members = members.map fun m => (m.1, m.2.value) := by
  induction members with
  | nil => rfl
  | cons m ms ih => rw [valuesOfMembers, ih, List.map_cons]

lemma map_fst_valuesOfMembers (members : List (String × Json)) :
    (valuesOfMembers members).map Prod.fst = members.map Prod.fst := by
  rw [valuesOfMembers_eq, List.map_map]
  rfl

namespace Reader

/-! ### Strings -/

/-- The escape of a control character by its number. -/
lemma escape?_control {c : Char} (control : c.toNat < 0x20) (rest : List Char) :
    escape? ('u' :: '0' :: '0' :: Text.hexDigit (c.toNat / 16) :: Text.hexDigit (c.toNat % 16) ::
      rest) = some (c, rest) := by
  have value : ∀ n < 0x20, Literal.digits? 16
      ['0', '0', Text.hexDigit (n / 16), Text.hexDigit (n % 16)] = some n := by decide
  have valid : c.toNat.isValidChar := .inl (by omega)
  simp [escape?, unicode?, unit?, value c.toNat control, valid]

/-- What is written for a character is read as the character. -/
lemma string?_quoteChar (c : Char) (rest : List Char) :
    string? (Text.quoteChar c ++ rest) = (string? rest).map fun (s, rest) => (c :: s, rest) := by
  unfold Text.quoteChar
  split
  case h_8 plain =>
    split
    case isTrue control =>
      have read := escape?_control control rest
      simp only [List.cons_append, List.nil_append]
      rw [string?, read]
    case isFalse printable =>
      rw [List.singleton_append, string?]
      all_goals simp_all
  all_goals
    simp only [List.cons_append, List.nil_append]
    rw [string?]
    rfl

/-- A text between quotes is read up to the closing one. -/
lemma string?_quoted (cs after : List Char) :
    string? (cs.flatMap Text.quoteChar ++ '"' :: after) = some (cs, after) := by
  induction cs with
  | nil => simp [string?]
  | cons c cs ih => rw [List.flatMap_cons, List.append_assoc, string?_quoteChar, ih, Option.map_some]

lemma token?_quoted (s : String) (after : List Char) :
    token? (Text.quoted s.toList ++ after) = some (.string s, after) := by
  simp [Text.quoted, token?, string?_quoted]

/-! ### Steps -/

variable {s : State} {fs : List Frame} {cs rest after : List Char} {t : Token}

lemma run?_blank (blank : List Char) (h : ∀ c ∈ blank, isBlank c = true) :
    run? s (blank ++ cs) = run? s cs := by
  rw [run?_eq, run?_eq, List.dropWhile_append_of_pos h]

lemma not_isBlank_of_token? (h : token? cs = some (t, rest)) : ∀ c ∈ cs.head?, isBlank c = false := by
  cases cs with
  | nil => cases h
  | cons c cs =>
    rintro _ ⟨⟩
    by_contra blank
    simp only [isBlank, Bool.not_eq_false, Bool.or_eq_true, beq_iff_eq] at blank
    rcases blank with ((rfl | rfl) | rfl) | rfl
    all_goals cases h

/-- A token leads from one state to the next. -/
lemma run?_token (s' : State) (h : token? cs = some (t, rest)) (step : s.next? t = some s') :
    run? s cs = run? s' rest := by
  have solid := not_isBlank_of_token? h
  cases cs with
  | nil => cases h
  | cons c cs =>
    have same : (c :: cs).dropWhile isBlank = c :: cs := by simp [solid c rfl]
    rw [run?_eq, same, if_neg (List.cons_ne_nil c cs), h, Option.bind_some]
    dsimp only
    rw [step, Option.bind_some]

lemma run?_newLine (level : Nat) (after : List Char) :
    run? s (newLine level after) = run? s after := by
  refine run?_blank ('\n' :: List.replicate (2 * level) ' ') fun c hc => ?_
  rcases List.mem_cons.1 hc with rfl | hc
  · rfl
  · rw [List.eq_of_mem_replicate hc]
    rfl

lemma run?_space : run? s (' ' :: cs) = run? s cs :=
  run?_blank [' '] fun c hc => by rw [List.mem_singleton.1 hc]; rfl

/-! ### Values -/

lemma ends_newLine (level : Nat) (after : List Char) : Ends (newLine level after) := by
  rintro c ⟨⟩
  exact .inr rfl

lemma ends_comma (after : List Char) : Ends (',' :: after) := by
  rintro c ⟨⟩
  exact .inl rfl

/-- A key with its colon. -/
lemma run?_keyText (ms : List (String × Value)) (k : String) :
    run? (.key ms fs) (keyText k after) = run? (.value (.object ms k :: fs)) after := by
  rw [keyText, run?_token (.colon ms k fs) (token?_quoted k _)]
  · exact run?_token _ rfl rfl
  · cases ms
    all_goals rfl

/-- A value that is neither an array nor an object. -/
lemma run?_scalar {j : Json} (plain : ∀ items, j ≠ .array items) (plain' : ∀ ms, j ≠ .object ms)
    (ends : Ends after) :
    run? (.value fs) (scalar j ++ after) = run? (.after j.value fs) after := by
  cases j with
  | null => exact run?_token _ rfl rfl
  | bool b =>
    cases b
    all_goals exact run?_token _ rfl rfl
  | nat n => exact run?_token _ (token?_of_unsigned? (unsigned?_toDigits n ends)) rfl
  | magnitude m => exact run?_token _ (token?_jsonText m ends) rfl
  | string s => exact run?_token _ (token?_quoted s after) rfl
  | array items => exact absurd rfl (plain items)
  | object ms => exact absurd rfl (plain' ms)

mutual

/-- The text of a value. -/
lemma run?_pretty (level : Nat) (j : Json) (fs : List Frame) {after : List Char}
    (ends : Ends after) :
    run? (.value fs) (j.pretty level after) = run? (.after j.value fs) after := by
  match j with
  | .array [] =>
    rw [pretty, run?_token (.value (.array [] :: fs)) rfl rfl]
    exact run?_token _ rfl rfl
  | .array (j :: js) =>
    rw [pretty, run?_token (.value (.array [] :: fs)) rfl rfl, value, values_eq]
    exact run?_prettyItems (level + 1) level (j :: js) (List.cons_ne_nil j js) [] fs after
  | .object [] =>
    rw [pretty, run?_token (.key [] fs) rfl rfl]
    exact run?_token _ rfl rfl
  | .object (m :: ms) =>
    rw [pretty, run?_token (.key [] fs) rfl rfl, value, valuesOfMembers_eq]
    exact run?_prettyMembers (level + 1) level (m :: ms) (List.cons_ne_nil m ms) [] fs after
  | .null | .bool _ | .nat _ | .magnitude _ | .string _ =>
    rw [pretty]
    · exact run?_scalar nofun nofun ends
    all_goals nofun

/-- The text of items, up to the bracket that ends their array. -/
lemma run?_prettyItems (level outer : Nat) (items : List Json) (ne : items ≠ [])
    (before : List Value) (fs : List Frame) (after : List Char) :
    run? (.value (.array before :: fs)) (prettyItems level items (newLine outer (']' :: after))) =
      run? (.after (.array (before.reverse ++ items.map value)) fs) after := by
  match items with
  | [] => exact absurd rfl ne
  | [j] =>
    rw [prettyItems, run?_newLine, run?_pretty level j _ (ends_newLine outer _), run?_newLine,
      List.map_singleton, ← List.reverse_cons]
    exact run?_token _ rfl rfl
  | j :: j' :: js =>
    rw [prettyItems, run?_newLine, run?_pretty level j _ (ends_comma _),
      run?_token (.value (.array (j.value :: before) :: fs)) rfl rfl,
      run?_prettyItems level outer (j' :: js) (List.cons_ne_nil j' js)]
    · simp
    · exact List.cons_ne_nil j' js

/-- The text of members, up to the brace that ends their object. -/
lemma run?_prettyMembers (level outer : Nat) (members : List (String × Json)) (ne : members ≠ [])
    (before : List (String × Value)) (fs : List Frame) (after : List Char) :
    run? (.key before fs) (prettyMembers level members (newLine outer ('\x7d' :: after))) =
      run? (.after (.object (before.reverse ++ members.map fun m => (m.1, m.2.value))) fs)
        after := by
  match members with
  | [] => exact absurd rfl ne
  | [(k, j)] =>
    rw [prettyMembers, run?_newLine, run?_keyText, run?_space,
      run?_pretty level j _ (ends_newLine outer _), run?_newLine, List.map_singleton,
      ← List.reverse_cons]
    exact run?_token _ rfl rfl
  | (k, j) :: m :: ms =>
    rw [prettyMembers, run?_newLine, run?_keyText, run?_space,
      run?_pretty level j _ (ends_comma _),
      run?_token (.key ((k, j.value) :: before) fs) rfl rfl,
      run?_prettyMembers level outer (m :: ms) (List.cons_ne_nil m ms)]
    · simp
    · exact List.cons_ne_nil m ms

end

end Reader

/-- Every value is read back from its indented text. -/
theorem decode?_prettyText (j : Json) : decode? j.prettyText = some j.value := by
  have ends : Reader.Ends [] := by
    rintro c ⟨⟩
  rw [decode?, prettyText, String.toList_ofList, Reader.run?_pretty 0 j [] ends,
    Reader.run?_eq]
  rfl

end ScriptTyping.Json
