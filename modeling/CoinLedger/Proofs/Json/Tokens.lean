import CoinLedger.Json.Printer
import CoinLedger.Json.Record
import CoinLedger.Json.Token
import CoinLedger.Proofs.Json.Escape
import CoinLedger.Proofs.Json.Numeral
import CoinLedger.Proofs.Json.Spaced

/-!
The tokens of written forms. Main statement: a document that is made of texts, integers, arrays and
fields is cut into its tokens, whatever white space its form has.
-/

namespace CoinLedger.Json

/-- The documents that are made of texts, integers, arrays and fields. -/
inductive Built : Json → Prop
  | ofInt (n : Int) : Built (.ofInt n)
  | ofText (s : String) : Built (.ofText s)
  | array {items : List Json} : (∀ v ∈ items, Built v) → Built (.array items)
  | ofFields {fields : List (String × Json)} : (∀ f ∈ fields, Built f.2) → Built (.ofFields fields)

mutual

/-- The tokens of a written form. -/
def tokens : Json → List Token
  | .string raw => [.string raw]
  | .array [] => [.beginArray, .endArray]
  | .array (v :: items) => .beginArray :: tokens v ++ itemTokens items ++ [.endArray]
  | .object [] => [.beginObject, .endObject]
  | .object ((k, v) :: members) =>
    .beginObject :: .string k :: .colon :: tokens v ++ memberTokens members ++ [.endObject]
  | v => [.atom v]

def itemTokens : List Json → List Token
  | [] => []
  | v :: items => .comma :: tokens v ++ itemTokens items

def memberTokens : List (List UInt8 × Json) → List Token
  | [] => []
  | (k, v) :: members => .comma :: .string k :: .colon :: tokens v ++ memberTokens members

end

/-- The lexer between tokens, some tokens being read. -/
def lexed (ts : List Token) : Lexer := ⟨ts.reverse, .between⟩

def lex (l : Lexer) (bytes : List UInt8) : Option Lexer := bytes.foldlM Lexer.step l

theorem lex_cons (l : Lexer) (b : UInt8) (bytes : List UInt8) :
    lex l (b :: bytes) = (l.step b).bind fun l => lex l bytes := List.foldlM_cons

theorem lex_punctuation {b : UInt8} {t : Token} (ts : List Token) (rest : List UInt8)
    (start : Lexer.start ts.reverse b = some ⟨t :: ts.reverse, .between⟩) :
    lex (lexed ts) (b :: rest) = lex (lexed (ts ++ [t])) rest := by
  rw [lex_cons, lexed, lexed, List.reverse_append]
  simp only [Lexer.step, start]
  rfl

theorem lex_blanks {blanks : List UInt8} (h : ∀ b ∈ blanks, isSpace b = true) (ts : List Token)
    (rest : List UInt8) : lex (lexed ts) (blanks ++ rest) = lex (lexed ts) rest := by
  induction blanks with
  | nil => rfl
  | cons b blanks ih =>
    have start : Lexer.start ts.reverse b = some ⟨ts.reverse, .between⟩ := if_pos (h b (by simp))
    rw [List.cons_append, lex_cons, ← ih fun c hc => h c (by simp [hc])]
    simp only [lexed, Lexer.step, start, Option.bind_some]

/-- The bytes end a word that was begun before them. -/
def EndsWord (bytes : List UInt8) : Prop := ∃ b rest, bytes = b :: rest ∧ isWordByte b = false

/-- The forms of a document are cut into its tokens, whatever follows and ends a word. -/
def Lexes (v : Json) : Prop :=
  ∀ s level ts rest, EndsWord rest →
    lex (lexed ts) (spaced s level v ++ rest) = lex (lexed (ts ++ tokens v)) rest

/-- An escaped byte leaves the lexer in the string. -/
theorem lex_escapeByte (ts : List Token) (rev : List UInt8) (b : UInt8) (rest : List UInt8) :
    lex ⟨ts, .string rev .plain⟩ (escapeByte b ++ rest) =
      lex ⟨ts, .string ((escapeByte b).reverse ++ rev) .plain⟩ rest := by
  have hex : ∀ n < 16, isHexByte (hexDigit n) = true := by decide
  unfold escapeByte
  split
  · rfl
  split
  · rfl
  split
  · rfl
  split
  · rfl
  split
  · rfl
  split
  · rfl
  split
  · rfl
  split
  · next control =>
    have small : b.toNat < 32 := UInt8.lt_iff_toNat_lt.1 control
    have high := hex (b.toNat / 16) (by omega)
    have low := hex (b.toNat % 16) (by omega)
    have zero : isHexByte 0x30 = true := by decide
    have unit : isShortEscape 0x75 = false := by decide
    simp [lex_cons, Lexer.step, Lexer.inString, high, low, zero]
  · next quote backslash _ _ _ _ _ control =>
    simp [lex_cons, Lexer.step, Lexer.inString, quote, backslash, control]

theorem lex_escape (ts : List Token) (rev bytes rest : List UInt8) :
    lex ⟨ts, .string rev .plain⟩ (escape bytes ++ rest) =
      lex ⟨ts, .string ((escape bytes).reverse ++ rev) .plain⟩ rest := by
  induction bytes generalizing rev with
  | nil => rfl
  | cons b bytes ih =>
    rw [escape, List.flatMap_cons, ← escape, List.append_assoc, lex_escapeByte, ih,
      List.reverse_append, List.append_assoc]

theorem lex_quote (ts : List Token) (s : String) (rest : List UInt8) :
    lex (lexed ts) (quote (rawText s) ++ rest) = lex (lexed (ts ++ [.string (rawText s)])) rest := by
  have first : lex (lexed ts) (quote (rawText s) ++ rest) =
      lex ⟨ts.reverse, .string [] .plain⟩ (rawText s ++ (0x22 :: rest)) := by
    rw [quote, List.cons_append, List.cons_append, List.append_assoc, lex_cons]
    rfl
  rw [first, rawText, lex_escape, List.append_nil, lex_cons]
  simp [Lexer.step, Lexer.inString, lexed]

theorem lex_word (ts : List Token) (rev : List UInt8) {word : List UInt8}
    (h : ∀ b ∈ word, isWordByte b = true) (rest : List UInt8) :
    lex ⟨ts, .word rev⟩ (word ++ rest) = lex ⟨ts, .word (word.reverse ++ rev)⟩ rest := by
  induction word generalizing rev with
  | nil => rfl
  | cons b word ih =>
    rw [List.cons_append, lex_cons]
    simp only [Lexer.step, h b (by simp), if_true, Option.bind_some]
    rw [ih _ fun c hc => h c (by simp [hc]), List.reverse_cons, List.append_assoc]
    rfl

theorem isWordByte_of_isDigitByte {b : UInt8} (h : Numeral.IsDigitByte b) : isWordByte b = true := by
  simp [isWordByte, h.1, h.2]

theorem isWordByte_of_mem_bytes {n : Int} {b : UInt8} (member : b ∈ (Numeral.ofInt n).bytes) :
    isWordByte b = true := by
  rw [Numeral.bytes_ofInt, List.mem_append] at member
  rcases member with minus | digit
  · split at minus
    · rw [List.mem_singleton.1 minus]
      rfl
    · exact nomatch minus
  · exact isWordByte_of_isDigitByte
      (Numeral.isDigitByte_of_mem Numeral.isDigit_of_mem_toDigits digit)

theorem start_wordByte (ts : List Token) {b : UInt8} (h : isWordByte b = true) :
    Lexer.start ts b = some ⟨ts, .word [b]⟩ := by
  have space : isSpace b = false := by
    cases space : isSpace b with
    | false => rfl
    | true =>
      simp only [isSpace, Bool.or_eq_true, beq_iff_eq, or_assoc] at space
      rcases space with rfl | rfl | rfl | rfl <;> exact absurd h (by decide)
  have quote : b ≠ 0x22 := by
    rintro rfl
    exact absurd h (by decide)
  simp [Lexer.start, space, quote, h]

/-- The words of other scalars start with a letter, and no numeral does. -/
theorem bytes_ofInt_ne {n : Int} {b : UInt8} {rest : List UInt8} (letter : 0x39 < b) :
    (Numeral.ofInt n).bytes ≠ b :: rest := by
  intro same
  have member : b ∈ (Numeral.ofInt n).bytes := by rw [same]; exact List.mem_cons_self
  rw [Numeral.bytes_ofInt, List.mem_append] at member
  rcases member with minus | digit
  · split at minus
    · rw [List.mem_singleton.1 minus] at letter
      exact absurd letter (by decide)
    · exact nomatch minus
  · have digit := Numeral.isDigitByte_of_mem Numeral.isDigit_of_mem_toDigits digit
    exact UInt8.not_lt.2 digit.2 letter

theorem atom?_bytes_ofInt (n : Int) : atom? (Numeral.ofInt n).bytes = some (.ofInt n) := by
  have null : (Numeral.ofInt n).bytes ≠ Text.utf8 "null" := bytes_ofInt_ne (by decide)
  have yes : (Numeral.ofInt n).bytes ≠ Text.utf8 "true" := bytes_ofInt_ne (by decide)
  have no : (Numeral.ofInt n).bytes ≠ Text.utf8 "false" := bytes_ofInt_ne (by decide)
  rw [atom?, if_neg null, if_neg yes, if_neg no, Numeral.ofBytes?_bytes_ofInt]
  rfl

/-- A numeral is one token, cut off by the byte that ends it. -/
theorem lexes_ofInt (n : Int) : Lexes (.ofInt n) := by
  rintro s level ts _ ⟨b, rest, rfl, ends⟩
  have words : ∀ c ∈ (Numeral.ofInt n).bytes, isWordByte c = true := fun _ => isWordByte_of_mem_bytes
  change lex (lexed ts) ((Numeral.ofInt n).bytes ++ b :: rest) = _
  cases written : (Numeral.ofInt n).bytes with
  | nil =>
    have atom := atom?_bytes_ofInt n
    rw [written] at atom
    exact nomatch atom
  | cons c word =>
    rw [written] at words
    have begin : Lexer.start ts.reverse c = some ⟨ts.reverse, .word [c]⟩ :=
      start_wordByte _ (words c (by simp))
    have atom := atom?_bytes_ofInt n
    rw [written] at atom
    rw [List.cons_append, lex_cons, lexed]
    simp only [Lexer.step, begin, Option.bind_some]
    rw [lex_word _ _ fun d hd => words d (by simp [hd]), lex_cons, lex_cons]
    simp only [Lexer.step, ends, Bool.false_eq_true, if_false, List.reverse_append,
      List.reverse_reverse, List.reverse_singleton, List.singleton_append, atom, Option.bind_some]
    simp [lexed, ofInt, tokens]

theorem lexes_ofText (s : String) : Lexes (.ofText s) := by
  intro _ _ ts rest _
  exact lex_quote ts s rest

theorem endsWord_cons {b : UInt8} (h : isWordByte b = false) (rest : List UInt8) :
    EndsWord (b :: rest) := ⟨b, rest, rfl, h⟩

theorem isWordByte_of_isSpace {b : UInt8} (h : isSpace b = true) : isWordByte b = false := by
  simp only [isSpace, Bool.or_eq_true, beq_iff_eq, or_assoc] at h
  rcases h with rfl | rfl | rfl | rfl <;> decide

theorem EndsWord.blanks {bytes blanks : List UInt8} (h : EndsWord bytes)
    (blank : ∀ b ∈ blanks, isSpace b = true) : EndsWord (blanks ++ bytes) := by
  cases blanks with
  | nil => exact h
  | cons b blanks => exact endsWord_cons (isWordByte_of_isSpace (blank b (by simp))) _

variable {s : Spacing} {level : Nat}

theorem EndsWord.items {rest : List UInt8} (h : EndsWord rest) (items : List Json) :
    EndsWord (spacedItems s level items ++ rest) := by
  cases items with
  | nil => exact h
  | cons v items => exact endsWord_cons (by decide) _

theorem EndsWord.members {rest : List UInt8} (h : EndsWord rest)
    (members : List (List UInt8 × Json)) : EndsWord (spacedMembers s level members ++ rest) := by
  cases members with
  | nil => exact h
  | cons m members => exact endsWord_cons (by decide) _

theorem lex_line (ts : List Token) (rest : List UInt8) :
    lex (lexed ts) (s.line level ++ rest) = lex (lexed ts) rest :=
  lex_blanks (s.line_blank level) ts rest

theorem lex_gap (ts : List Token) (rest : List UInt8) :
    lex (lexed ts) (s.gap ++ rest) = lex (lexed ts) rest := lex_blanks s.gap_blank ts rest

theorem lex_spacedItems {items : List Json} (h : ∀ v ∈ items, Lexes v) (ts : List Token)
    {rest : List UInt8} (ends : EndsWord rest) :
    lex (lexed ts) (spacedItems s level items ++ rest) =
      lex (lexed (ts ++ itemTokens items)) rest := by
  induction items generalizing ts with
  | nil => simp [spacedItems, itemTokens]
  | cons v items ih =>
    have later := ih fun w hw => h w (by simp [hw])
    rw [spacedItems]
    simp only [List.cons_append, List.append_assoc]
    rw [lex_punctuation (t := .comma) _ _ rfl, lex_line, h v (by simp) _ _ _ _ (ends.items items),
      later]
    simp [itemTokens]

theorem lexes_array {items : List Json} (h : ∀ v ∈ items, Lexes v) : Lexes (.array items) := by
  intro s level ts rest _
  have close : EndsWord (s.line level ++ 0x5d :: rest) :=
    (endsWord_cons (by decide) rest).blanks (s.line_blank level)
  cases items with
  | nil =>
    change lex (lexed ts) (0x5b :: 0x5d :: rest) = _
    rw [lex_punctuation (t := .beginArray) _ _ rfl, lex_punctuation (t := .endArray) _ _ rfl]
    simp [tokens]
  | cons v items =>
    have first := h v (by simp)
    have others : ∀ w ∈ items, Lexes w := fun w hw => h w (by simp [hw])
    rw [spaced]
    simp only [List.cons_append, List.append_assoc, List.nil_append]
    rw [lex_punctuation (t := .beginArray) _ _ rfl, lex_line, first _ _ _ _ (close.items items),
      lex_spacedItems others _ close, lex_line, lex_punctuation (t := .endArray) _ _ rfl]
    simp [tokens]

def rawFields (fields : List (String × Json)) : List (List UInt8 × Json) :=
  fields.map fun (name, v) => (rawText name, v)

theorem lex_spacedMembers {fields : List (String × Json)} (h : ∀ f ∈ fields, Lexes f.2)
    (ts : List Token) {rest : List UInt8} (ends : EndsWord rest) :
    lex (lexed ts) (spacedMembers s level (rawFields fields) ++ rest) =
      lex (lexed (ts ++ memberTokens (rawFields fields))) rest := by
  induction fields generalizing ts with
  | nil => simp [rawFields, spacedMembers, memberTokens]
  | cons f fields ih =>
    have later := ih fun g hg => h g (by simp [hg])
    have members : rawFields (f :: fields) = (rawText f.1, f.2) :: rawFields fields := rfl
    rw [members, spacedMembers]
    simp only [List.cons_append, List.append_assoc]
    rw [lex_punctuation (t := .comma) _ _ rfl, lex_line, lex_quote,
      lex_punctuation (t := .colon) _ _ rfl, lex_gap, h f (by simp) _ _ _ _ (ends.members _), later]
    simp [memberTokens]

/-- An object ends by itself, so anything may follow it. -/
theorem lex_ofFields {fields : List (String × Json)} (h : ∀ f ∈ fields, Lexes f.2)
    (ts : List Token) (rest : List UInt8) :
    lex (lexed ts) (spaced s level (.ofFields fields) ++ rest) =
      lex (lexed (ts ++ tokens (.ofFields fields))) rest := by
  have close : EndsWord (s.line level ++ 0x7d :: rest) :=
    (endsWord_cons (by decide) rest).blanks (s.line_blank level)
  cases fields with
  | nil =>
    change lex (lexed ts) (0x7b :: 0x7d :: rest) = _
    rw [lex_punctuation (t := .beginObject) _ _ rfl, lex_punctuation (t := .endObject) _ _ rfl]
    simp [ofFields, tokens]
  | cons f fields =>
    have others : ∀ g ∈ fields, Lexes g.2 := fun g hg => h g (by simp [hg])
    have members : ofFields (f :: fields) = .object ((rawText f.1, f.2) :: rawFields fields) := rfl
    rw [members, spaced]
    simp only [List.cons_append, List.append_assoc, List.nil_append]
    rw [lex_punctuation (t := .beginObject) _ _ rfl, lex_line, lex_quote,
      lex_punctuation (t := .colon) _ _ rfl, lex_gap, h f (by simp) _ _ _ _ (close.members _),
      lex_spacedMembers others _ close, lex_line, lex_punctuation (t := .endObject) _ _ rfl]
    simp [tokens]

theorem Built.lexes {v : Json} (h : Built v) : Lexes v := by
  induction h with
  | ofInt n => exact lexes_ofInt n
  | ofText s => exact lexes_ofText s
  | array _ ih => exact lexes_array ih
  | ofFields _ ih => exact fun _ _ ts rest _ => lex_ofFields ih ts rest

theorem tokens?_spaced {fields : List (String × Json)} (h : ∀ f ∈ fields, Built f.2) :
    tokens? (spaced s level (.ofFields fields)) = some (tokens (.ofFields fields)) := by
  have run := @lex_ofFields s level fields (fun f member => (h f member).lexes) [] []
  rw [List.append_nil] at run
  change (lex (lexed []) _).bind Lexer.finish = _
  rw [run]
  simp [lex, lexed, Lexer.finish]

end CoinLedger.Json
