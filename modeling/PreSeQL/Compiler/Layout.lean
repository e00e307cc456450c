/-
  PreSeQL.Compiler.Layout — tokenizing undoes printing.

  `LexemeOf` gives every class but the bare quote its lexemes; `Layout` puts them in a
  row with whitespace between them, which may be left out beside a mark (punctuation
  or the star).  A lexeme of the lexicon is a mark, a word, the bare quote or a text in
  quotes (`lexeme_shape`), so none goes on past a lexeme that is laid out:

    • `LexemeOf.stops` — for a text in quotes by the parity of its quotes,
    • `tokenize_layout` — the tokens of a layout are its tokens,
    • `tokenize_print` — so with one space between neighbours.
-/
import PreSeQL.Compiler.Lexing
import PreSeQL.Compiler.Printing

namespace PreSeQL.Compiler

open TokenType
open PreSeQL.Lib (Regex FirstOf Lexicon)
open PreSeQL.Lib.Lexicon (Piece)

/-! ## §1. The lexemes of each class. -/

/-- Over the characters of a text, and not over all characters. -/
instance (priority := high) decidableBAll {p : Char → Prop} [DecidablePred p] (text : Text) :
    Decidable (∀ c ∈ text, p c) :=
  List.decidableBAll p text

instance (priority := high) decidableBEx {p : Char → Prop} [DecidablePred p] (text : Text) :
    Decidable (∃ c ∈ text, p c) :=
  List.decidableBEx p text

/-- A letter or underscore, then letters and digits. -/
def IsName : Text → Prop
  | [] => False
  | c :: rest => (letter c || c = '_') = true ∧ ∀ d ∈ rest, (letter d || digit d) = true

instance : DecidablePred IsName
  | [] => inferInstanceAs (Decidable False)
  | c :: rest =>
      inferInstanceAs (Decidable
        ((letter c || c = '_') = true ∧ ∀ d ∈ rest, (letter d || digit d) = true))

/-- A word of the table. -/
def LexemeTable.Has (table : LexemeTable) (lexeme : Text) : Prop :=
  lexeme ∈ table.entries.map Prod.fst

instance (table : LexemeTable) : DecidablePred table.Has :=
  fun lexeme => inferInstanceAs (Decidable (lexeme ∈ table.entries.map Prod.fst))

inductive LexemeOf : TokenType → Text → Prop
  | keyword {type : TokenType} {lexeme : Text} :
      (lexeme, type) ∈ keywords.entries → LexemeOf type lexeme
  | type_name {type : TokenType} {lexeme : Text} :
      (lexeme, type) ∈ types.entries → LexemeOf type lexeme
  | operator {type : TokenType} {lexeme : Text} :
      (lexeme, type) ∈ operators.entries → LexemeOf type lexeme
  | punctuation {type : TokenType} {lexeme : Text} :
      (lexeme, type) ∈ punctuations.entries → type ≠ TOKEN_PUNC_QUOTE → LexemeOf type lexeme
  | identifier {lexeme : Text} :
      IsName lexeme → ¬ keywords.Has lexeme → ¬ types.Has lexeme →
        LexemeOf TOKEN_IDENTIFIER lexeme
  | varchar_literal (content : Text) : LexemeOf TOKEN_VARCHAR_LITERAL (quote content)
  | int_literal (n : Nat) : LexemeOf TOKEN_INT_LITERAL (decimal n)

/-! ## §2. Texts in quotes. -/

/-- What is left of a literal behind its first quote. -/
def quoted_rest : Regex Char :=
  .seq (.star (.alt (.cls fun c => c ≠ '\'') (.seq (.char '\'') (.char '\'')))) (.char '\'')

theorem mem_varchar_literal (lexeme : Text) :
    lexeme ∈ varchar_literal_pattern.language ↔
      ∃ rest, lexeme = '\'' :: rest ∧ rest ∈ quoted_rest.language :=
  Regex.mem_seq_char

theorem quoted_rest_cons {c : Char} (hc : c ≠ '\'') (rest : Text) :
    c :: rest ∈ quoted_rest.language ↔ rest ∈ quoted_rest.language := by
  rw [← Regex.mem_deriv]
  simp [quoted_rest, Regex.deriv, Regex.nullable, Regex.char, Regex.language, hc]

/-- A quote ends the literal or is the first of two. -/
theorem quoted_rest_quote (rest : Text) :
    '\'' :: rest ∈ quoted_rest.language ↔
      rest = [] ∨ ∃ rest', rest = '\'' :: rest' ∧ rest' ∈ quoted_rest.language := by
  -- what may follow, as a language: the end, or a quote and the same again
  have hderiv : (quoted_rest.deriv '\'').language =
      (Regex.seq (.char '\'') quoted_rest).language + 1 := by
    simp [quoted_rest, Regex.deriv, Regex.nullable, Regex.char, Regex.language, mul_assoc]
  rw [← Regex.mem_deriv, hderiv, Language.mem_add, Regex.mem_seq_char, Language.mem_one]
  exact or_comm

theorem escape_mem (content : Text) : escape content ++ ['\''] ∈ quoted_rest.language := by
  induction content with
  | nil => exact (quoted_rest_quote []).mpr (.inl rfl)
  | cons c content ih =>
      by_cases hc : c = '\''
      · rw [escape, if_pos hc]
        exact (quoted_rest_quote _).mpr (.inr ⟨_, rfl, ih⟩)
      · rw [escape, if_neg hc]
        exact (quoted_rest_cons hc _).mpr ih

/-- Behind a closed literal only a quote goes on: induction on the content, two quotes
at a time. -/
theorem escape_notMem (content : Text) {c : Char} (hc : c ≠ '\'') (rest : Text) :
    escape content ++ '\'' :: c :: rest ∉ quoted_rest.language := by
  induction content with
  | nil =>
      show '\'' :: c :: rest ∉ quoted_rest.language
      rw [quoted_rest_quote]
      rintro (h | ⟨rest', h, -⟩)
      · exact List.cons_ne_nil c rest h
      · exact hc (List.cons_eq_cons.mp h).1
  | cons d content ih =>
      by_cases hd : d = '\''
      · rw [escape, if_pos hd, List.cons_append, quoted_rest_quote]
        rintro (h | ⟨rest', h, h'⟩)
        · cases h
        · obtain ⟨-, rfl⟩ := List.cons_eq_cons.mp h
          exact ih h'
      · rw [escape, if_neg hd, List.cons_append, quoted_rest_cons hd]
        exact ih

/-! ## §3. Every lexeme is one of its class. -/

theorem decimal_digit (n : Fin 10) : decimal n = [Nat.digitChar n] := by
  rw [decimal, if_pos n.isLt]

theorem digitChar_digit : ∀ {n : Nat}, n < 10 → digit (Nat.digitChar n) = true := by
  decide

theorem digitChar_positive : ∀ {n : Nat}, n < 10 → n ≠ 0 →
    ('1' ≤ Nat.digitChar n && Nat.digitChar n ≤ '9') = true := by
  decide

/-- A positive number starts with a digit other than 0. -/
theorem decimal_cons (n : Nat) (hn : n ≠ 0) :
    ∃ c rest, decimal n = c :: rest ∧ ('1' ≤ c && c ≤ '9') = true ∧
      ∀ d ∈ rest, digit d = true := by
  induction n using Nat.strong_induction_on with
  | _ n ih =>
      rw [decimal]
      split
      next hlt => exact ⟨_, [], rfl, digitChar_positive hlt hn, by simp⟩
      next hlt =>
        -- the number without its last digit is positive too
        obtain ⟨c, rest, hdecimal, hc, hrest⟩ := ih (n / 10) (by omega) (by omega)
        refine ⟨c, rest ++ [Nat.digitChar (n % 10)], by rw [hdecimal]; rfl, hc, ?_⟩
        intro d hd
        rcases List.mem_append.mp hd with hd | hd
        · exact hrest d hd
        · rw [List.mem_singleton.mp hd]
          exact digitChar_digit (by omega)

theorem decimal_mem (n : Nat) : decimal n ∈ integer_literal_pattern.language := by
  rw [integer_literal_pattern, Regex.language, Language.mem_add]
  by_cases hn : n = 0
  · left
    rw [hn, decimal, if_pos (by decide), ← Regex.accepts_iff]
    decide
  · obtain ⟨c, rest, hdecimal, hc, hrest⟩ := decimal_cons n hn
    right
    rw [hdecimal, Regex.cons_mem_seq_cls, Regex.mem_star_cls]
    exact ⟨hc, hrest⟩

theorem identifier_iff (lexeme : Text) :
    lexeme ∈ identifier_pattern.language ↔ IsName lexeme := by
  cases lexeme with
  | nil =>
      rw [← Regex.accepts_iff]
      simp only [IsName, iff_false]
      decide
  | cons c rest =>
      rw [identifier_pattern, Regex.cons_mem_seq_cls, Regex.mem_star_cls]
      exact Iff.rfl

/-- The characters of names, numbers and words of a table. -/
def word_char (c : Char) : Bool := letter c || digit c || c = '_'

def marks : List Char := ['*', '(', ')', ';', ',']

def IsMark (lexeme : Text) : Prop := ∃ m ∈ marks, lexeme = [m]

def IsWord (lexeme : Text) : Prop := lexeme ≠ [] ∧ ∀ c ∈ lexeme, word_char c = true

theorem isWord_of_isName {lexeme : Text} (h : IsName lexeme) : IsWord lexeme := by
  cases lexeme with
  | nil => exact h.elim
  | cons c rest =>
      obtain ⟨hc, hrest⟩ := h
      refine ⟨List.cons_ne_nil c rest, fun d hd => ?_⟩
      rcases List.mem_cons.mp hd with rfl | hd
      · rw [Bool.or_eq_true] at hc
        rcases hc with hc | hc
        · simp [word_char, hc]
        · simp only [word_char, hc, Bool.or_true]
      · simp [word_char, hrest d hd]

theorem digits_of_integer {lexeme : Text} (h : lexeme ∈ integer_literal_pattern.language) :
    lexeme ≠ [] ∧ ∀ c ∈ lexeme, digit c = true := by
  rw [integer_literal_pattern, Regex.language, Language.mem_add] at h
  rcases h with h | h
  · -- the digit 0 alone
    obtain ⟨c, hc, rfl⟩ := h
    rw [decide_eq_true_eq] at hc
    subst hc
    exact ⟨List.cons_ne_nil _ _, by decide⟩
  · cases lexeme with
    | nil => exact absurd h (by rw [← Regex.accepts_iff]; decide)
    | cons c rest =>
        rw [Regex.cons_mem_seq_cls, Regex.mem_star_cls] at h
        obtain ⟨hc, hrest⟩ := h
        refine ⟨List.cons_ne_nil c rest, fun d hd => ?_⟩
        rcases List.mem_cons.mp hd with rfl | hd
        · simp only [digit, Bool.and_eq_true, decide_eq_true_eq] at hc ⊢
          exact ⟨Char.le_trans (by decide) hc.1, hc.2⟩
        · exact hrest d hd

theorem table_words : ∀ entry ∈ keywords.entries ++ types.entries,
    entry.1 ≠ [] ∧ ∀ c ∈ entry.1, word_char c = true := by
  decide

theorem table_marks : ∀ entry ∈ operators.entries ++ punctuations.entries,
    (∃ m ∈ marks, entry.1 = [m]) ∨ entry = (['\''], TOKEN_PUNC_QUOTE) := by
  decide

theorem marks_plain : ∀ m ∈ marks, word_char m = false ∧ m ≠ '\'' := by
  decide

/-- **What a lexeme looks like**: a mark, a word, the bare quote or a text in quotes. -/
theorem lexeme_shape {lexeme : Text} {type : TokenType} (h : lexicon.lexeme lexeme type) :
    IsMark lexeme ∨ IsWord lexeme ∨ lexeme = ['\''] ∨
      lexeme ∈ varchar_literal_pattern.language := by
  obtain ⟨c, hc, hclass⟩ := FirstOf.exists_mem h
  simp only [token_classes, List.mem_cons, List.not_mem_nil, or_false] at hc
  rcases hc with rfl | rfl | rfl | rfl | rfl | rfl | rfl
  · exact .inr (.inl (table_words _ (List.mem_append_left _ hclass)))
  · exact .inr (.inl (table_words _ (List.mem_append_right _ hclass)))
  · rcases table_marks _ (List.mem_append_left _ hclass) with h | h
    · exact .inl h
    · exact .inr (.inr (.inl (congrArg Prod.fst h)))
  · rcases table_marks _ (List.mem_append_right _ hclass) with h | h
    · exact .inl h
    · exact .inr (.inr (.inl (congrArg Prod.fst h)))
  · exact .inr (.inl (isWord_of_isName ((identifier_iff lexeme).mp hclass.1)))
  · exact .inr (.inr (.inr hclass.1))
  · obtain ⟨hne, hdigits⟩ := digits_of_integer hclass.1
    exact .inr (.inl ⟨hne, fun c hc => by simp [word_char, hdigits c hc]⟩)

/-- The words of all tables. -/
def table_entries : List (Text × TokenType) :=
  keywords.entries ++ (types.entries ++ (operators.entries ++ punctuations.entries))

/-- A word of no table is classed by the patterns. -/
theorem lexeme_of_patterns {lexeme : Text} {type : TokenType}
    (hno : ∀ entry ∈ table_entries, entry.1 ≠ lexeme)
    (h : FirstOf [Matching identifier_pattern TOKEN_IDENTIFIER,
      Matching varchar_literal_pattern TOKEN_VARCHAR_LITERAL,
      Matching integer_literal_pattern TOKEN_INT_LITERAL] lexeme type) :
    lexicon.lexeme lexeme type := by
  have hlisted : ∀ table : LexemeTable, (∀ entry ∈ table.entries, entry ∈ table_entries) →
      ∀ type', ¬ Listed table lexeme type' :=
    fun table htable type' hmem => hno _ (htable _ hmem) rfl
  refine .inr ⟨hlisted keywords ?_, .inr ⟨hlisted types ?_, .inr ⟨hlisted operators ?_,
    .inr ⟨hlisted punctuations ?_, h⟩⟩⟩⟩
  all_goals
    intro entry hentry
    simp only [table_entries, List.mem_append, hentry, true_or, or_true]

theorem isName_head {c : Char} {rest : Text} (h : IsName (c :: rest)) :
    c ≠ '\'' ∧ digit c = false := by
  have hc := h.1
  constructor
  · rintro rfl
    exact absurd hc (by decide)
  · cases hdigit : digit c with
    | false => rfl
    | true =>
        -- a digit is neither a letter nor the underscore
        simp only [digit, letter, Bool.and_eq_true, Bool.or_eq_true, decide_eq_true_eq,
          Char.le_def] at hdigit hc
        rcases hc with (hc | hc) | rfl
        · exact absurd (UInt32.le_trans hc.1 hdigit.2) (by decide)
        · exact absurd (UInt32.le_trans hc.1 hdigit.2) (by decide)
        · exact absurd hdigit.2 (by decide)

/-- The words and marks that are no keywords and no type names are no names. -/
theorem identifier_lexeme {lexeme : Text} (hname : IsName lexeme) (hkeyword : ¬ keywords.Has lexeme)
    (htype : ¬ types.Has lexeme) : lexicon.lexeme lexeme TOKEN_IDENTIFIER := by
  refine lexeme_of_patterns (fun entry hentry heq => ?_)
    (.inl ⟨(identifier_iff lexeme).mpr hname, rfl⟩)
  have hother : ∀ entry ∈ operators.entries ++ punctuations.entries,
      ∃ c ∈ entry.1, word_char c = false := by decide
  rw [table_entries, List.mem_append, List.mem_append] at hentry
  rcases hentry with hentry | hentry | hentry
  · exact hkeyword (List.mem_map.mpr ⟨entry, hentry, heq⟩)
  · exact htype (List.mem_map.mpr ⟨entry, hentry, heq⟩)
  · obtain ⟨c, hc, hno⟩ := hother entry hentry
    rw [heq] at hc
    rw [(isWord_of_isName hname).2 c hc] at hno
    cases hno

/-- No entry of a table starts with a quote and goes on. -/
theorem varchar_lexeme (content : Text) :
    lexicon.lexeme (quote content) TOKEN_VARCHAR_LITERAL := by
  have hshort : ∀ entry ∈ table_entries,
      entry.1.head? = some '\'' → entry.1.length < 2 := by decide
  refine lexeme_of_patterns (fun entry hentry heq => ?_) (.inr ⟨?_, .inl ⟨?_, rfl⟩⟩)
  · have hlt := hshort entry hentry (by rw [heq]; rfl)
    rw [heq, quote, List.length_cons, List.length_append, List.length_singleton] at hlt
    omega
  · intro type' h
    exact (isName_head ((identifier_iff _).mp h.1)).1 rfl
  · exact (mem_varchar_literal _).mpr ⟨_, rfl, escape_mem content⟩

/-- Every entry of a table has a character that is no digit. -/
theorem int_lexeme (n : Nat) : lexicon.lexeme (decimal n) TOKEN_INT_LITERAL := by
  obtain ⟨hne, hdigits⟩ := digits_of_integer (decimal_mem n)
  obtain ⟨c, rest, hdecimal⟩ := List.exists_cons_of_ne_nil hne
  have hc : digit c = true := hdigits c (by rw [hdecimal]; exact List.mem_cons_self)
  have hother : ∀ entry ∈ table_entries, ∃ c ∈ entry.1, digit c = false := by decide
  refine lexeme_of_patterns (fun entry hentry heq => ?_)
    (.inr ⟨?_, .inr ⟨?_, .inl ⟨decimal_mem n, rfl⟩⟩⟩)
  · obtain ⟨d, hd, hno⟩ := hother entry hentry
    rw [hdigits d (heq ▸ hd)] at hno
    cases hno
  · intro type' h
    rw [hdecimal, Matching, identifier_iff] at h
    rw [(isName_head h.1).2] at hc
    cases hc
  · intro type' h
    rw [hdecimal, Matching, mem_varchar_literal] at h
    obtain ⟨⟨rest', hquote, -⟩, -⟩ := h
    rw [(List.cons_eq_cons.mp hquote).1] at hc
    exact absurd hc (by decide)

/-- A lexeme of a class has that type in the lexicon. -/
theorem LexemeOf.mem_lexicon {type : TokenType} {lexeme : Text} (h : LexemeOf type lexeme) :
    lexicon.lexeme lexeme type := by
  -- checked for every word of a table
  have htables : ∀ entry ∈ table_entries,
      candidate_type entry.1 = entry.2 ∧ entry.2 ≠ TOKEN_UNKNOWN := by decide
  have hlisted : (lexeme, type) ∈ table_entries → lexicon.lexeme lexeme type :=
    fun hmem => (candidate_type_decides lexeme type).mp (htables _ hmem)
  cases h with
  | keyword hmem => exact hlisted (by simp only [table_entries, List.mem_append, hmem, true_or])
  | type_name hmem =>
      exact hlisted (by simp only [table_entries, List.mem_append, hmem, true_or, or_true])
  | operator hmem =>
      exact hlisted (by simp only [table_entries, List.mem_append, hmem, true_or, or_true])
  | punctuation hmem _ =>
      exact hlisted (by simp only [table_entries, List.mem_append, hmem, or_true])
  | identifier hname hkeyword htype => exact identifier_lexeme hname hkeyword htype
  | varchar_literal content => exact varchar_lexeme content
  | int_literal n => exact int_lexeme n

/-! ## §4. Nothing goes on past a lexeme that is laid out. -/

/-- A lexeme of a class is a mark, a word or a text in quotes. -/
theorem LexemeOf.shape {type : TokenType} {lexeme : Text} (h : LexemeOf type lexeme) :
    IsMark lexeme ∨ IsWord lexeme ∨ ∃ content, lexeme = quote content := by
  cases h with
  | keyword hmem => exact .inr (.inl (table_words _ (List.mem_append_left _ hmem)))
  | type_name hmem => exact .inr (.inl (table_words _ (List.mem_append_right _ hmem)))
  | operator hmem =>
      rcases table_marks _ (List.mem_append_left _ hmem) with h | h
      · exact .inl h
      · -- the quote is no operator
        exact absurd (h ▸ hmem) (by decide)
  | punctuation hmem hquote =>
      rcases table_marks _ (List.mem_append_right _ hmem) with h | h
      · exact .inl h
      · exact absurd (congrArg Prod.snd h) hquote
  | identifier hname _ _ => exact .inr (.inl (isWord_of_isName hname))
  | varchar_literal content => exact .inr (.inr ⟨content, rfl⟩)
  | int_literal n =>
      obtain ⟨hne, hdigits⟩ := digits_of_integer (decimal_mem n)
      exact .inr (.inl ⟨hne, fun c hc => by simp [word_char, hdigits c hc]⟩)

theorem LexemeOf.ne_nil {type : TokenType} {lexeme : Text} (h : LexemeOf type lexeme) :
    lexeme ≠ [] := by
  rintro rfl
  exact lexicon.not_lexeme_nil type h.mem_lexicon

/-- No lexeme is a longer word that starts with a mark. -/
theorem IsMark.stops {lexeme : Text} (h : IsMark lexeme) (c : Char) :
    lexicon.Stops lexeme c := by
  obtain ⟨m, hm, rfl⟩ := h
  obtain ⟨hword, hquote⟩ := marks_plain m hm
  intro rest type hlexeme
  rcases lexeme_shape hlexeme with ⟨m', -, h⟩ | h | h | h
  · cases h
  · rw [h.2 m List.mem_cons_self] at hword
    cases hword
  · cases h
  · obtain ⟨_, h, -⟩ := (mem_varchar_literal _).mp h
    exact hquote (List.cons_eq_cons.mp h).1

/-- Marks and whitespace end every lexeme of a class. -/
theorem LexemeOf.stops {type : TokenType} {lexeme : Text} (h : LexemeOf type lexeme) {c : Char}
    (hword : word_char c = false) (hquote : c ≠ '\'') : lexicon.Stops lexeme c := by
  rcases h.shape with hmark | ⟨hne, hall⟩ | ⟨content, rfl⟩
  · exact hmark.stops c
  · -- a word: no lexeme has a word character in front and `c` in it
    obtain ⟨a, w, rfl⟩ := List.exists_cons_of_ne_nil hne
    have ha : word_char a = true := hall a List.mem_cons_self
    intro rest type' hlexeme
    rcases lexeme_shape hlexeme with ⟨m, -, h⟩ | h | h | h
    · simp at h
    · rw [h.2 c (by simp)] at hword
      cases hword
    · simp at h
    · obtain ⟨_, h, -⟩ := (mem_varchar_literal _).mp h
      rw [(List.cons_eq_cons.mp h).1] at ha
      exact absurd ha (by decide)
  · -- a text in quotes: its last quote closes it
    intro rest type' hlexeme
    rcases lexeme_shape hlexeme with ⟨m, -, h⟩ | h | h | h
    · simp [quote] at h
    · exact absurd (h.2 '\'' (by simp [quote])) (by decide)
    · simp [quote] at h
    · obtain ⟨rest', h, hrest⟩ := (mem_varchar_literal _).mp h
      rw [quote, List.cons_append, List.append_assoc] at h
      obtain ⟨-, rfl⟩ := List.cons_eq_cons.mp h
      exact escape_notMem content hquote rest hrest

/-! ## §5. Layouts. -/

/-- The first piece, if it is a token, stands apart from one in front of it. -/
def Apart (lexeme : Text) : List (Piece Char TokenType) → Prop
  | .token _ next :: _ => IsMark lexeme ∨ IsMark next
  | _ => True

/-- Tokens with whitespace between them; it may be left out beside a mark. -/
inductive Layout : List (Piece Char TokenType) → Prop
  | nil : Layout []
  | space {c : Char} {pieces : List (Piece Char TokenType)} :
      c ∈ whitespace → Layout pieces → Layout (.skip c :: pieces)
  | token {type : TokenType} {lexeme : Text} {pieces : List (Piece Char TokenType)} :
      LexemeOf type lexeme → Apart lexeme pieces → Layout pieces →
        Layout (.token type lexeme :: pieces)

theorem whitespace_plain : ∀ c ∈ whitespace, word_char c = false ∧ c ≠ '\'' := by
  decide

/-- Nothing behind a token of a layout lets it go on. -/
theorem Layout.stops {type : TokenType} {lexeme : Text} {pieces : List (Piece Char TokenType)}
    (hlexeme : LexemeOf type lexeme) (hapart : Apart lexeme pieces) (h : Layout pieces) :
    ∀ c ∈ (pieces.flatMap Piece.chars).head?, lexicon.Stops lexeme c := by
  intro c hc
  cases h with
  | nil => cases hc
  | @space d _ hspace _ =>
      -- the character is the whitespace
      obtain rfl : d = c := Option.some.inj hc
      obtain ⟨hword, hquote⟩ := whitespace_plain d hspace
      exact hlexeme.stops hword hquote
  | @token _ next _ hnext _ _ =>
      rcases hapart with hmark | ⟨m, hm, rfl⟩
      · exact hmark.stops c
      · -- the character is the mark that follows
        obtain rfl : m = c := Option.some.inj hc
        obtain ⟨hword, hquote⟩ := marks_plain m hm
        exact hlexeme.stops hword hquote

theorem Layout.laidOut {pieces : List (Piece Char TokenType)} (h : Layout pieces) :
    lexicon.LaidOut pieces := by
  induction h with
  | nil => exact .nil
  | space hc _ ih => exact .skip hc ih
  | token hlexeme hapart hpieces ih =>
      exact .token hlexeme.mem_lexicon (Layout.stops hlexeme hapart hpieces) ih

/-- **The tokenizer gives back the tokens of a layout.** -/
theorem tokenize_layout {pieces : List (Piece Char TokenType)} (h : Layout pieces)
    (hlength : (pieces.flatMap Piece.chars).length ≤ 1023) (token_stream : List Token) :
    ∃ tokens, tokenize (pieces.flatMap Piece.chars) token_stream =
        some (0, token_stream ++ tokens) ∧
      tokens.map Token.form = pieces.filterMap Piece.token? := by
  obtain ⟨code, tokens, hresult, hcode, htokens⟩ :=
    tokenize_loop_munch _ _ 1 token_stream (Nat.le_refl _) (Nat.lt_succ_of_le hlength)
  have hmunch := h.laidOut.munch
  -- the text has a segmentation, so the code is 0
  obtain rfl : code = 0 := hcode.mpr ⟨pieces, hmunch⟩
  exact ⟨tokens, hresult, htokens pieces hmunch⟩

/-! ## §6. One space between neighbours. -/

/-- A type other than the bare quote's with a lexeme of its class. -/
abbrev PrintedToken := { form : TokenForm // LexemeOf form.1 form.2 }

/-- The lexemes with one space between neighbours. -/
def print_text (tokens : List PrintedToken) : Text :=
  [' '].intercalate (tokens.map fun token => token.1.2)

def spaced_pieces : List PrintedToken → List (Piece Char TokenType)
  | [] => []
  | [token] => [.token token.1.1 token.1.2]
  | token :: next :: tokens =>
      .token token.1.1 token.1.2 :: .skip ' ' :: spaced_pieces (next :: tokens)

theorem spaced_pieces_layout (tokens : List PrintedToken) : Layout (spaced_pieces tokens) := by
  induction tokens with
  | nil => exact .nil
  | cons token tokens ih =>
      cases tokens with
      | nil => exact .token token.2 trivial .nil
      | cons next tokens => exact .token token.2 trivial (.space (by decide) ih)

theorem spaced_pieces_chars (tokens : List PrintedToken) :
    (spaced_pieces tokens).flatMap Piece.chars = print_text tokens := by
  induction tokens with
  | nil => rfl
  | cons token tokens ih =>
      cases tokens with
      | nil => simp [spaced_pieces, print_text, Piece.chars]
      | cons next tokens =>
          rw [spaced_pieces, List.flatMap_cons, List.flatMap_cons, ih]
          simp [print_text, Piece.chars, List.intercalate]

theorem spaced_pieces_tokens (tokens : List PrintedToken) :
    (spaced_pieces tokens).filterMap Piece.token? = tokens.map Subtype.val := by
  induction tokens with
  | nil => rfl
  | cons token tokens ih =>
      cases tokens with
      | nil => rfl
      | cons next tokens =>
          show token.1 :: (spaced_pieces (next :: tokens)).filterMap Piece.token? = _
          rw [ih]
          rfl

/-- **Tokenizing undoes printing.** -/
theorem tokenize_print (tokens : List PrintedToken) (hlength : (print_text tokens).length ≤ 1023)
    (token_stream : List Token) :
    ∃ token_list, tokenize (print_text tokens) token_stream =
        some (0, token_stream ++ token_list) ∧
      token_list.map Token.form = tokens.map Subtype.val := by
  have hchars := spaced_pieces_chars tokens
  obtain ⟨token_list, hresult, hforms⟩ :=
    tokenize_layout (spaced_pieces_layout tokens) (by rw [hchars]; exact hlength) token_stream
  rw [hchars] at hresult
  rw [spaced_pieces_tokens] at hforms
  exact ⟨token_list, hresult, hforms⟩

/-- A literal with a quote in it and two numbers. -/
theorem tokenize_print_literals :
    ∃ token_list, tokenize "VALUES 'it''s' 0 7 x".toList [] = some (0, token_list) ∧
      token_list.map Token.form =
        [(TOKEN_KEYWORD_VALUES, "VALUES".toList), (TOKEN_VARCHAR_LITERAL, "'it''s'".toList),
         (TOKEN_INT_LITERAL, ['0']), (TOKEN_INT_LITERAL, ['7']), (TOKEN_IDENTIFIER, ['x'])] :=
  tokenize_print
    [⟨(TOKEN_KEYWORD_VALUES, "VALUES".toList), .keyword (by decide)⟩,
     ⟨(TOKEN_VARCHAR_LITERAL, "'it''s'".toList), .varchar_literal "it's".toList⟩,
     ⟨(TOKEN_INT_LITERAL, ['0']), decimal_digit 0 ▸ LexemeOf.int_literal 0⟩,
     ⟨(TOKEN_INT_LITERAL, ['7']), decimal_digit 7 ▸ LexemeOf.int_literal 7⟩,
     ⟨(TOKEN_IDENTIFIER, ['x']), .identifier (by decide) (by decide) (by decide)⟩]
    (by decide) []

end PreSeQL.Compiler
