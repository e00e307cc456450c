/-
  PreSeQL.Compiler.Lexing — the tokenizer is a maximal-munch lexer.

  `token_classes` lists what a lexeme can be, in the order that settles its type, and
  `lexicon` is the lexicon they make with the whitespace.  The scan over all prefixes
  ends on the longest lexeme (`scan_token`, `scan_unknown`), so every round of the main
  loop cuts the first piece of the text's segmentation off:

    • `tokenize_loop_munch` — the run lemma, by induction on the rounds left,
    • `tokenize_munch` — the tokenizer accepts exactly the texts that have a
      segmentation, and returns its tokens.
-/
import PreSeQL.Compiler.Tokenizer
import PreSeQL.Lib.MaximalMunch

namespace PreSeQL.Compiler

open TokenType
open PreSeQL.Lib (Regex FirstOf Lexicon lastMatch)
open PreSeQL.Lib.Lexicon (Piece)

/-! ## §1. The lexicon. -/

/-- A class given by a table. -/
def Listed (table : LexemeTable) (lexeme : Text) (type : TokenType) : Prop :=
  (lexeme, type) ∈ table.entries

/-- A class given by a pattern; its lexemes have one type. -/
def Matching (pattern : Regex Char) (token_type : TokenType) (lexeme : Text)
    (type : TokenType) : Prop :=
  lexeme ∈ pattern.language ∧ type = token_type

def token_classes : List (Text → TokenType → Prop) :=
  [Listed keywords, Listed types, Listed operators, Listed punctuations,
   Matching identifier_pattern TOKEN_IDENTIFIER,
   Matching varchar_literal_pattern TOKEN_VARCHAR_LITERAL,
   Matching integer_literal_pattern TOKEN_INT_LITERAL]

def whitespace : List Char := [' ', '\n', '\t', '\r']

theorem LexemeTable.listed_unique (table : LexemeTable) {lexeme : Text} {type type' : TokenType}
    (h : Listed table lexeme type) (h' : Listed table lexeme type') : type = type' :=
  congrArg Prod.snd (List.inj_on_of_nodup_map table.nodup h h' rfl)

theorem token_classes_unique : ∀ c ∈ token_classes, ∀ lexeme type type',
    c lexeme type → c lexeme type' → type = type' := by
  -- one entry of a table per word, one type per pattern
  have hlisted : ∀ table : LexemeTable, ∀ lexeme type type',
      Listed table lexeme type → Listed table lexeme type' → type = type' :=
    fun table _ _ _ => table.listed_unique
  have hmatching : ∀ pattern token_type, ∀ lexeme type type',
      Matching pattern token_type lexeme type → Matching pattern token_type lexeme type' →
        type = type' :=
    fun _ _ _ _ _ h h' => h.2.trans h'.2.symm
  intro c hc
  simp only [token_classes, List.mem_cons, List.not_mem_nil, or_false] at hc
  rcases hc with rfl | rfl | rfl | rfl | rfl | rfl | rfl
  all_goals first | exact hlisted _ | exact hmatching _ _

/-- No class has a word that is empty or starts with whitespace. -/
theorem token_classes_start : ∀ c ∈ token_classes, ∀ lexeme type,
    c lexeme type → ∃ a rest, lexeme = a :: rest ∧ a ∉ whitespace := by
  -- checked entry by entry for a table, on the first characters of a pattern
  have hlisted : ∀ table : LexemeTable,
      (table.entries.all fun entry => entry.1.head?.any (· ∉ whitespace)) = true →
        ∀ lexeme type, Listed table lexeme type →
          ∃ a rest, lexeme = a :: rest ∧ a ∉ whitespace := by
    intro table htable lexeme type h
    have hhead := List.all_eq_true.mp htable _ h
    obtain ⟨a, ha, hspace⟩ := (Option.any_eq_true _ _).mp hhead
    exact ⟨a, lexeme.tail, List.eq_cons_of_mem_head? ha, of_decide_eq_true hspace⟩
  have hmatching : ∀ (pattern : Regex Char) (token_type : TokenType),
      pattern.nullable = false → (whitespace.all fun a => !pattern.starts a) = true →
        ∀ lexeme type, Matching pattern token_type lexeme type →
          ∃ a rest, lexeme = a :: rest ∧ a ∉ whitespace := by
    intro pattern token_type hnil hspace lexeme type h
    cases lexeme with
    | nil => exact absurd ((pattern.nullable_iff).mpr h.1) (by simp [hnil])
    | cons a rest =>
        refine ⟨a, rest, rfl, fun ha => ?_⟩
        have hstart := pattern.starts_of_cons_mem h.1
        have hno := List.all_eq_true.mp hspace a ha
        rw [hstart] at hno
        cases hno
  -- the seven classes in turn
  intro c hc
  simp only [token_classes, List.mem_cons, List.not_mem_nil, or_false] at hc
  rcases hc with rfl | rfl | rfl | rfl | rfl | rfl | rfl
  · exact hlisted keywords rfl
  · exact hlisted types rfl
  · exact hlisted operators rfl
  · exact hlisted punctuations rfl
  · exact hmatching _ _ rfl rfl
  · exact hmatching _ _ rfl rfl
  · exact hmatching _ _ rfl rfl

def lexicon : Lexicon Char TokenType where
  lexeme := FirstOf token_classes
  skip a := a ∈ whitespace
  unique _ _ _ := FirstOf.unique token_classes_unique
  not_lexeme_nil t h := by
    obtain ⟨c, hc, hct⟩ := h.exists_mem
    obtain ⟨a, rest, heq, -⟩ := token_classes_start c hc _ _ hct
    cases heq
  not_lexeme_skip a w t ha h := by
    obtain ⟨c, hc, hct⟩ := h.exists_mem
    obtain ⟨b, rest, heq, hb⟩ := token_classes_start c hc _ _ hct
    obtain ⟨rfl, -⟩ := List.cons_eq_cons.mp heq
    exact hb ha

theorem is_space_iff (c : Char) : is_space c = true ↔ c ∈ whitespace := by
  simp [is_space, whitespace, or_assoc]

/-! ## §2. The condition of the scan. -/

/-- The test gives the words of the class their type, and no other word one. -/
def Decides (test : Text → TokenType) (c : Text → TokenType → Prop) : Prop :=
  ∀ lexeme type, (test lexeme = type ∧ type ≠ TOKEN_UNKNOWN) ↔ c lexeme type

theorem lookup_strcmp_iff (lexeme : Text) (type : TokenType) :
    ∀ entries : List (Text × TokenType), (entries.map Prod.fst).Nodup →
      (∀ entry ∈ entries, entry.2 ≠ TOKEN_UNKNOWN) →
      ((lookup_strcmp lexeme entries = type ∧ type ≠ TOKEN_UNKNOWN) ↔
        (lexeme, type) ∈ entries) := by
  intro entries
  induction entries with
  | nil =>
      intro _ _
      simp only [lookup_strcmp, List.not_mem_nil, iff_false, not_and, not_not]
      exact fun h => h.symm
  | cons entry entries ih =>
      intro hnodup hknown
      obtain ⟨word, token_type⟩ := entry
      obtain ⟨hnot, hnodup⟩ := List.nodup_cons.mp hnodup
      have hrest := ih hnodup fun entry hentry => hknown entry (by simp [hentry])
      have htype : token_type ≠ TOKEN_UNKNOWN := hknown (word, token_type) (by simp)
      by_cases heq : lexeme = word
      · subst heq
        -- the word has this entry only, the table having no two of one word
        have hno : (lexeme, type) ∉ entries := fun h => hnot (List.mem_map.mpr ⟨_, h, rfl⟩)
        simp only [lookup_strcmp, if_true, List.mem_cons, Prod.mk.injEq, true_and, hno, or_false]
        constructor
        · rintro ⟨rfl, -⟩; rfl
        · rintro rfl; exact ⟨rfl, htype⟩
      · simp only [lookup_strcmp, heq, if_false, hrest, List.mem_cons, Prod.mk.injEq, false_and,
          false_or]

theorem LexemeTable.decides (table : LexemeTable) :
    Decides (fun lexeme => lookup_strcmp lexeme table.entries) (Listed table) :=
  fun lexeme type => lookup_strcmp_iff lexeme type table.entries table.nodup table.known

theorem decides_pattern (pattern : Regex Char) {token_type : TokenType}
    (hknown : token_type ≠ TOKEN_UNKNOWN) :
    Decides (fun lexeme => if pattern.accepts lexeme then token_type else TOKEN_UNKNOWN)
      (Matching pattern token_type) := by
  intro lexeme type
  simp only [Matching, ← pattern.accepts_iff lexeme]
  by_cases h : pattern.accepts lexeme = true
  · simp only [h, if_true, true_and]
    constructor
    · rintro ⟨rfl, -⟩; rfl
    · rintro rfl; exact ⟨rfl, hknown⟩
  · simp only [h, if_false, false_and, iff_false, not_and, not_not, Bool.false_eq_true]
    exact fun h => h.symm

theorem decides_nil : Decides (fun _ => TOKEN_UNKNOWN) (FirstOf []) := by
  intro lexeme type
  simp only [FirstOf, iff_false, not_and, not_not]
  exact fun h => h.symm

/-- A chain of tests gives the type of the first class. -/
theorem Decides.or_else {test next : Text → TokenType} {c : Text → TokenType → Prop}
    {cs : List (Text → TokenType → Prop)} (htest : Decides test c)
    (hnext : Decides next (FirstOf cs)) :
    Decides (fun lexeme => or_else (test lexeme) (next lexeme)) (FirstOf (c :: cs)) := by
  intro lexeme type
  simp only [Compiler.or_else, FirstOf, ← hnext lexeme type, ← htest lexeme]
  by_cases h : test lexeme = TOKEN_UNKNOWN
  · -- no type here: the chain goes on
    have hnone : ∀ t', ¬ (test lexeme = t' ∧ t' ≠ TOKEN_UNKNOWN) := by
      rintro t' ⟨rfl, hne⟩
      exact hne h
    rw [if_neg (not_not.mpr h)]
    constructor
    · exact fun hn => .inr ⟨hnone, hn⟩
    · rintro (ht | ⟨-, hn⟩)
      · exact absurd ht (hnone type)
      · exact hn
  · -- a type here ends the chain, and the class is the first one
    have hsome : ¬ ∀ t', ¬ (test lexeme = t' ∧ t' ≠ TOKEN_UNKNOWN) := fun hno => hno _ ⟨rfl, h⟩
    simp only [ne_eq, h, not_false_eq_true, if_true, hsome, false_and, or_false]

theorem or_else_unknown (type : TokenType) : or_else type TOKEN_UNKNOWN = type := by
  by_cases h : type = TOKEN_UNKNOWN
  · rw [or_else, if_neg (not_not.mpr h), h]
  · rw [or_else, if_pos h]

theorem candidate_type_decides : Decides candidate_type lexicon.lexeme := by
  have h := keywords.decides.or_else <| types.decides.or_else <| operators.decides.or_else <|
    punctuations.decides.or_else <|
    (decides_pattern identifier_pattern (by decide : TOKEN_IDENTIFIER ≠ _)).or_else <|
    (decides_pattern varchar_literal_pattern (by decide : TOKEN_VARCHAR_LITERAL ≠ _)).or_else <|
    (decides_pattern integer_literal_pattern (by decide : TOKEN_INT_LITERAL ≠ _)).or_else
      decides_nil
  simp only [or_else_unknown] at h
  exact h

/-- The type of a candidate, when it has one. -/
def candidate_type? (lexeme : Text) : Option TokenType :=
  if candidate_type lexeme ≠ TOKEN_UNKNOWN then some (candidate_type lexeme) else none

theorem candidate_type?_eq_some (lexeme : Text) (type : TokenType) :
    candidate_type? lexeme = some type ↔ lexicon.lexeme lexeme type := by
  rw [← candidate_type_decides lexeme type, candidate_type?]
  by_cases h : candidate_type lexeme = TOKEN_UNKNOWN
  · simp only [ne_eq, h, not_true_eq_false, if_false, reduceCtorEq, false_iff, not_and, not_not]
    exact fun h => h.symm
  · simp only [ne_eq, h, not_false_eq_true, if_true, Option.some.injEq]
    constructor
    · rintro rfl; exact ⟨rfl, h⟩
    · exact fun h => h.1

/-! ## §3. The scan ends on the longest lexeme. -/

theorem scan_eq_lastMatch (rest : Text) (n : Nat) :
    scan rest n =
      match lastMatch candidate_type? rest n with
      | some (type, k) => ⟨type, k, rest.take k⟩
      | none => {} := by
  induction n with
  | zero => rfl
  | succ n ih =>
      -- a candidate without a type leaves the variables as they are
      by_cases h : candidate_type (rest.take (n + 1)) = TOKEN_UNKNOWN
      · simp [scan, lastMatch, candidate_type?, h, ih]
      · simp [scan, lastMatch, candidate_type?, h]

/-- The scan finds a type: it found the longest lexeme. -/
theorem scan_token {rest : Text} (h : (scan rest rest.length).token_type ≠ TOKEN_UNKNOWN) :
    lexicon.Longest rest (scan rest rest.length).matched_lexeme
        (scan rest rest.length).token_type ∧
      rest = (scan rest rest.length).matched_lexeme ++
        rest.drop (scan rest rest.length).longest_match ∧
      0 < (scan rest rest.length).longest_match := by
  rw [scan_eq_lastMatch] at h ⊢
  cases hlast : lastMatch candidate_type? rest rest.length with
  -- the scan has no hit, so it leaves the type it started with
  | none => rw [hlast] at h; exact absurd rfl h
  | some found =>
      obtain ⟨type, k⟩ := found
      have hpos := (PreSeQL.Lib.lastMatch_eq_some hlast).1
      exact ⟨Lexicon.longest_of_lastMatch candidate_type?_eq_some hlast,
        (List.take_append_drop k rest).symm, hpos⟩

/-- The scan finds no type: no lexeme starts the text. -/
theorem scan_unknown {rest : Text} (h : (scan rest rest.length).token_type = TOKEN_UNKNOWN) :
    ∀ w t, w <+: rest → ¬ lexicon.lexeme w t := by
  rw [scan_eq_lastMatch] at h
  cases hlast : lastMatch candidate_type? rest rest.length with
  | none => exact Lexicon.not_lexeme_of_lastMatch candidate_type?_eq_some hlast
  | some found =>
      obtain ⟨type, k⟩ := found
      rw [hlast] at h
      obtain ⟨-, -, hk, -⟩ := PreSeQL.Lib.lastMatch_eq_some hlast
      -- a hit has a type, against the hypothesis
      have hlexeme := (candidate_type?_eq_some _ _).mp hk
      exact absurd h ((candidate_type_decides _ _).mpr hlexeme).2

/-! ## §4. The main loop. -/

/-- What a run over the text leaves: the tokens of its segmentation behind those that
were there, or the error code if it has none. -/
def Lexed (rest : Text) (token_stream : List Token) (result : Option (Nat × List Token)) : Prop :=
  ∃ code tokens, result = some (code, token_stream ++ tokens) ∧
    (code = 0 ↔ ∃ pieces, lexicon.Munch rest pieces) ∧
    ∀ pieces, lexicon.Munch rest pieces →
      tokens.map Token.form = pieces.filterMap Piece.token?

/-- A token in front of a lexed text. -/
theorem Lexed.token {rest rest' lexeme : Text} {type : TokenType} {line_number : Nat}
    {token_stream : List Token} {result : Option (Nat × List Token)}
    (hlongest : lexicon.Longest rest lexeme type) (hrest : rest = lexeme ++ rest')
    (h : Lexed rest' (token_stream ++ [create_token type lexeme line_number]) result) :
    Lexed rest token_stream result := by
  obtain ⟨code, tokens, hresult, hcode, htokens⟩ := h
  refine ⟨code, create_token type lexeme line_number :: tokens, ?_, ?_, ?_⟩
  · -- the tokens come behind those of the stream
    rw [hresult, List.append_assoc]
    rfl
  · -- the segmentations are those of the rest, behind this token
    rw [hcode]
    constructor
    · rintro ⟨pieces, h⟩
      exact ⟨_, .token hlongest hrest h⟩
    · rintro ⟨pieces, h⟩
      obtain ⟨pieces', -, h'⟩ := (Lexicon.munch_token_iff hlongest hrest).mp h
      exact ⟨pieces', h'⟩
  · intro pieces h
    obtain ⟨pieces', rfl, h'⟩ := (Lexicon.munch_token_iff hlongest hrest).mp h
    rw [List.map_cons, htokens pieces' h']
    rfl

/-- A whitespace character in front of a lexed text. -/
theorem Lexed.skip {c : Char} {rest : Text} {token_stream : List Token}
    {result : Option (Nat × List Token)} (hc : c ∈ whitespace)
    (hno : ∀ w t, w <+: c :: rest → ¬ lexicon.lexeme w t) (h : Lexed rest token_stream result) :
    Lexed (c :: rest) token_stream result := by
  obtain ⟨code, tokens, hresult, hcode, htokens⟩ := h
  refine ⟨code, tokens, hresult, ?_, ?_⟩
  · rw [hcode]
    constructor
    · rintro ⟨pieces, h⟩
      exact ⟨_, .skip hc h⟩
    · rintro ⟨pieces, h⟩
      obtain ⟨-, pieces', -, h'⟩ := (Lexicon.munch_skip_iff hno).mp h
      exact ⟨pieces', h'⟩
  · intro pieces h
    obtain ⟨-, pieces', rfl, h'⟩ := (Lexicon.munch_skip_iff hno).mp h
    exact htokens pieces' h'

/-- A character that is neither whitespace nor the start of a lexeme. -/
theorem lexed_error {c : Char} {rest : Text} {token_stream : List Token} (hc : c ∉ whitespace)
    (hno : ∀ w t, w <+: c :: rest → ¬ lexicon.lexeme w t) :
    Lexed (c :: rest) token_stream (some (1, token_stream)) := by
  have hnone : ∀ pieces, ¬ lexicon.Munch (c :: rest) pieces :=
    fun pieces h => hc ((Lexicon.munch_skip_iff hno).mp h).1
  refine ⟨1, [], by simp, ?_, fun pieces h => absurd h (hnone pieces)⟩
  constructor
  · intro h; cases h
  · rintro ⟨pieces, h⟩; exact absurd h (hnone pieces)

theorem lexed_nil (token_stream : List Token) : Lexed [] token_stream (some (0, token_stream)) := by
  refine ⟨0, [], by simp, ⟨fun _ => ⟨[], .nil⟩, fun _ => rfl⟩, ?_⟩
  intro pieces h
  rw [Lexicon.munch_nil_iff.mp h]
  rfl

section

variable {fuel line_number : Nat} {c : Char} {rest : Text} {token_stream : List Token}

/-- A text that does not fit the buffer has no result. -/
theorem tokenize_loop_long (h : ¬ (c :: rest).length < LEXEME_BUFFER) :
    tokenize_loop (fuel + 1) (c :: rest) line_number token_stream = none := by
  rw [tokenize_loop, longest_match, if_neg h]

/-- A round that finds a token. -/
theorem tokenize_loop_token (hlen : (c :: rest).length < LEXEME_BUFFER)
    (h : (scan (c :: rest) (c :: rest).length).token_type ≠ TOKEN_UNKNOWN) :
    tokenize_loop (fuel + 1) (c :: rest) line_number token_stream
      = let m := scan (c :: rest) (c :: rest).length
        tokenize_loop fuel ((c :: rest).drop m.longest_match) line_number
          (token_stream ++ [create_token m.token_type m.matched_lexeme line_number]) := by
  have hscan : longest_match (c :: rest) = some (scan (c :: rest) (c :: rest).length) := if_pos hlen
  simp only [tokenize_loop, hscan, if_pos h]

/-- A round that finds none: whitespace is passed over, anything else is an error. -/
theorem tokenize_loop_unknown (hlen : (c :: rest).length < LEXEME_BUFFER)
    (h : (scan (c :: rest) (c :: rest).length).token_type = TOKEN_UNKNOWN) :
    tokenize_loop (fuel + 1) (c :: rest) line_number token_stream
      = if is_space c = true then
          tokenize_loop fuel rest (if c = '\n' then line_number + 1 else line_number) token_stream
        else some (1, token_stream) := by
  have hscan : longest_match (c :: rest) = some (scan (c :: rest) (c :: rest).length) := if_pos hlen
  simp only [tokenize_loop, hscan, if_neg (not_not.mpr h)]
  by_cases hspace : is_space c = true
  · rw [if_neg (by simp [hspace]), if_pos hspace]
  · rw [if_pos (by simp [hspace]), if_neg hspace]

end

/-- Every round cuts a piece off, so a run lexes the text. -/
theorem tokenize_loop_munch (fuel : Nat) :
    ∀ rest line_number token_stream, rest.length ≤ fuel → rest.length < LEXEME_BUFFER →
      Lexed rest token_stream (tokenize_loop fuel rest line_number token_stream) := by
  induction fuel with
  | zero =>
      -- no fuel is left for a text that is empty
      intro rest line_number token_stream hfuel _
      obtain rfl := List.length_eq_zero_iff.mp (Nat.le_zero.mp hfuel)
      exact lexed_nil token_stream
  | succ fuel ih =>
      intro rest line_number token_stream hfuel hbuffer
      cases rest with
      | nil => exact lexed_nil token_stream
      | cons c rest =>
          -- the whole rest fits the buffer, so the scan is defined
          by_cases htoken : (scan (c :: rest) (c :: rest).length).token_type = TOKEN_UNKNOWN
          · -- no lexeme starts here
            have hno := scan_unknown htoken
            rw [tokenize_loop_unknown hbuffer htoken]
            simp only [List.length_cons] at hfuel hbuffer
            by_cases hspace : is_space c = true
            · rw [if_pos hspace]
              exact .skip ((is_space_iff c).mp hspace) hno
                (ih rest _ token_stream (by omega) (by omega))
            · rw [if_neg hspace]
              exact lexed_error (fun h => hspace ((is_space_iff c).mpr h)) hno
          · -- the longest lexeme is not empty, so the rest is shorter
            obtain ⟨hlongest, hrest, hpos⟩ := scan_token htoken
            rw [tokenize_loop_token hbuffer htoken]
            refine .token hlongest hrest (ih _ _ _ ?_ ?_)
            · rw [List.length_drop]; omega
            · rw [List.length_drop]; omega

/-- The tokens returned with 0 are those of the segmentation. -/
theorem tokenize_forms_iff {text : Text} {forms : List TokenForm} (h : text.length ≤ 1023) :
    (∃ tokens, tokenize text [] = some (0, tokens) ∧ tokens.map Token.form = forms)
      ↔ lexicon.Tokens text forms := by
  obtain ⟨code, tokens, hresult, hcode, htokens⟩ :=
    tokenize_loop_munch text.length text 1 [] (Nat.le_refl _) (Nat.lt_succ_of_le h)
  rw [List.nil_append] at hresult
  constructor
  · rintro ⟨tokens', hresult', rfl⟩
    obtain ⟨rfl, rfl⟩ := Prod.mk.inj (Option.some.inj (hresult.symm.trans hresult'))
    obtain ⟨pieces, hpieces⟩ := hcode.mp rfl
    exact ⟨pieces, hpieces, (htokens pieces hpieces).symm⟩
  · rintro ⟨pieces, hpieces, rfl⟩
    obtain rfl := hcode.mpr ⟨pieces, hpieces⟩
    exact ⟨tokens, hresult, htokens pieces hpieces⟩

/-- **The tokenizer is a lossless maximal-munch lexer.**  On a text that fits the buffer
it returns 0 exactly when the text falls into whitespace and longest lexemes, then with
the types and lexemes of that segmentation in order; the pieces spell the text. -/
theorem tokenize_munch (sql_commands : Text) (token_stream : List Token)
    (h : sql_commands.length ≤ 1023) :
    ∃ code tokens,
      tokenize sql_commands token_stream = some (code, token_stream ++ tokens) ∧
      (code = 0 ↔ ∃ pieces, lexicon.Munch sql_commands pieces) ∧
      ∀ pieces, lexicon.Munch sql_commands pieces →
        tokens.map Token.form = pieces.filterMap Piece.token? ∧
        pieces.flatMap Piece.chars = sql_commands ∧
        ∀ c, Piece.skip c ∈ pieces → c ∈ whitespace := by
  obtain ⟨code, tokens, hresult, hcode, htokens⟩ :=
    tokenize_loop_munch sql_commands.length sql_commands 1 token_stream (Nat.le_refl _)
      (Nat.lt_succ_of_le h)
  exact ⟨code, tokens, hresult, hcode,
    fun pieces hpieces => ⟨htokens pieces hpieces, hpieces.spells, hpieces.skips⟩⟩

/-- A doubled quote stays in its literal; a leading zero is a literal of its own. -/
theorem tokenize_munch_literals :
    ∃ pieces, lexicon.Munch "'a''b'\n01".toList pieces ∧
      pieces.filterMap Piece.token? =
        [(TOKEN_VARCHAR_LITERAL, "'a''b'".toList), (TOKEN_INT_LITERAL, "0".toList),
         (TOKEN_INT_LITERAL, "1".toList)] := by
  obtain ⟨code, tokens, hresult, hcode, htokens⟩ :=
    tokenize_munch "'a''b'\n01".toList [] (by decide)
  have hrun : tokenize "'a''b'\n01".toList [] =
      some (0, [⟨TOKEN_VARCHAR_LITERAL, "'a''b'".toList, 1⟩, ⟨TOKEN_INT_LITERAL, "0".toList, 2⟩,
        ⟨TOKEN_INT_LITERAL, "1".toList, 2⟩]) := by
    decide +kernel
  rw [hrun, List.nil_append, Option.some.injEq, Prod.mk.injEq] at hresult
  obtain ⟨rfl, rfl⟩ := hresult
  obtain ⟨pieces, hpieces⟩ := hcode.mp rfl
  exact ⟨pieces, hpieces, (htokens pieces hpieces).1.symm⟩

end PreSeQL.Compiler
