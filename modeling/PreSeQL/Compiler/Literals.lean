/-
  PreSeQL.Compiler.Literals — the literals of a statement and what is stored of them.

  The parser cuts the first and the last quote off a text and leaves the doubled ones
  inside as they are; an integer goes through `atoi`, which keeps what fits an `int`:

    • `text_literal_iff` — a text comes back exactly when it has no quote in it,
    • `integer_literal_iff` — a number is stored exactly when it is below 2^31.

  The second speaks of every statement the parser accepts.  `Passed` says which tokens
  a routine has passed; they are of the statement's form, and every item of a list keeps
  its own literals (`Items.readFrom`).
-/
import PreSeQL.Compiler.Grammar
import PreSeQL.Compiler.Layout

namespace PreSeQL.Compiler

open TokenType
open PreSeQL.Lib (Regex)
open PreSeQL.Lib.Lexicon (Piece)

/-! ## §1. Texts. -/

/-- A value of an INSERT as written: any number, any text. -/
inductive SqlLiteral where
  | number (n : Nat)
  | text (content : Text)

def SqlLiteral.print : SqlLiteral → List TokenForm
  | number n => print_number n
  | text content => [(TOKEN_VARCHAR_LITERAL, quote content)]

/-- What the parser stores. -/
def SqlLiteral.stored : SqlLiteral → Value
  | number n => .VALUE_INTEGER (atoi (decimal n))
  | text content => .VALUE_TEXT (escape content)

theorem unquote_escape (content : Text) : unquote (quote content) = escape content := by
  rw [quote, unquote, List.drop_one, List.tail_cons]
  simp

theorem escape_length (content : Text) :
    (escape content).length = content.length + content.count '\'' := by
  induction content with
  | nil => rfl
  | cons c content ih =>
      by_cases hc : c = '\''
      · subst hc
        rw [escape, if_pos rfl, List.count_cons_self, List.length_cons, List.length_cons,
          List.length_cons, ih]
        omega
      · rw [escape, if_neg hc, List.count_cons_of_ne hc, List.length_cons, List.length_cons, ih]
        omega

/-- Doubling the quotes changes every text that has one. -/
theorem escape_eq_iff (content : Text) : escape content = content ↔ '\'' ∉ content := by
  constructor
  · intro h
    have hlength := escape_length content
    rw [h] at hlength
    exact List.count_eq_zero.mp (by omega)
  · exact escape_of_not_mem

theorem parses_literal {stop : TokenType} :
    Parses parse_value SqlLiteral.print SqlLiteral.stored stop := by
  intro value parser type lexeme forms _ hreads
  cases value with
  | number n =>
      obtain ⟨token, hget, htype, hlexeme, h₁⟩ := Reads.token hreads
      refine ⟨_, ?_, h₁⟩
      simp only [parse_value, advance, hget, htype, hlexeme, SqlLiteral.stored]
      rfl
  | text content =>
      obtain ⟨token, hget, htype, hlexeme, h₁⟩ := Reads.token hreads
      refine ⟨_, ?_, h₁⟩
      simp only [parse_value, advance, hget, htype, hlexeme, SqlLiteral.stored, unquote_escape]
      rfl

/-- Any layout of an INSERT is tokenized and parsed, each value to what is stored of it. -/
theorem insert_layout (table : Text) (columns : Option (NonemptyList Text))
    (values : NonemptyList SqlLiteral) {pieces : List (Piece Char TokenType)}
    (hlayout : Layout pieces)
    (hforms : pieces.filterMap Piece.token? =
      print_insert table columns (separated SqlLiteral.print values.1))
    (hlength : (pieces.flatMap Piece.chars).length ≤ 1023) :
    ∃ tokens parser', tokenize (pieces.flatMap Piece.chars) [] = some (0, tokens) ∧
      parse_insert ⟨tokens, 0⟩ = some (⟨(columns.map Subtype.val).getD [], table,
        values.1.map SqlLiteral.stored⟩, parser') := by
  obtain ⟨tokens, htokenize, htokens⟩ := tokenize_layout hlayout hlength []
  rw [← htokens] at hforms
  have hahead : remaining ⟨tokens, 0⟩ = tokens ++ [] := (List.append_nil tokens).symm
  obtain ⟨parser', hparse, -⟩ :=
    (insert_sentence parses_literal table columns values hforms).parse_insert hahead
  exact ⟨tokens, parser', htokenize, hparse⟩

/-- **A text literal comes back exactly when it has no quote in it.** -/
theorem text_literal_iff (table : Text) (columns : Option (NonemptyList Text))
    (values : NonemptyList SqlLiteral) (pieces : List (Piece Char TokenType))
    (hlayout : Layout pieces)
    (hforms : pieces.filterMap Piece.token? =
      print_insert table columns (separated SqlLiteral.print values.1))
    (hlength : (pieces.flatMap Piece.chars).length ≤ 1023) :
    ∃ tokens stmt parser', tokenize (pieces.flatMap Piece.chars) [] = some (0, tokens) ∧
      parse_insert ⟨tokens, 0⟩ = some (stmt, parser') ∧
      stmt.values.length = values.1.length ∧
      ∀ (i : Nat) (s : Text), values.1[i]? = some (.text s) →
        (stmt.values[i]? = some (.VALUE_TEXT s) ↔ '\'' ∉ s) := by
  obtain ⟨tokens, parser', htokenize, hparse⟩ :=
    insert_layout table columns values hlayout hforms hlength
  refine ⟨tokens, _, parser', htokenize, hparse, List.length_map _, fun i s hvalue => ?_⟩
  -- the value stored is the text with its quotes doubled
  rw [List.getElem?_map, hvalue, Option.map_some, SqlLiteral.stored, Option.some.injEq,
    Value.VALUE_TEXT.injEq]
  exact escape_eq_iff s

/-- `INSERT INTO t VALUES ('''');` -/
def one_quote : List (Piece Char TokenType) :=
  [.token TOKEN_KEYWORD_INSERT "INSERT".toList, .skip ' ', .token TOKEN_KEYWORD_INTO "INTO".toList,
   .skip ' ', .token TOKEN_IDENTIFIER ['t'], .skip ' ',
   .token TOKEN_KEYWORD_VALUES "VALUES".toList, .skip ' ', .token TOKEN_PUNC_OPEN_PAREN ['('],
   .token TOKEN_VARCHAR_LITERAL (quote ['\'']), .token TOKEN_PUNC_CLOSE_PAREN [')'],
   .token TOKEN_END_OF_LINE [';']]

theorem one_quote_layout : Layout one_quote := by
  refine .token (.keyword (by decide)) trivial <| .space (by decide) <|
    .token (.keyword (by decide)) trivial <| .space (by decide) <|
    .token (.identifier (by decide) (by decide) (by decide)) trivial <| .space (by decide) <|
    .token (.keyword (by decide)) trivial <| .space (by decide) <|
    .token (.punctuation (by decide) (by decide)) (.inl ?_) <|
    .token (.varchar_literal ['\'']) (.inr ?_) <|
    .token (.punctuation (by decide) (by decide)) (.inl ?_) <|
    .token (.punctuation (by decide) (by decide)) trivial .nil
  · exact ⟨'(', by decide, rfl⟩
  · exact ⟨')', by decide, rfl⟩
  · exact ⟨')', by decide, rfl⟩

theorem text_literal_iff_one_quote :
    ∃ tokens stmt parser', tokenize "INSERT INTO t VALUES ('''');".toList [] = some (0, tokens) ∧
      parse_insert ⟨tokens, 0⟩ = some (stmt, parser') ∧
      ¬ stmt.values[0]? = some (.VALUE_TEXT ['\'']) := by
  obtain ⟨tokens, stmt, parser', htokenize, hparse, -, hvalues⟩ :=
    text_literal_iff ['t'] none ⟨[.text ['\'']], by simp⟩ one_quote one_quote_layout rfl (by decide)
  refine ⟨tokens, stmt, parser', htokenize, hparse, ?_⟩
  rw [hvalues 0 ['\''] rfl]
  decide

/-- A quote is stored twice. -/
theorem quote_stored_twice :
    ∃ tokens stmt parser', tokenize "INSERT INTO t VALUES ('''');".toList [] = some (0, tokens) ∧
      parse_insert ⟨tokens, 0⟩ = some (stmt, parser') ∧
      quote ['\''] = "''''".toList ∧ stmt.values = [.VALUE_TEXT "''".toList] ∧
      stmt.values ≠ [.VALUE_TEXT ['\'']] := by
  obtain ⟨tokens, parser', htokenize, hparse⟩ :=
    insert_layout ['t'] none ⟨[.text ['\'']], by simp⟩ one_quote_layout rfl (by decide)
  exact ⟨tokens, _, parser', htokenize, hparse, rfl, rfl, by decide⟩

/-! ## §2. The literals a routine has passed. -/

def is_int_literal (token : Token) : Bool := token.type = TOKEN_INT_LITERAL

/-- The tokens between two cursors. -/
def consumed (parser parser' : Parser) : List Token :=
  (parser.tokens.drop parser.pos).take (parser'.pos - parser.pos)

/-- The routine went from one cursor to the other, over these integer literals. -/
def Passed (parser parser' : Parser) (literals : List Token) : Prop :=
  parser'.tokens = parser.tokens ∧ ∃ tokens : List Token,
    parser'.pos = parser.pos + tokens.length ∧
    parser.tokens.drop parser.pos = tokens ++ parser.tokens.drop parser'.pos ∧
    tokens.filter is_int_literal = literals

theorem Took.passed {parser parser' : Parser} {ts : List Token} (h : Took parser ts parser') :
    Passed parser parser' (ts.filter is_int_literal) := by
  refine ⟨h.tokens, ts, h.pos, ?_, rfl⟩
  have hfront : parser.tokens.drop parser.pos = ts ++ parser'.tokens.drop parser'.pos := h.front
  rw [hfront, h.tokens]

theorem Passed.filter_consumed {parser parser' : Parser} {literals : List Token}
    (h : Passed parser parser' literals) :
    (consumed parser parser').filter is_int_literal = literals := by
  obtain ⟨-, tokens, hpos, hdrop, hliterals⟩ := h
  rw [consumed, hdrop, hpos, Nat.add_sub_cancel_left, List.take_left, hliterals]

/-- A token of another type is left out. -/
theorem filter_other {type : TokenType} (token : TokenOf type) (hne : type ≠ TOKEN_INT_LITERAL)
    (rest : List Token) :
    (token.1 :: rest).filter is_int_literal = rest.filter is_int_literal := by
  apply List.filter_cons_of_neg
  rw [is_int_literal, token.2]
  simpa using hne

theorem filter_literal (token : TokenOf TOKEN_INT_LITERAL) (rest : List Token) :
    (token.1 :: rest).filter is_int_literal = token.1 :: rest.filter is_int_literal := by
  apply List.filter_cons_of_pos
  rw [is_int_literal, token.2]
  rfl

/-! ## §3. Each item of a list has its own literals. -/

/-- The literals fall into one group for each item. -/
def ReadFrom {α : Type} (literals : List Token) (R : List Token → α → Prop) (items : List α) :
    Prop :=
  ∃ groups : List (List Token), groups.flatten = literals ∧ List.Forall₂ R groups items

/-- What an item parser says of an item and the literals it was read from. -/
def ItemReads {α : Type} (item : Parser → Option (α × Parser)) (R : List Token → α → Prop) :
    Prop :=
  ∀ parser a parser', item parser = some (a, parser') →
    ∃ literals, Passed parser parser' literals ∧ R literals a

/-- Items with commas between them: induction on the items. -/
theorem Items.readFrom {α : Type} {Form : List Token → α → Prop} {R : List Token → α → Prop}
    (hform : ∀ ts a, Form ts a → R (ts.filter is_int_literal) a) {ts : List Token} {as : List α}
    (h : Items Form ts as) : ReadFrom (ts.filter is_int_literal) R as := by
  induction h with
  | one ha => exact ⟨[_], by simp, .cons (hform _ _ ha) .nil⟩
  | more comma ha _ ih =>
      obtain ⟨groups, hgroups, hall⟩ := ih
      refine ⟨_ :: groups, ?_, .cons (hform _ _ ha) hall⟩
      rw [List.filter_append, filter_other comma (by decide), List.flatten_cons, hgroups]

theorem readFrom_nil {α : Type} {literals : List Token} {items : List α}
    (h : ReadFrom literals (fun group _ => group = []) items) : literals = [] := by
  obtain ⟨groups, rfl, hall⟩ := h
  induction hall with
  | nil => rfl
  | cons hgroup _ ih => rw [List.flatten_cons, hgroup, ih]; rfl

/-! ## §4. Numbers. -/

/-- The `int` is the natural number the digits denote. -/
def Denotes (n : Int32) (lexeme : Text) : Prop := n.toInt = digits_value lexeme

theorem isDigit_of_integer {lexeme : Text} (h : is_integer_literal_regex lexeme = true) :
    ∀ c ∈ lexeme, c.isDigit = true := by
  intro c hc
  have hdigit := (digits_of_integer ((Regex.accepts_iff _ _).mp h)).2 c hc
  simp only [digit, Bool.and_eq_true, decide_eq_true_eq] at hdigit
  simp only [Char.isDigit, Bool.and_eq_true, decide_eq_true_eq]
  exact hdigit

/-- **`atoi` keeps what fits an `int`**, and nothing else. -/
theorem atoi_denotes_iff {lexeme : Text} (h : is_integer_literal_regex lexeme = true) :
    Denotes (atoi lexeme) lexeme ↔ digits_value lexeme < 2 ^ 31 := by
  rw [Denotes, atoi_of_digits (isDigit_of_integer h)]
  constructor
  · -- an `int` is below 2^31, whatever `atoi` returns
    intro heq
    have hlt := (Int32.ofInt (clamp_long (digits_value lexeme))).toInt_lt
    omega
  · intro hlt
    rw [clamp_long_of_lt hlt]
    exact Int32.toInt_ofInt_of_le (by omega) (by omega)

/-- A literal is stored as its number exactly when it fits. -/
def StoredIfFits (token : Token) (n : Int32) : Prop :=
  is_integer_literal_regex token.lexeme = true →
    (Denotes n token.lexeme ↔ digits_value token.lexeme < 2 ^ 31)

/-- A number is read from one literal, a text from none. -/
def ValueRead (literals : List Token) : Value → Prop
  | .VALUE_TEXT _ => literals = []
  | .VALUE_INTEGER n => ∃ token, literals = [token] ∧ StoredIfFits token n

/-- The length of a `VARCHAR` is read from a literal, if one is given. -/
def ColumnRead (literals : List Token) (column : ColumnDef) : Prop :=
  literals = [] ∨ ∃ token, literals = [token] ∧ column.type = .COLTYPE_VARCHAR ∧
    StoredIfFits token column.type_length

/-! ## §5. The statements. -/

theorem ValueForm.read {ts : List Token} {value : Value} (h : ValueForm ts value) :
    ValueRead (ts.filter is_int_literal) value := by
  cases h with
  | text literal => exact filter_other literal (by decide) []
  | integer literal => exact ⟨literal.1, filter_literal literal [], atoi_denotes_iff⟩

/-- A list of names has no literal. -/
theorem ColumnsForm.no_literal {ts : List Token} {columns : List Text}
    (h : ColumnsForm ts columns) : ts.filter is_int_literal = [] := by
  cases h with
  | omitted => rfl
  | listed open_ close hnames =>
      have hname : ∀ us name, NameForm us name → us.filter is_int_literal = [] := by
        intro us name hname
        cases hname with
        | identifier name => exact filter_other name (by decide) []
      rw [filter_other open_ (by decide), List.filter_append, readFrom_nil (hnames.readFrom hname)]
      exact filter_other close (by decide) []

/-- A type has at most one literal, the length of a `VARCHAR`. -/
theorem TypeForm.read {ts : List Token} {type : ColumnType × Int32} (h : TypeForm ts type) :
    ts.filter is_int_literal = [] ∨ ∃ token, ts.filter is_int_literal = [token]
      ∧ type.1 = .COLTYPE_VARCHAR ∧ StoredIfFits token type.2 := by
  cases h with
  | int type => exact .inl (filter_other type (by decide) [])
  | varchar type => exact .inl (filter_other type (by decide) [])
  | varchar_length type open_ length close =>
      right
      refine ⟨length.1, ?_, rfl, atoi_denotes_iff⟩
      rw [filter_other type (by decide), filter_other open_ (by decide), filter_literal,
        filter_other close (by decide)]
      rfl

theorem ColumnForm.read {ts : List Token} {column : ColumnDef} (h : ColumnForm ts column) :
    ColumnRead (ts.filter is_int_literal) column := by
  cases h with
  | column name htype =>
      rw [filter_other name (by decide)]
      exact htype.read

theorem insert_reads : ItemReads parse_insert fun literals stmt =>
    ReadFrom literals ValueRead stmt.values := by
  intro parser stmt parser' h
  obtain ⟨ts, hsentence, htook⟩ := parse_insert_sound parser stmt parser' h
  refine ⟨_, htook.passed, ?_⟩
  cases hsentence with
  | ends semicolon hbody =>
      cases hbody with
      | insert insert into table values open_ close hcolumns hvalues =>
          simp only [List.cons_append, List.append_assoc, List.filter_append, filter_other insert,
            filter_other into, filter_other table, filter_other values, filter_other open_,
            filter_other close, filter_other semicolon, hcolumns.no_literal, ne_eq, reduceCtorEq,
            not_false_eq_true, List.nil_append, List.filter_nil, List.append_nil]
          exact hvalues.readFrom fun _ _ => ValueForm.read

theorem create_reads : ItemReads parse_create fun literals stmt =>
    ReadFrom literals ColumnRead stmt.columns := by
  intro parser stmt parser' h
  obtain ⟨ts, hsentence, htook⟩ := parse_create_sound parser stmt parser' h
  refine ⟨_, htook.passed, ?_⟩
  cases hsentence with
  | ends semicolon hbody =>
      cases hbody with
      | create create keyword table open_ close hcolumns =>
          simp only [List.cons_append, List.append_assoc, List.filter_append, filter_other create,
            filter_other keyword, filter_other table, filter_other open_, filter_other close,
            filter_other semicolon, ne_eq, reduceCtorEq, not_false_eq_true, List.nil_append,
            List.filter_nil, List.append_nil]
          exact hcolumns.readFrom fun _ _ => ColumnForm.read

/-- **Integer literals.**  In every accepted INSERT and CREATE each literal passed is the
source of one value or of one length, and is stored as the number it denotes exactly when
that is below 2^31. -/
theorem integer_literal_iff (parser : Parser) :
    (∀ stmt parser', parse_insert parser = some (stmt, parser') →
      ReadFrom ((consumed parser parser').filter is_int_literal) ValueRead stmt.values) ∧
    (∀ stmt parser', parse_create parser = some (stmt, parser') →
      ReadFrom ((consumed parser parser').filter is_int_literal) ColumnRead stmt.columns) := by
  constructor
  · intro stmt parser' h
    obtain ⟨literals, hpassed, hread⟩ := insert_reads parser stmt parser' h
    rw [hpassed.filter_consumed]
    exact hread
  · intro stmt parser' h
    obtain ⟨literals, hpassed, hread⟩ := create_reads parser stmt parser' h
    rw [hpassed.filter_consumed]
    exact hread

/-- The tokens of an INSERT of one number into a table `t`. -/
def insert_number (number : Text) : List Token :=
  [⟨TOKEN_KEYWORD_INSERT, "INSERT".toList, 1⟩, ⟨TOKEN_KEYWORD_INTO, "INTO".toList, 1⟩,
   ⟨TOKEN_IDENTIFIER, ['t'], 1⟩, ⟨TOKEN_KEYWORD_VALUES, "VALUES".toList, 1⟩,
   ⟨TOKEN_PUNC_OPEN_PAREN, ['('], 1⟩, ⟨TOKEN_INT_LITERAL, number, 1⟩,
   ⟨TOKEN_PUNC_CLOSE_PAREN, [')'], 1⟩, ⟨TOKEN_END_OF_LINE, [';'], 1⟩]

/-- The largest `int` is accepted and read from its literal. -/
theorem integer_literal_iff_max :
    ∃ stmt parser', parse_insert ⟨insert_number "2147483647".toList, 0⟩ = some (stmt, parser') ∧
      stmt.values = [.VALUE_INTEGER 2147483647] ∧
      ReadFrom [⟨TOKEN_INT_LITERAL, "2147483647".toList, 1⟩] ValueRead stmt.values := by
  have hparse : parse_insert ⟨insert_number "2147483647".toList, 0⟩ =
      some (⟨[], ['t'], [.VALUE_INTEGER 2147483647]⟩,
        ⟨insert_number "2147483647".toList, 8⟩) := by rfl
  exact ⟨_, _, hparse, rfl, (integer_literal_iff _).1 _ _ hparse⟩

/-- One more is accepted too, and stored as the smallest `int`. -/
theorem number_wraps :
    ∃ stmt parser', parse_insert ⟨insert_number "2147483648".toList, 0⟩ = some (stmt, parser') ∧
      is_integer_literal_regex "2147483648".toList = true ∧
      stmt.values = [.VALUE_INTEGER (-2147483648)] ∧
      ¬ Denotes (-2147483648) "2147483648".toList := by
  refine ⟨⟨[], ['t'], [.VALUE_INTEGER (-2147483648)]⟩,
    ⟨insert_number "2147483648".toList, 8⟩, by rfl, by decide, rfl, ?_⟩
  rw [Denotes]
  decide

end PreSeQL.Compiler
