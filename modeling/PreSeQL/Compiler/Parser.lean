/-
  PreSeQL.Compiler.Parser — the recursive-descent parser (`parser.c`).

  A routine takes the parser and returns it with the cursor moved; a `goto error` is
  `none`.  The three comma loops are one loop over the routine that parses an item.
  Error messages go to `stderr` and are left out.
-/
import PreSeQL.Compiler.Token

namespace PreSeQL.Compiler

open TokenType

/-! ## §1. The cursor. -/

structure Parser where
  tokens : List Token
  pos : Nat

def peek (parser : Parser) : Option Token := parser.tokens[parser.pos]?

def advance (parser : Parser) : Option Token × Parser :=
  match parser.tokens[parser.pos]? with
  | some token => (some token, { parser with pos := parser.pos + 1 })
  | none => (none, parser)

/-- `match` of the source. -/
def match_token (parser : Parser) (type : TokenType) : Bool × Parser :=
  match peek parser with
  | some token =>
      if token.type = type then (true, { parser with pos := parser.pos + 1 }) else (false, parser)
  | none => (false, parser)

/-- The token, if it has the type; the cursor has moved either way. -/
def expect (parser : Parser) (type : TokenType) : Option Token × Parser :=
  match advance parser with
  | (some token, parser) => (if token.type = type then some token else none, parser)
  | (none, parser) => (none, parser)

/-- A token of the type, or the error exit. -/
def require (parser : Parser) (type : TokenType) : Option (Token × Parser) :=
  match expect parser type with
  | (some token, parser) => some (token, parser)
  | (none, _) => none

/-- `do … while (match(parser, TOKEN_PUNC_COMMA))`.  Every round moves the cursor, so as
many rounds as there are tokens are enough. -/
def comma_loop {α : Type} (item : Parser → Option (α × Parser)) :
    Nat → Parser → Option (List α × Parser)
  | 0, _ => none
  | fuel + 1, parser =>
      match item parser with
      | none => none
      | some (a, parser) =>
          match match_token parser TOKEN_PUNC_COMMA with
          | (true, parser) =>
              match comma_loop item fuel parser with
              | none => none
              | some (as, parser) => some (a :: as, parser)
          | (false, parser) => some ([a], parser)

def comma_list {α : Type} (item : Parser → Option (α × Parser)) (parser : Parser) :
    Option (List α × Parser) :=
  comma_loop item parser.tokens.length parser

/-! ## §2. Literals. -/

/-- The value of a run of decimal digits, read from the left. -/
def digits_value (digits : Text) : Nat :=
  digits.foldl (fun value c => 10 * value + (c.toNat - '0'.toNat)) 0

/-- The characters of `isspace` in the C locale. -/
def isspace (c : Char) : Bool :=
  c = ' ' || c = '\t' || c = '\n' || c = '\x0b' || c = '\x0c' || c = '\x0d'

def LONG_MIN : Int := -9223372036854775808

def LONG_MAX : Int := 9223372036854775807

/-- The nearest value of a 64-bit `long`. -/
def clamp_long (n : Int) : Int :=
  if n < LONG_MIN then LONG_MIN else if LONG_MAX < n then LONG_MAX else n

/-- `strtol` in base 10, held within the range of its type. -/
def strtol (s : Text) : Int :=
  match s.dropWhile isspace with
  | '-' :: rest => clamp_long (-(digits_value (rest.takeWhile Char.isDigit) : Int))
  | '+' :: rest => clamp_long (digits_value (rest.takeWhile Char.isDigit))
  | rest => clamp_long (digits_value (rest.takeWhile Char.isDigit))

/-- `atoi`: `strtol` cut to 32 bits. -/
def atoi (s : Text) : Int32 := Int32.ofInt (strtol s)

/-- `strndup(lexeme + 1, strlen(lexeme) - 2)`. -/
def unquote (lexeme : Text) : Text := (lexeme.drop 1).take (lexeme.length - 2)

/-! ## §3. Statements. -/

def parse_name (parser : Parser) : Option (Text × Parser) :=
  match require parser TOKEN_IDENTIFIER with
  | none => none
  | some (token, parser) => some (token.lexeme, parser)

/-- The table is not followed by a check: `expect` moves over the next token, whatever
it is. -/
def parse_select (parser : Parser) : Option (SelectStatement × Parser) := do
  let (_, parser) ← require parser TOKEN_KEYWORD_SELECT
  let (columns, parser) ←
    match match_token parser TOKEN_OP_STAR with
    | (true, parser) => some ([['*']], parser)
    -- columns up to the first token that no comma precedes
    | (false, parser) => comma_list parse_name parser
  let (_, parser) ← require parser TOKEN_KEYWORD_FROM
  let (table, parser) ← require parser TOKEN_IDENTIFIER
  let (_, parser) := expect parser TOKEN_END_OF_LINE
  some (⟨columns, table.lexeme⟩, parser)

def parse_value (parser : Parser) : Option (Value × Parser) :=
  match advance parser with
  | (none, _) => none
  | (some token, parser) =>
      if token.type = TOKEN_VARCHAR_LITERAL then some (.VALUE_TEXT (unquote token.lexeme), parser)
      else if token.type = TOKEN_INT_LITERAL then
        some (.VALUE_INTEGER (atoi token.lexeme), parser)
      else none

/-- The optional column list of `parse_insert`. -/
def parse_columns (parser : Parser) : Option (List Text × Parser) :=
  match match_token parser TOKEN_PUNC_OPEN_PAREN with
  | (true, parser) => do
      let (columns, parser) ← comma_list parse_name parser
      let (_, parser) ← require parser TOKEN_PUNC_CLOSE_PAREN
      some (columns, parser)
  | (false, parser) => some ([], parser)

def parse_insert (parser : Parser) : Option (InsertStatement × Parser) := do
  let (_, parser) ← require parser TOKEN_KEYWORD_INSERT
  let (_, parser) ← require parser TOKEN_KEYWORD_INTO
  let (table, parser) ← require parser TOKEN_IDENTIFIER
  let (columns, parser) ← parse_columns parser
  let (_, parser) ← require parser TOKEN_KEYWORD_VALUES
  let (_, parser) ← require parser TOKEN_PUNC_OPEN_PAREN
  let (values, parser) ← comma_list parse_value parser
  let (_, parser) ← require parser TOKEN_PUNC_CLOSE_PAREN
  let (_, parser) ← require parser TOKEN_END_OF_LINE
  some (⟨columns, table.lexeme, values⟩, parser)

/-- The type of a column: `INT` has length -1, `VARCHAR` the given length or 255. -/
def parse_type (parser : Parser) : Option ((ColumnType × Int32) × Parser) :=
  match peek parser with
  | none => none
  | some type_token =>
      if type_token.type = TOKEN_TYPE_INT then
        some ((.COLTYPE_INT, -1), (advance parser).2)
      -- a length in parentheses is optional
      else if type_token.type = TOKEN_TYPE_VARCHAR then
        match match_token (advance parser).2 TOKEN_PUNC_OPEN_PAREN with
        | (true, parser) => do
            let (length_token, parser) ← require parser TOKEN_INT_LITERAL
            let (_, parser) ← require parser TOKEN_PUNC_CLOSE_PAREN
            some ((.COLTYPE_VARCHAR, atoi length_token.lexeme), parser)
        | (false, parser) => some ((.COLTYPE_VARCHAR, 255), parser)
      else none

def parse_column_def (parser : Parser) : Option (ColumnDef × Parser) := do
  let (col_name, parser) ← require parser TOKEN_IDENTIFIER
  let ((col_type, type_length), parser) ← parse_type parser
  some (⟨col_name.lexeme, col_type, type_length⟩, parser)

def parse_create (parser : Parser) : Option (CreateStatement × Parser) := do
  let (_, parser) ← require parser TOKEN_KEYWORD_CREATE
  let (_, parser) ← require parser TOKEN_KEYWORD_TABLE
  let (table, parser) ← require parser TOKEN_IDENTIFIER
  let (_, parser) ← require parser TOKEN_PUNC_OPEN_PAREN
  let (columns, parser) ← comma_list parse_column_def parser
  let (_, parser) ← require parser TOKEN_PUNC_CLOSE_PAREN
  let (_, parser) ← require parser TOKEN_END_OF_LINE
  some (⟨table.lexeme, columns⟩, parser)

def parse_begin (parser : Parser) : Option (ControlStatement × Parser) := do
  let (_, parser) ← require parser TOKEN_KEYWORD_BEGIN
  let (_, parser) ← require parser TOKEN_KEYWORD_TRANSACTION
  let (_, parser) ← require parser TOKEN_END_OF_LINE
  some (⟨.STMT_BEGIN⟩, parser)

def parse_commit (parser : Parser) : Option (ControlStatement × Parser) := do
  let (_, parser) ← require parser TOKEN_KEYWORD_COMMIT
  let (_, parser) ← require parser TOKEN_END_OF_LINE
  some (⟨.STMT_COMMIT⟩, parser)

/-! ## §4. The entry point. -/

/-- The statement and the parser behind it. -/
def parse_statement (parser : Parser) : Option (Statement × Parser) :=
  match peek parser with
  | none => none
  | some token =>
      if token.type = TOKEN_KEYWORD_SELECT then (parse_select parser).map (Prod.map .select id)
      else if token.type = TOKEN_KEYWORD_INSERT then
        (parse_insert parser).map (Prod.map .insert id)
      else if token.type = TOKEN_KEYWORD_CREATE then
        (parse_create parser).map (Prod.map .create id)
      else if token.type = TOKEN_KEYWORD_BEGIN then
        (parse_begin parser).map (Prod.map .control id)
      else if token.type = TOKEN_KEYWORD_COMMIT then
        (parse_commit parser).map (Prod.map .control id)
      else none

/-- The statement returned; `*out_stmt_type` is its `stmt_type`. -/
def parse_tokens_with_type (token_streams : List Token) : Option Statement :=
  (parse_statement ⟨token_streams, 0⟩).map Prod.fst

end PreSeQL.Compiler
