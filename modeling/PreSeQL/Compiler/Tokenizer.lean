/-
  PreSeQL.Compiler.Tokenizer — the tokenizer (`tokenizer.c`).

  The text is a C string, so its characters are those in front of the terminator; the
  remaining text stands for `sql_commands + current_position`.  A candidate is copied
  to a buffer of 1024 bytes: a run that writes past it, or leaves no terminator in it,
  has no result.
-/
import PreSeQL.Compiler.Token
import PreSeQL.Lib.Regex

namespace PreSeQL.Compiler

open TokenType
open PreSeQL.Lib (Regex)

/-! ## §1. Tables of lexemes. -/

/-- The entries of a `{lexeme, token_type}` table in front of its `NULL` entry. -/
structure LexemeTable where
  entries : List (Text × TokenType)
  nodup : (entries.map Prod.fst).Nodup
  known : ∀ entry ∈ entries, entry.2 ≠ TOKEN_UNKNOWN

/-- The loop over the entries: `strcmp` against each lexeme in turn. -/
def lookup_strcmp (lexeme : Text) : List (Text × TokenType) → TokenType
  | [] => TOKEN_UNKNOWN
  | (entry, token_type) :: entries =>
      if lexeme = entry then token_type else lookup_strcmp lexeme entries

def keywords : LexemeTable where
  entries :=
    [("SELECT".toList, TOKEN_KEYWORD_SELECT), ("FROM".toList, TOKEN_KEYWORD_FROM),
     ("INSERT".toList, TOKEN_KEYWORD_INSERT), ("INTO".toList, TOKEN_KEYWORD_INTO),
     ("VALUES".toList, TOKEN_KEYWORD_VALUES), ("CREATE".toList, TOKEN_KEYWORD_CREATE),
     ("TABLE".toList, TOKEN_KEYWORD_TABLE), ("BEGIN".toList, TOKEN_KEYWORD_BEGIN),
     ("TRANSACTION".toList, TOKEN_KEYWORD_TRANSACTION), ("COMMIT".toList, TOKEN_KEYWORD_COMMIT)]
  nodup := by decide
  known := by decide

def types : LexemeTable where
  entries := [("VARCHAR".toList, TOKEN_TYPE_VARCHAR), ("INT".toList, TOKEN_TYPE_INT)]
  nodup := by decide
  known := by decide

def operators : LexemeTable where
  entries := [("*".toList, TOKEN_OP_STAR)]
  nodup := by decide
  known := by decide

def punctuations : LexemeTable where
  entries :=
    [("(".toList, TOKEN_PUNC_OPEN_PAREN), (")".toList, TOKEN_PUNC_CLOSE_PAREN),
     ("'".toList, TOKEN_PUNC_QUOTE), (";".toList, TOKEN_END_OF_LINE),
     (",".toList, TOKEN_PUNC_COMMA)]
  nodup := by decide
  known := by decide

def is_keyword_strcmp (lexeme : Text) : TokenType := lookup_strcmp lexeme keywords.entries

def is_type_strcmp (lexeme : Text) : TokenType := lookup_strcmp lexeme types.entries

def is_operator_strcmp (lexeme : Text) : TokenType := lookup_strcmp lexeme operators.entries

def is_punctuation_strcmp (lexeme : Text) : TokenType :=
  lookup_strcmp lexeme punctuations.entries

/-! ## §2. Patterns.  All are anchored at both ends. -/

def letter (c : Char) : Bool := ('a' ≤ c && c ≤ 'z') || ('A' ≤ c && c ≤ 'Z')

def digit (c : Char) : Bool := '0' ≤ c && c ≤ '9'

/-- `^'([^']|'')*'$` -/
def varchar_literal_pattern : Regex Char :=
  .seq (.char '\'')
    (.seq (.star (.alt (.cls fun c => c ≠ '\'') (.seq (.char '\'') (.char '\'')))) (.char '\''))

/-- `^(0|[1-9][0-9]*)$` -/
def integer_literal_pattern : Regex Char :=
  .alt (.char '0') (.seq (.cls fun c => '1' ≤ c && c ≤ '9') (.star (.cls digit)))

/-- `^[a-zA-Z_]([a-zA-Z0-9])*$` -/
def identifier_pattern : Regex Char :=
  .seq (.cls fun c => letter c || c = '_') (.star (.cls fun c => letter c || digit c))

def is_varchar_literal_regex (lexeme : Text) : Bool := varchar_literal_pattern.accepts lexeme

def is_integer_literal_regex (lexeme : Text) : Bool := integer_literal_pattern.accepts lexeme

def is_identifier_regex (lexeme : Text) : Bool := identifier_pattern.accepts lexeme

/-! ## §3. The longest match. -/

/-- `(type = …) != TOKEN_UNKNOWN || (type = …) != TOKEN_UNKNOWN` -/
def or_else (token_type next : TokenType) : TokenType :=
  if token_type ≠ TOKEN_UNKNOWN then token_type else next

/-- The condition of the scan: the type it leaves in `candidate_token_type`. -/
def candidate_type (candidate_lexeme : Text) : TokenType :=
  or_else (is_keyword_strcmp candidate_lexeme) <|
  or_else (is_type_strcmp candidate_lexeme) <|
  or_else (is_operator_strcmp candidate_lexeme) <|
  or_else (is_punctuation_strcmp candidate_lexeme) <|
  or_else (if is_identifier_regex candidate_lexeme then TOKEN_IDENTIFIER else TOKEN_UNKNOWN) <|
  or_else (if is_varchar_literal_regex candidate_lexeme then TOKEN_VARCHAR_LITERAL
    else TOKEN_UNKNOWN) <|
  if is_integer_literal_regex candidate_lexeme then TOKEN_INT_LITERAL else TOKEN_UNKNOWN

structure Match where
  token_type : TokenType := TOKEN_UNKNOWN
  longest_match : Nat := 0
  matched_lexeme : Text := []
  deriving DecidableEq

/-- The variables of the scan after its first `n` rounds; round `n + 1` tries the
candidate of that length. -/
def scan (rest : Text) : Nat → Match
  | 0 => {}
  | n + 1 =>
      let candidate_lexeme := rest.take (n + 1)
      let candidate_token_type := candidate_type candidate_lexeme
      if candidate_token_type ≠ TOKEN_UNKNOWN then
        { token_type := candidate_token_type, longest_match := n + 1,
          matched_lexeme := candidate_lexeme }
      -- shorter candidates have set the variables before
      else scan rest n

/-- `sizeof candidate_lexeme` -/
def LEXEME_BUFFER : Nat := 1024

/-- The whole scan.  Its longest candidate is all of the remaining text. -/
def longest_match (rest : Text) : Option Match :=
  if rest.length < LEXEME_BUFFER then some (scan rest rest.length) else none

/-! ## §4. The main loop. -/

def is_space (c : Char) : Bool := c = ' ' || c = '\n' || c = '\t' || c = '\r'

def create_token (type : TokenType) (lexeme : Text) (line_number : Nat) : Token :=
  ⟨type, lexeme, line_number⟩

/-- `fuel` bounds the rounds; every round takes a character, so the text's length is
enough. -/
def tokenize_loop : Nat → Text → Nat → List Token → Option (Nat × List Token)
  | _, [], _, token_stream => some (0, token_stream)
  | 0, _ :: _, _, _ => none
  | fuel + 1, c :: rest, current_line_number, token_stream =>
      match longest_match (c :: rest) with
      | none => none
      | some m =>
          -- the token keeps the line its lexeme starts on
          if m.token_type ≠ TOKEN_UNKNOWN then
            let token := create_token m.token_type m.matched_lexeme current_line_number
            tokenize_loop fuel ((c :: rest).drop m.longest_match) current_line_number
              (token_stream ++ [token])
          else
            -- a newline counts before it is tested for being whitespace
            let current_line_number :=
              if c = '\n' then current_line_number + 1 else current_line_number
            if !is_space c then some (1, token_stream)
            else tokenize_loop fuel rest current_line_number token_stream

/-- The code returned and `*token_stream`. -/
def tokenize (sql_commands : Text) (token_stream : List Token) : Option (Nat × List Token) :=
  tokenize_loop sql_commands.length sql_commands 1 token_stream

end PreSeQL.Compiler
