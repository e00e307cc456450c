/-
  PreSeQL.Compiler.Token — tokens (`tokenizer.h`).
-/
import PreSeQL.Compiler.Statement

namespace PreSeQL.Compiler

inductive TokenType where
  | TOKEN_KEYWORD_SELECT | TOKEN_KEYWORD_FROM | TOKEN_KEYWORD_INSERT | TOKEN_KEYWORD_INTO
  | TOKEN_KEYWORD_VALUES | TOKEN_KEYWORD_CREATE | TOKEN_KEYWORD_TABLE | TOKEN_KEYWORD_BEGIN
  | TOKEN_KEYWORD_COMMIT | TOKEN_KEYWORD_TRANSACTION
  | TOKEN_TYPE_VARCHAR | TOKEN_TYPE_INT
  | TOKEN_END_OF_LINE | TOKEN_PUNC_COMMA | TOKEN_PUNC_OPEN_PAREN | TOKEN_PUNC_CLOSE_PAREN
  | TOKEN_PUNC_QUOTE | TOKEN_OP_STAR
  | TOKEN_IDENTIFIER | TOKEN_VARCHAR_LITERAL | TOKEN_INT_LITERAL | TOKEN_UNKNOWN
  deriving DecidableEq

structure Token where
  type : TokenType
  lexeme : Text
  line_number : Nat
  deriving DecidableEq

/-- A token without its line number. -/
abbrev TokenForm := TokenType × Text

def Token.form (token : Token) : TokenForm := (token.type, token.lexeme)

end PreSeQL.Compiler
