/-
  PreSeQL.Compiler.Blocks — the blocks of tokens, statements and programs.

  `tokenizer.c`, `parser.c` and `generator.c` with their calls of `malloc`, `strdup`,
  `realloc` and `free`.  A pointer is an address with the value it points to; the values are
  those of the functions of the same names, and a request is never refused.

    • `create_token`, `tokenize`, `free_tokens` — tokens,
    • `parse_statement`, `free_insert_statement`, … — statements,
    • `generate_code`, `free_program` — programs.
-/
import PreSeQL.Compiler.Generator
import PreSeQL.Compiler.Parser
import PreSeQL.Compiler.Tokenizer
import PreSeQL.Lib.Ledger

namespace PreSeQL.Compiler.Blocks

open PreSeQL.Lib PreSeQL.Lib.Alloc
open PreSeQL.Compiler TokenType

/-! ## §1. Strings and arrays. -/

/-- A string in a block of its own. -/
structure CString where
  addr : Nat
  text : Text

/-- The block of a string of this text. -/
def text_size (text : Text) : Nat := text.length + 1

def CString.own (s : CString) : Multiset Cell := {⟨s.addr, text_size s.text⟩}

def strdup (text : Text) : Alloc CString := do
  let addr ← malloc (text_size text)
  return ⟨addr, text⟩

/-- An array that grows with `realloc`; before its first element it is `NULL`. -/
structure CArray (α : Type) where
  addr : Option Nat
  elems : List α
  null_iff : addr = none ↔ elems = []

namespace CArray

variable {α β : Type}

def null : CArray α := ⟨none, [], by simp⟩

/-- `a = realloc(a, size * (count + 1)); a[count++] = elem;` -/
def push (size : Nat) (a : CArray α) (elem : Alloc α) : Alloc (CArray α) := do
  let addr ← realloc a.addr (size * (a.elems.length + 1))
  let x ← elem
  return ⟨some addr, a.elems ++ [x], by simp⟩

/-- The block of the array and those of its elements. -/
def own (size : Nat) (cells : α → Multiset Cell) (a : CArray α) : Multiset Cell :=
  a.addr.elim 0 (fun addr => {⟨addr, size * a.elems.length⟩}) + (a.elems.map cells).sum

end CArray

/-- `for (i = 0; i < count; i++) free(a[i]); free(a);` -/
def free_strings (a : CArray CString) : Alloc Unit := do
  a.elems.forM fun s => free (some s.addr)
  free a.addr

/-! ## §2. Tokens. -/

abbrev POINTER_SIZE : Nat := 8

/-- `sizeof(Token)` -/
abbrev TOKEN_SIZE : Nat := 24

structure TokenPtr where
  addr : Nat
  type : TokenType
  lexeme : CString
  line_number : Nat

namespace TokenPtr

def value (t : TokenPtr) : Token := ⟨t.type, t.lexeme.text, t.line_number⟩

def own (t : TokenPtr) : Multiset Cell := {⟨t.addr, TOKEN_SIZE⟩} + t.lexeme.own

end TokenPtr

def create_token (type : TokenType) (lexeme : Text) (line_number : Nat) : Alloc TokenPtr := do
  let addr ← malloc TOKEN_SIZE
  let lexeme ← strdup lexeme
  return ⟨addr, type, lexeme, line_number⟩

def free_token (token : TokenPtr) : Alloc Unit := do
  free (some token.lexeme.addr)
  free (some token.addr)

def free_tokens (token_stream : CArray TokenPtr) : Alloc Unit := do
  token_stream.elems.forM free_token
  free token_stream.addr

/-- The main loop of `tokenize`; the scan writes no block. -/
def tokenize_loop : Nat → Text → Nat → CArray TokenPtr → Alloc (Nat × CArray TokenPtr)
  | _, [], _, token_stream => return (0, token_stream)
  | 0, _ :: _, _, _ => fault
  | fuel + 1, c :: rest, current_line_number, token_stream =>
      match longest_match (c :: rest) with
      | none => fault
      | some m =>
          if m.token_type ≠ TOKEN_UNKNOWN then do
            let token ← create_token m.token_type m.matched_lexeme current_line_number
            let token_stream ← token_stream.push POINTER_SIZE (return token)
            tokenize_loop fuel ((c :: rest).drop m.longest_match) current_line_number token_stream
          else
            let current_line_number :=
              if c = '\n' then current_line_number + 1 else current_line_number
            if !is_space c then return (1, token_stream)
            else tokenize_loop fuel rest current_line_number token_stream

def tokenize (sql_commands : Text) (token_stream : CArray TokenPtr) :
    Alloc (Nat × CArray TokenPtr) :=
  tokenize_loop sql_commands.length sql_commands 1 token_stream

/-! ## §3. Statements. -/

/-- `sizeof(Value)` and `sizeof(ColumnDef)` -/
abbrev VALUE_SIZE : Nat := 16

inductive ValuePtr where
  | VALUE_TEXT (text_value : CString)
  | VALUE_INTEGER (int_value : Int32)

structure ColumnDefPtr where
  name : CString
  type : ColumnType
  type_length : Int32

structure SelectPtr where
  addr : Nat
  columns : CArray CString
  table_name : CString

structure InsertPtr where
  addr : Nat
  columns : CArray CString
  table_name : CString
  values : CArray ValuePtr

structure CreatePtr where
  addr : Nat
  table_name : CString
  columns : CArray ColumnDefPtr

structure ControlPtr where
  addr : Nat
  type : StatementType

abbrev SELECT_SIZE : Nat := 24

abbrev INSERT_SIZE : Nat := 40

abbrev CREATE_SIZE : Nat := 24

abbrev CONTROL_SIZE : Nat := 4

namespace ValuePtr

def value : ValuePtr → Value
  | VALUE_TEXT text_value => .VALUE_TEXT text_value.text
  | VALUE_INTEGER int_value => .VALUE_INTEGER int_value

def own : ValuePtr → Multiset Cell
  | VALUE_TEXT text_value => text_value.own
  | VALUE_INTEGER _ => 0

end ValuePtr

def ColumnDefPtr.value (c : ColumnDefPtr) : ColumnDef := ⟨c.name.text, c.type, c.type_length⟩

def SelectPtr.value (s : SelectPtr) : SelectStatement :=
  ⟨s.columns.elems.map CString.text, s.table_name.text⟩

def SelectPtr.own (s : SelectPtr) : Multiset Cell :=
  {⟨s.addr, SELECT_SIZE⟩} + s.columns.own POINTER_SIZE CString.own + s.table_name.own

def InsertPtr.value (s : InsertPtr) : InsertStatement :=
  ⟨s.columns.elems.map CString.text, s.table_name.text, s.values.elems.map ValuePtr.value⟩

def InsertPtr.own (s : InsertPtr) : Multiset Cell :=
  {⟨s.addr, INSERT_SIZE⟩} + s.columns.own POINTER_SIZE CString.own + s.table_name.own
    + s.values.own VALUE_SIZE ValuePtr.own

def CreatePtr.value (s : CreatePtr) : CreateStatement :=
  ⟨s.table_name.text, s.columns.elems.map ColumnDefPtr.value⟩

def CreatePtr.own (s : CreatePtr) : Multiset Cell :=
  {⟨s.addr, CREATE_SIZE⟩} + s.table_name.own + s.columns.own VALUE_SIZE (·.name.own)

/-- A statement behind the `void *` of `parse_tokens_with_type`. -/
inductive StatementPtr where
  | select (stmt : SelectPtr)
  | create (stmt : CreatePtr)
  | insert (stmt : InsertPtr)
  | control (stmt : ControlPtr)

namespace StatementPtr

def value : StatementPtr → Statement
  | select stmt => .select stmt.value
  | create stmt => .create stmt.value
  | insert stmt => .insert stmt.value
  | control stmt => .control ⟨stmt.type⟩

def own : StatementPtr → Multiset Cell
  | select stmt => stmt.own
  | create stmt => stmt.own
  | insert stmt => stmt.own
  | control stmt => {⟨stmt.addr, CONTROL_SIZE⟩}

end StatementPtr

/-! ## §4. The parser. -/

/-- `do … while (match(parser, TOKEN_PUNC_COMMA))`: the array as far as it has been read, and
the parser unless an item is missing. -/
def comma_loop {α β : Type} (item : Parser → Option (α × Parser))
    (add : CArray β → α → Alloc (CArray β)) :
    Nat → Parser → CArray β → Alloc (CArray β × Option Parser)
  | 0, _, items => return (items, none)
  | fuel + 1, parser, items =>
      match item parser with
      | none => return (items, none)
      | some (a, parser) => do
          let items ← add items a
          match match_token parser TOKEN_PUNC_COMMA with
          | (true, parser) => comma_loop item add fuel parser items
          | (false, parser) => return (items, some parser)

def comma_list {α β : Type} (item : Parser → Option (α × Parser))
    (add : CArray β → α → Alloc (CArray β)) (parser : Parser) :
    Alloc (CArray β × Option Parser) :=
  comma_loop item add parser.tokens.length parser .null

def add_name (columns : CArray CString) (name : Text) : Alloc (CArray CString) :=
  columns.push POINTER_SIZE (strdup name)

/-- `strndup` for a text. -/
def make_value : Value → Alloc ValuePtr
  | .VALUE_TEXT text_value => return .VALUE_TEXT (← strdup text_value)
  | .VALUE_INTEGER int_value => return .VALUE_INTEGER int_value

def add_value (values : CArray ValuePtr) (val : Value) : Alloc (CArray ValuePtr) := do
  let val ← make_value val
  values.push VALUE_SIZE (return val)

def add_column_def (columns : CArray ColumnDefPtr) (column : ColumnDef) :
    Alloc (CArray ColumnDefPtr) := do
  let name ← strdup column.name
  columns.push VALUE_SIZE (return ⟨name, column.type, column.type_length⟩)

/-- `*` or the columns of `parse_select`. -/
def select_columns (parser : Parser) : Alloc (CArray CString × Option Parser) :=
  match match_token parser TOKEN_OP_STAR with
  | (true, parser) => do
      let columns ← CArray.null.push POINTER_SIZE (strdup ['*'])
      return (columns, some parser)
  | (false, parser) => comma_list parse_name add_name parser

/-- The table of a SELECT. -/
def select_table (parser : Parser) : Option (Token × Parser) := do
  let (_, parser) ← require parser TOKEN_KEYWORD_FROM
  require parser TOKEN_IDENTIFIER

def parse_select (parser : Parser) : Alloc (Option (SelectPtr × Parser)) :=
  match require parser TOKEN_KEYWORD_SELECT with
  | none => return none
  | some (_, parser) => do
      let (columns, next) ← select_columns parser
      match next.bind select_table with
      | none => do
          free_strings columns
          return none
      | some (table, parser) => do
          let (_, parser) := expect parser TOKEN_END_OF_LINE
          let addr ← malloc SELECT_SIZE
          let table_name ← strdup table.lexeme
          return some (⟨addr, columns, table_name⟩, parser)

/-- The optional column list of `parse_insert`. -/
def parse_columns (parser : Parser) : Alloc (CArray CString × Option Parser) :=
  match match_token parser TOKEN_PUNC_OPEN_PAREN with
  | (true, parser) => do
      let (columns, next) ← comma_list parse_name add_name parser
      return (columns, do
        let (_, parser) ← require (← next) TOKEN_PUNC_CLOSE_PAREN
        some parser)
  | (false, parser) => return (.null, some parser)

/-- The table of an INSERT. -/
def insert_table (parser : Parser) : Option (Token × Parser) := do
  let (_, parser) ← require parser TOKEN_KEYWORD_INSERT
  let (_, parser) ← require parser TOKEN_KEYWORD_INTO
  require parser TOKEN_IDENTIFIER

def open_values (parser : Parser) : Option (Token × Parser) := do
  let (_, parser) ← require parser TOKEN_KEYWORD_VALUES
  require parser TOKEN_PUNC_OPEN_PAREN

/-- The end of the list that a statement ends with. -/
def close_list (parser : Parser) : Option (Token × Parser) := do
  let (_, parser) ← require parser TOKEN_PUNC_CLOSE_PAREN
  require parser TOKEN_END_OF_LINE

/-- The error exit frees the columns only. -/
def parse_insert (parser : Parser) : Alloc (Option (InsertPtr × Parser)) :=
  match insert_table parser with
  | none => return none
  | some (table, parser) => do
      let (columns, next) ← parse_columns parser
      match next.bind open_values with
      | none => do
          free_strings columns
          return none
      | some (_, parser) => do
          let (values, next) ← comma_list parse_value add_value parser
          match next.bind close_list with
          | none => do
              free_strings columns
              return none
          | some (_, parser) => do
              let addr ← malloc INSERT_SIZE
              let table_name ← strdup table.lexeme
              return some (⟨addr, columns, table_name, values⟩, parser)

def free_column_defs (columns : CArray ColumnDefPtr) : Alloc Unit := do
  columns.elems.forM fun column => free (some column.name.addr)
  free columns.addr

/-- The table of a CREATE and the parenthesis behind it. -/
def create_table (parser : Parser) : Option (Token × Parser) := do
  let (_, parser) ← require parser TOKEN_KEYWORD_CREATE
  let (_, parser) ← require parser TOKEN_KEYWORD_TABLE
  let (table, parser) ← require parser TOKEN_IDENTIFIER
  let (_, parser) ← require parser TOKEN_PUNC_OPEN_PAREN
  some (table, parser)

def parse_create (parser : Parser) : Alloc (Option (CreatePtr × Parser)) :=
  match create_table parser with
  | none => return none
  | some (table, parser) => do
      let (columns, next) ← comma_list parse_column_def add_column_def parser
      match next.bind close_list with
      | none => do
          free_column_defs columns
          return none
      | some (_, parser) => do
          let addr ← malloc CREATE_SIZE
          let table_name ← strdup table.lexeme
          return some (⟨addr, table_name, columns⟩, parser)

/-- `parse_begin` and `parse_commit`: a type behind the tokens of the statement. -/
def make_control (parsed : Option (ControlStatement × Parser)) :
    Alloc (Option (ControlPtr × Parser)) :=
  match parsed with
  | none => return none
  | some (stmt, parser) => do
      let addr ← malloc CONTROL_SIZE
      return some (⟨addr, stmt.type⟩, parser)

def parse_begin (parser : Parser) : Alloc (Option (ControlPtr × Parser)) :=
  make_control (Compiler.parse_begin parser)

def parse_commit (parser : Parser) : Alloc (Option (ControlPtr × Parser)) :=
  make_control (Compiler.parse_commit parser)

/-- The statement and the parser behind it. -/
def parse_statement (parser : Parser) : Alloc (Option (StatementPtr × Parser)) :=
  match peek parser with
  | none => return none
  | some token =>
      if token.type = TOKEN_KEYWORD_SELECT then
        return (← parse_select parser).map (Prod.map .select id)
      else if token.type = TOKEN_KEYWORD_INSERT then
        return (← parse_insert parser).map (Prod.map .insert id)
      else if token.type = TOKEN_KEYWORD_CREATE then
        return (← parse_create parser).map (Prod.map .create id)
      else if token.type = TOKEN_KEYWORD_BEGIN then
        return (← parse_begin parser).map (Prod.map .control id)
      else if token.type = TOKEN_KEYWORD_COMMIT then
        return (← parse_commit parser).map (Prod.map .control id)
      else return none

def parse_tokens_with_type (token_streams : List Token) : Alloc (Option StatementPtr) := do
  return (← parse_statement ⟨token_streams, 0⟩).map Prod.fst

/-! ## §5. Statements are freed. -/

def free_select_statement (stmt : SelectPtr) : Alloc Unit := do
  free_strings stmt.columns
  free (some stmt.table_name.addr)
  free (some stmt.addr)

def free_value : ValuePtr → Alloc Unit
  | .VALUE_TEXT text_value => free (some text_value.addr)
  | .VALUE_INTEGER _ => return

def free_values (values : CArray ValuePtr) : Alloc Unit := do
  values.elems.forM free_value
  free values.addr

def free_insert_statement (stmt : InsertPtr) : Alloc Unit := do
  free (some stmt.table_name.addr)
  free_strings stmt.columns
  free_values stmt.values
  free (some stmt.addr)

def free_create_statement (stmt : CreatePtr) : Alloc Unit := do
  free_column_defs stmt.columns
  free (some stmt.table_name.addr)
  free (some stmt.addr)

/-- The end of each branch of `parse_tokens`: the statement is freed when it was printed, which an
INSERT with lists of different lengths is not. -/
def free_reported : StatementPtr → Alloc Unit
  | .select stmt => free_select_statement stmt
  | .insert stmt =>
      if stmt.columns.elems.length ≠ stmt.values.elems.length then return
      else free_insert_statement stmt
  | .create stmt => free_create_statement stmt
  | .control stmt => free (some stmt.addr)

/-- The branches are those of `parse_tokens_with_type`; without a token, `token->type` is read
through a `NULL` pointer. -/
def parse_tokens (token_streams : List Token) : Alloc Unit :=
  match token_streams with
  | [] => fault
  | _ :: _ => do
      match ← parse_tokens_with_type token_streams with
      | none => return
      | some stmt => free_reported stmt

/-! ## §6. Programs. -/

/-- `sizeof(CompiledProgram)` and `sizeof(Instruction)` -/
abbrev PROGRAM_SIZE : Nat := 24

abbrev INSTRUCTION_SIZE : Nat := 24

structure ProgramPtr where
  addr : Nat
  instructions : Nat
  capacity : Nat
  /-- The opcodes and numbers are those of the program as a value. -/
  string_params : List (Option CString)

def ProgramPtr.own (p : ProgramPtr) : Multiset Cell :=
  {⟨p.addr, PROGRAM_SIZE⟩} + {⟨p.instructions, INSTRUCTION_SIZE * p.capacity⟩}
    + (p.string_params.map fun s => s.elim 0 CString.own).sum

/-- Without the two branches of a refused request. -/
def init_program : Alloc ProgramPtr := do
  let addr ← malloc PROGRAM_SIZE
  let instructions ← malloc (INSTRUCTION_SIZE * 16)
  return ⟨addr, instructions, 16, []⟩

/-- `if (program->count >= program->capacity) …`: the array is doubled when it is full; the exit
for a refused request is left out. -/
def ensure_capacity (program : ProgramPtr) : Alloc ProgramPtr :=
  if program.string_params.length ≥ program.capacity then do
    let instructions ←
      realloc (some program.instructions) (INSTRUCTION_SIZE * (program.capacity * 2))
    return { program with instructions := instructions, capacity := program.capacity * 2 }
  else return program

def copy_param : Option Text → Alloc (Option CString)
  | none => return none
  | some string_param => return some (← strdup string_param)

def emit_instruction (program : ProgramPtr) (string_param : Option Text) : Alloc ProgramPtr := do
  let program ← ensure_capacity program
  let string_param ← copy_param string_param
  return { program with string_params := program.string_params ++ [string_param] }

/-- The calls of `emit_instruction`, one for each instruction. -/
def emit_all (program : ProgramPtr) (instructions : List Instruction) : Alloc ProgramPtr :=
  instructions.foldlM (fun program inst => emit_instruction program inst.string_param) program

def free_program (program : ProgramPtr) : Alloc Unit := do
  program.string_params.forM fun s => free (s.map CString.addr)
  free (some program.instructions)
  free (some program.addr)

/-- No program is an INSERT that reads past its values, or a type without a case. -/
def generate_code (stmt : Statement) : Alloc (Option ProgramPtr) := do
  let program ← init_program
  match Compiler.generate_code stmt with
  | some instructions => return some (← emit_all program instructions)
  | none =>
      if stmt.stmt_type = .STMT_INSERT then fault
      else do
        free_program program
        return none

end PreSeQL.Compiler.Blocks
