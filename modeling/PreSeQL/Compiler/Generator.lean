/-
  PreSeQL.Compiler.Generator — code generation (`generator.c`).

  A program is the list of its instructions, in the order of the calls of
  `emit_instruction`.  `generate_insert` indexes the values by the columns; where it
  reads past the values there is no program.
-/
import PreSeQL.Compiler.Statement

namespace PreSeQL.Compiler

/-! ## §1. Instructions. -/

inductive PSqlOpcode where
  | OP_NOP | OP_CREATE_TABLE | OP_OPEN_TABLE | OP_DEFINE_SCHEMA | OP_DROP_TABLE
  | OP_INSERT | OP_SEARCH | OP_DELETE | OP_UPDATE | OP_DELETE_ROW
  | OP_RETURN_ROW | OP_COMPARE | OP_JUMP_IF_FALSE | OP_HALT
  | OP_BEGIN_TXN | OP_COMMIT | OP_ROLLBACK
  | OP_OUTER_JOIN | OP_INNER_JOIN | OP_SORT | OP_SWAP_ROWS
  | OP_GET_SCHEMA | OP_GET_LOGS | OP_GET_BTREEINFO | OP_GET_DBPAGE | OP_GET_MEMSET
  deriving DecidableEq

structure Instruction where
  opcode : PSqlOpcode
  param1 : Int32
  param2 : Int32
  string_param : Option Text
  deriving DecidableEq

abbrev CompiledProgram := List Instruction

/-! ## §2. Statements. -/

/-- `strcmp(column, "*") == 0` asks for all columns. -/
def search_instruction (i : Nat) (column : Text) : Instruction :=
  if column = ['*'] then ⟨.OP_SEARCH, -1, 0, none⟩
  else ⟨.OP_SEARCH, Int32.ofNat i, 0, some column⟩

def generate_select (stmt : SelectStatement) : CompiledProgram :=
  [⟨.OP_OPEN_TABLE, 0, 0, some stmt.table_name⟩]
    ++ stmt.columns.mapIdx search_instruction
    ++ [⟨.OP_RETURN_ROW, 0, 0, none⟩, ⟨.OP_HALT, 0, 0, none⟩]

def generate_control (stmt : ControlStatement) : CompiledProgram :=
  -- the other types emit nothing in front of the halt
  (match stmt.type with
    | .STMT_BEGIN => [⟨.OP_BEGIN_TXN, 0, 0, none⟩]
    | .STMT_COMMIT => [⟨.OP_COMMIT, 0, 0, none⟩]
    | .STMT_ROLLBACK => [⟨.OP_ROLLBACK, 0, 0, none⟩]
    | _ => [])
    ++ [⟨.OP_HALT, 0, 0, none⟩]

/-- The instruction for the value and the column at index `i`. -/
def insert_instruction (i : Nat) (column : Text) : Value → Instruction
  | .VALUE_INTEGER int_value => ⟨.OP_INSERT, Int32.ofNat i, int_value, some column⟩
  | .VALUE_TEXT text_value => ⟨.OP_INSERT, Int32.ofNat i, 0, some text_value⟩

/-- The loop of `generate_insert`, from index `i` on; a column without a value makes it
read past the array. -/
def insert_instructions : Nat → List Text → List Value → Option CompiledProgram
  | _, [], _ => some []
  | _, _ :: _, [] => none
  | i, column :: columns, value :: values =>
      (insert_instructions (i + 1) columns values).map
        (insert_instruction i column value :: ·)

def generate_insert (stmt : InsertStatement) : Option CompiledProgram :=
  (insert_instructions 0 stmt.columns stmt.values).map fun rows =>
    [⟨.OP_BEGIN_TXN, 0, 0, none⟩, ⟨.OP_OPEN_TABLE, 0, 0, some stmt.table_name⟩]
      ++ rows
      ++ [⟨.OP_COMMIT, 0, 0, none⟩, ⟨.OP_HALT, 0, 0, none⟩]

def schema_instruction (column : ColumnDef) : Instruction :=
  ⟨.OP_DEFINE_SCHEMA, if column.type = .COLTYPE_INT then 1 else 2, column.type_length,
    some column.name⟩

def generate_create (stmt : CreateStatement) : CompiledProgram :=
  [⟨.OP_CREATE_TABLE, 0, 0, some stmt.table_name⟩]
    ++ stmt.columns.map schema_instruction
    ++ [⟨.OP_COMMIT, 0, 0, none⟩, ⟨.OP_HALT, 0, 0, none⟩]

/-- The program of a statement, if it is generated within the bounds of its arrays; the
types without a case have no program. -/
def generate_code : Statement → Option CompiledProgram
  | .select stmt => some (generate_select stmt)
  | .insert stmt => generate_insert stmt
  | .create stmt => some (generate_create stmt)
  | .control stmt =>
      match stmt.type with
      | .STMT_BEGIN | .STMT_COMMIT | .STMT_ROLLBACK => some (generate_control stmt)
      | _ => none

/-! ## §3. Which programs exist. -/

theorem insert_instructions_isSome (columns : List Text) : ∀ (i : Nat) (values : List Value),
    (insert_instructions i columns values).isSome ↔ columns.length ≤ values.length := by
  induction columns with
  | nil => intro i values; simp [insert_instructions]
  | cons column columns ih =>
      intro i values
      cases values with
      | nil => simp [insert_instructions]
      | cons value values =>
          rw [insert_instructions, Option.isSome_map, ih]
          simp

/-- An INSERT has a program exactly when every column has a value. -/
theorem generate_insert_isSome (stmt : InsertStatement) :
    (generate_insert stmt).isSome ↔ stmt.columns.length ≤ stmt.values.length := by
  rw [generate_insert, Option.isSome_map, insert_instructions_isSome]

end PreSeQL.Compiler
