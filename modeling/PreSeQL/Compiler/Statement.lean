/-
  PreSeQL.Compiler.Statement — parsed statements (`parser.h`).

  A C string is the list of its characters; an array with its count is a list.  The
  tagged union of a value is an inductive type.
-/
import Mathlib.Tactic.Common

namespace PreSeQL.Compiler

/-- The characters of a C string. -/
abbrev Text := List Char

inductive Value where
  | VALUE_TEXT (text_value : Text)
  | VALUE_INTEGER (int_value : Int32)
  deriving DecidableEq

inductive ColumnType where
  | COLTYPE_INT | COLTYPE_VARCHAR
  deriving DecidableEq

structure ColumnDef where
  name : Text
  type : ColumnType
  type_length : Int32
  deriving DecidableEq

inductive StatementType where
  | STMT_NONE | STMT_SELECT | STMT_CREATE | STMT_INSERT | STMT_BEGIN | STMT_COMMIT
  | STMT_ROLLBACK
  deriving DecidableEq

structure SelectStatement where
  columns : List Text
  table_name : Text
  deriving DecidableEq

structure InsertStatement where
  columns : List Text
  table_name : Text
  values : List Value
  deriving DecidableEq

structure CreateStatement where
  table_name : Text
  columns : List ColumnDef
  deriving DecidableEq

structure ControlStatement where
  type : StatementType
  deriving DecidableEq

/-- A statement behind the `void *` of `parse_tokens_with_type` and `generate_code`. -/
inductive Statement where
  | select (stmt : SelectStatement)
  | create (stmt : CreateStatement)
  | insert (stmt : InsertStatement)
  | control (stmt : ControlStatement)
  deriving DecidableEq

/-- The type number that goes with the pointer. -/
def Statement.stmt_type : Statement → StatementType
  | select _ => .STMT_SELECT
  | create _ => .STMT_CREATE
  | insert _ => .STMT_INSERT
  | control stmt => stmt.type

end PreSeQL.Compiler
