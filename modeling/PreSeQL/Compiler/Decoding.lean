/-
  PreSeQL.Compiler.Decoding — the statements back from their programs.

  A SELECT and a CREATE list their columns as a run of one opcode, so the run can be cut
  off and each instruction read back; the control statements are their first opcode.
  INSERT is apart: its programs do not determine it.

    • `decode_generate_code` — every other statement is read back from its program,
    • `program_determines_statement` — no two accepted ones share a program.
-/
import PreSeQL.Compiler.Grammar
import PreSeQL.Compiler.Generator

namespace PreSeQL.Compiler

/-! ## §1. The decoder. -/

/-- The instruction for all columns has no string. -/
def decode_search (i : Instruction) : Text := i.string_param.getD ['*']

def decode_schema (i : Instruction) : ColumnDef :=
  ⟨i.string_param.getD [], if i.param1 = 1 then .COLTYPE_INT else .COLTYPE_VARCHAR, i.param2⟩

/-- The instructions at the front with the given opcode. -/
def run_of (opcode : PSqlOpcode) (program : CompiledProgram) : CompiledProgram :=
  program.takeWhile fun i => i.opcode = opcode

/-- The statement with this program. -/
def decode : CompiledProgram → Option Statement
  | ⟨.OP_OPEN_TABLE, _, _, some table_name⟩ :: rest =>
      some (.select ⟨(run_of .OP_SEARCH rest).map decode_search, table_name⟩)
  | ⟨.OP_CREATE_TABLE, _, _, some table_name⟩ :: rest =>
      some (.create ⟨table_name, (run_of .OP_DEFINE_SCHEMA rest).map decode_schema⟩)
  | [⟨.OP_BEGIN_TXN, _, _, _⟩, _] => some (.control ⟨.STMT_BEGIN⟩)
  | [⟨.OP_COMMIT, _, _, _⟩, _] => some (.control ⟨.STMT_COMMIT⟩)
  | [⟨.OP_ROLLBACK, _, _, _⟩, _] => some (.control ⟨.STMT_ROLLBACK⟩)
  | _ => none

/-! ## §2. What it reads back. -/

/-- A run ends where another opcode stands. -/
theorem run_of_append {opcode : PSqlOpcode} {run rest : CompiledProgram} {last : Instruction}
    (hrun : ∀ i ∈ run, i.opcode = opcode) (hlast : last.opcode ≠ opcode) :
    run_of opcode (run ++ last :: rest) = run := by
  unfold run_of
  rw [List.takeWhile_append_of_pos (fun i hi => decide_eq_true (hrun i hi)),
    List.takeWhile_cons_of_neg (by simpa using hlast), List.append_nil]

theorem search_instruction_opcode (i : Nat) (column : Text) :
    (search_instruction i column).opcode = .OP_SEARCH := by
  unfold search_instruction
  split <;> rfl

theorem decode_search_instruction (i : Nat) (column : Text) :
    decode_search (search_instruction i column) = column := by
  unfold search_instruction
  split
  next h => exact h.symm
  next => rfl

theorem decode_schema_instruction (column : ColumnDef) :
    decode_schema (schema_instruction column) = column := by
  cases column with
  | mk name type type_length => cases type <;> rfl

theorem decode_searches (columns : List Text) :
    (columns.mapIdx search_instruction).map decode_search = columns := by
  apply List.ext_getElem
  · rw [List.length_map, List.length_mapIdx]
  · intro i _ _
    rw [List.getElem_map, List.getElem_mapIdx]
    exact decode_search_instruction i _

theorem decode_schemas (columns : List ColumnDef) :
    (columns.map schema_instruction).map decode_schema = columns := by
  rw [List.map_map]
  exact List.map_id'' decode_schema_instruction columns

theorem decode_generate_select (stmt : SelectStatement) :
    decode (generate_select stmt) = some (.select stmt) := by
  have hrun : ∀ i ∈ stmt.columns.mapIdx search_instruction, i.opcode = .OP_SEARCH := by
    intro i hi
    obtain ⟨n, hn, rfl⟩ := List.mem_mapIdx.mp hi
    exact search_instruction_opcode n _
  show some (Statement.select ⟨(run_of .OP_SEARCH (stmt.columns.mapIdx search_instruction
    ++ [⟨.OP_RETURN_ROW, 0, 0, none⟩, ⟨.OP_HALT, 0, 0, none⟩])).map decode_search,
    stmt.table_name⟩) = _
  rw [run_of_append hrun (by decide), decode_searches]

theorem decode_generate_create (stmt : CreateStatement) :
    decode (generate_create stmt) = some (.create stmt) := by
  have hrun : ∀ i ∈ stmt.columns.map schema_instruction, i.opcode = .OP_DEFINE_SCHEMA := by
    intro i hi
    obtain ⟨column, -, rfl⟩ := List.mem_map.mp hi
    rfl
  show some (Statement.create ⟨stmt.table_name, (run_of .OP_DEFINE_SCHEMA
    (stmt.columns.map schema_instruction
      ++ [⟨.OP_COMMIT, 0, 0, none⟩, ⟨.OP_HALT, 0, 0, none⟩])).map decode_schema⟩) = _
  rw [run_of_append hrun (by decide), decode_schemas]

/-- **A program other than an INSERT's** gives back its statement. -/
theorem decode_generate_code {stmt : Statement} {program : CompiledProgram}
    (hinsert : stmt.stmt_type ≠ .STMT_INSERT) (h : generate_code stmt = some program) :
    decode program = some stmt := by
  cases stmt with
  | select stmt =>
      obtain rfl := Option.some.inj h
      exact decode_generate_select stmt
  | create stmt =>
      obtain rfl := Option.some.inj h
      exact decode_generate_create stmt
  | insert stmt => exact absurd rfl hinsert
  | control stmt =>
      obtain ⟨type⟩ := stmt
      cases type with
      | STMT_BEGIN | STMT_COMMIT | STMT_ROLLBACK =>
          obtain rfl := Option.some.inj h
          rfl
      | STMT_NONE | STMT_SELECT | STMT_CREATE | STMT_INSERT => cases h

/-! ## §3. Accepted statements. -/

/-- An INSERT has no more columns than values. -/
def Covered : Statement → Prop
  | .insert stmt => stmt.columns.length ≤ stmt.values.length
  | _ => True

/-- What the grammar prints has a program, INSERT apart. -/
theorem Body.generates {ts : List Token} {stmt : Statement} (h : Body ts stmt)
    (hinsert : stmt.stmt_type ≠ .STMT_INSERT) : ∃ program, generate_code stmt = some program := by
  cases h with
  | select_all | select | create | begin_transaction | commit => exact ⟨_, rfl⟩
  | insert => exact absurd rfl hinsert

/-- A sentence has a program, if every column has a value. -/
theorem Sentence.generates_iff {ts : List Token} {stmt : Statement} (h : Sentence ts stmt) :
    (∃ program, generate_code stmt = some program) ↔ Covered stmt := by
  cases stmt with
  | insert stmt =>
      show _ ↔ stmt.columns.length ≤ stmt.values.length
      rw [← generate_insert_isSome]
      exact Option.isSome_iff_exists.symm
  | select _ | create _ | control _ =>
      cases h with
      | ends semicolon hbody =>
          refine iff_of_true (hbody.generates ?_) trivial
          cases hbody <;> exact StatementType.noConfusion

theorem accepted_generates {tokens : List Token} {stmt : Statement}
    (h : parse_tokens_with_type tokens = some stmt) (hinsert : stmt.stmt_type ≠ .STMT_INSERT) :
    ∃ program, generate_code stmt = some program := by
  obtain ⟨⟨_, parser'⟩, hparse, rfl⟩ := Option.map_eq_some_iff.mp h
  rcases parse_statement_sound hparse with ⟨ts, hsentence, -⟩ | ⟨ts, select, p, hbody, rfl, -, -⟩
  · cases hsentence with
    | ends semicolon hbody => exact hbody.generates hinsert
  · exact hbody.generates hinsert

/-- **No two statements share a program**: of the accepted statements other than INSERTs each
has a program, from which the decoder reads it back. -/
theorem program_determines_statement {tokens tokens' : List Token} {stmt stmt' : Statement}
    (h : parse_tokens_with_type tokens = some stmt)
    (h' : parse_tokens_with_type tokens' = some stmt')
    (hinsert : stmt.stmt_type ≠ .STMT_INSERT) (hinsert' : stmt'.stmt_type ≠ .STMT_INSERT) :
    ∃ program program', generate_code stmt = some program ∧ generate_code stmt' = some program'
      ∧ decode program = some stmt ∧ (program = program' → stmt = stmt') := by
  obtain ⟨program, hprogram⟩ := accepted_generates h hinsert
  obtain ⟨program', hprogram'⟩ := accepted_generates h' hinsert'
  have hdecode := decode_generate_code hinsert hprogram
  have hdecode' := decode_generate_code hinsert' hprogram'
  refine ⟨program, program', hprogram, hprogram', hdecode, ?_⟩
  intro heq
  rw [heq, hdecode'] at hdecode
  exact (Option.some.inj hdecode).symm

/-- `SELECT * FROM t;` and `COMMIT;` -/
theorem program_determines_statement_kinds :
    ∃ program program', generate_code (.select ⟨[['*']], ['t']⟩) = some program
      ∧ generate_code (.control ⟨.STMT_COMMIT⟩) = some program'
      ∧ decode program = some (.select ⟨[['*']], ['t']⟩)
      ∧ (program = program' →
          Statement.select ⟨[['*']], ['t']⟩ = .control ⟨.STMT_COMMIT⟩) := by
  have hselect : parse_tokens_with_type (select_from [⟨.TOKEN_END_OF_LINE, [';'], 1⟩])
      = some (.select ⟨[['*']], ['t']⟩) := rfl
  have hcommit : parse_tokens_with_type
      [⟨.TOKEN_KEYWORD_COMMIT, "COMMIT".toList, 1⟩, ⟨.TOKEN_END_OF_LINE, [';'], 1⟩]
      = some (.control ⟨.STMT_COMMIT⟩) := rfl
  exact program_determines_statement hselect hcommit (by decide) (by decide)

end PreSeQL.Compiler
