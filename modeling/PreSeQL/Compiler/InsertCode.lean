/-
  PreSeQL.Compiler.InsertCode — what the program of an INSERT determines.

  The program keeps the table, and per column the index, the integer and one string:
  the column for an integer, the text for a text.  A text or the integer 0 can
  therefore come from another statement; a non-zero integer cannot.

  Before that, every value has to reach the program: the loop runs over the columns.

    • `insert_code_iff` — for which token lists all values are in the program,
    • `generate_insert_injective_iff` — which statements the program determines.
-/
import Mathlib.Algebra.Group.Nat.Defs
import PreSeQL.Compiler.Acceptance
import PreSeQL.Compiler.Generator

namespace PreSeQL.Compiler

open TokenType

/-- As many columns as values, and at least one. -/
structure InsertStatement.Matched (stmt : InsertStatement) : Prop where
  length_eq : stmt.columns.length = stmt.values.length
  ne_nil : stmt.values ≠ []

/-- The values whose column and type the program determines. -/
def Value.Determined : Value → Prop
  | .VALUE_INTEGER n => n ≠ 0
  | .VALUE_TEXT _ => False

/-! ## §1. One value. -/

/-- **A non-zero integer** fixes the column and the value. -/
theorem insert_instruction_eq {i : Nat} {column column' : Text} {value value' : Value}
    (h : value.Determined)
    (heq : insert_instruction i column' value' = insert_instruction i column value) :
    column' = column ∧ value' = value := by
  cases value with
  | VALUE_TEXT t => cases h
  | VALUE_INTEGER n =>
      cases value' with
      | VALUE_TEXT t =>
          -- a text has second parameter 0
          have hn : (0 : Int32) = n := congrArg Instruction.param2 heq
          exact absurd hn.symm h
      | VALUE_INTEGER n' =>
          have hn : n' = n := congrArg Instruction.param2 heq
          have hc : some column' = some column := congrArg Instruction.string_param heq
          exact ⟨Option.some.inj hc, congrArg Value.VALUE_INTEGER hn⟩

/-- Two texts that differ from each other. -/
def other_column (column : Text) : Text := 'a' :: column

theorem other_column_ne (column : Text) : other_column column ≠ column :=
  fun h => absurd (congrArg List.length h) (by simp [other_column])

/-- **Any other value** has an instruction that another column and value share. -/
theorem exists_insert_instruction_eq (i : Nat) (column : Text) {value : Value}
    (h : ¬ value.Determined) : ∃ (column' : Text) (value' : Value),
      insert_instruction i column' value' = insert_instruction i column value
      ∧ column' ≠ column := by
  cases value with
  -- the column of a text is not kept
  | VALUE_TEXT t => exact ⟨other_column column, .VALUE_TEXT t, rfl, other_column_ne column⟩
  | VALUE_INTEGER n =>
      -- the integer 0 in a column looks like the column's name as a text
      obtain rfl : n = 0 := not_not.mp h
      exact ⟨other_column column, .VALUE_TEXT column, rfl, other_column_ne column⟩

/-! ## §2. All values. -/

/-- The instructions of the columns paired with their values, from index `i` on. -/
def row_instructions : Nat → List (Text × Value) → CompiledProgram
  | _, [] => []
  | i, (column, value) :: rows => insert_instruction i column value :: row_instructions (i + 1) rows

theorem insert_instructions_eq : ∀ {columns : List Text} {values : List Value} (i : Nat),
    columns.length = values.length →
    insert_instructions i columns values = some (row_instructions i (columns.zip values))
  | [], [], _, _ => rfl
  | [], _ :: _, _, h => nomatch h
  | _ :: _, [], _, h => nomatch h
  | column :: columns, value :: values, i, h => by
      rw [insert_instructions, insert_instructions_eq (i + 1) (Nat.succ.inj h)]
      rfl

theorem row_instructions_append (rows rows' : List (Text × Value)) : ∀ i : Nat,
    row_instructions i (rows ++ rows')
      = row_instructions i rows ++ row_instructions (i + rows.length) rows' := by
  induction rows with
  | nil => intro i; rfl
  | cons row rows ih =>
      intro i
      rw [List.cons_append, row_instructions, row_instructions, ih, List.cons_append,
        List.length_cons, Nat.add_assoc, Nat.add_comm 1]

theorem row_instructions_inj {rows : List (Text × Value)} :
    ∀ {i : Nat} {rows' : List (Text × Value)}, (∀ row ∈ rows, row.2.Determined) →
    row_instructions i rows' = row_instructions i rows → rows' = rows := by
  induction rows with
  | nil =>
      intro i rows' _ heq
      cases rows' with
      | nil => rfl
      | cons row' rows' => cases heq
  | cons row rows ih =>
      intro i rows' hdet heq
      cases rows' with
      | nil => cases heq
      | cons row' rows' =>
          -- the first row is fixed by its instruction, the others by the rest
          obtain ⟨hhead, htail⟩ := List.cons.inj heq
          obtain ⟨hcol, hval⟩ := insert_instruction_eq (hdet row List.mem_cons_self) hhead
          rw [ih (fun r hr => hdet r (List.mem_cons_of_mem _ hr)) htail, Prod.ext hcol hval]

/-- The instructions around the rows: opening the table, and the commit. -/
theorem generate_insert_eq {stmt : InsertStatement} (h : stmt.Matched) :
    generate_insert stmt = some
      ([⟨.OP_BEGIN_TXN, 0, 0, none⟩, ⟨.OP_OPEN_TABLE, 0, 0, some stmt.table_name⟩]
        ++ row_instructions 0 (stmt.columns.zip stmt.values)
        ++ [⟨.OP_COMMIT, 0, 0, none⟩, ⟨.OP_HALT, 0, 0, none⟩]) := by
  rw [generate_insert, insert_instructions_eq 0 h.length_eq]
  rfl

/-- Equal programs have the same table and the same instructions per row. -/
theorem generate_insert_eq_iff {stmt stmt' : InsertStatement} (h : stmt.Matched)
    (h' : stmt'.Matched) :
    generate_insert stmt' = generate_insert stmt
      ↔ stmt'.table_name = stmt.table_name
        ∧ row_instructions 0 (stmt'.columns.zip stmt'.values)
          = row_instructions 0 (stmt.columns.zip stmt.values) := by
  rw [generate_insert_eq h, generate_insert_eq h', Option.some.injEq, List.append_cancel_right_eq]
  constructor
  · intro heq
    obtain ⟨htable, hrows⟩ := List.cons.inj (List.cons.inj heq).2
    exact ⟨Option.some.inj (congrArg Instruction.string_param htable), hrows⟩
  · rintro ⟨htable, hrows⟩
    rw [htable, hrows]

theorem zip_inj {columns columns' : List Text} {values values' : List Value}
    (h : columns.length = values.length) (h' : columns'.length = values'.length)
    (heq : columns'.zip values' = columns.zip values) : columns' = columns ∧ values' = values := by
  constructor
  · have hfst := congrArg (List.map Prod.fst) heq
    rwa [List.map_fst_zip (Nat.le_of_eq h'), List.map_fst_zip (Nat.le_of_eq h)] at hfst
  · have hsnd := congrArg (List.map Prod.snd) heq
    rwa [List.map_snd_zip (Nat.le_of_eq h'.symm), List.map_snd_zip (Nat.le_of_eq h.symm)] at hsnd

/-- The statement with the given rows. -/
def insert_of_rows (table_name : Text) (rows : List (Text × Value)) : InsertStatement :=
  ⟨rows.map Prod.fst, table_name, rows.map Prod.snd⟩

theorem zip_insert_of_rows (table_name : Text) (rows : List (Text × Value)) :
    (insert_of_rows table_name rows).columns.zip (insert_of_rows table_name rows).values = rows :=
  List.zip_map'.trans (List.map_id rows)

theorem matched_insert_of_rows (table_name : Text) (rows : List (Text × Value)) (h : rows ≠ []) :
    (insert_of_rows table_name rows).Matched :=
  ⟨by simp [insert_of_rows], by simpa [insert_of_rows] using h⟩

theorem insert_of_rows_zip {stmt : InsertStatement} (h : stmt.Matched) :
    insert_of_rows stmt.table_name (stmt.columns.zip stmt.values) = stmt := by
  rw [insert_of_rows, List.map_fst_zip (Nat.le_of_eq h.length_eq),
    List.map_snd_zip (Nat.le_of_eq h.length_eq.symm)]

/-- Replacing an undetermined row leaves the program as it is. -/
theorem exists_same_program (table_name : Text) (before after : List (Text × Value))
    (column : Text) {value : Value} (h : ¬ value.Determined) :
    ∃ stmt' : InsertStatement, stmt'.Matched
      ∧ generate_insert stmt'
        = generate_insert (insert_of_rows table_name (before ++ (column, value) :: after))
      ∧ stmt' ≠ insert_of_rows table_name (before ++ (column, value) :: after) := by
  obtain ⟨column', value', heq, hne⟩ :=
    exists_insert_instruction_eq (0 + before.length) column h
  have hm := matched_insert_of_rows table_name (before ++ (column, value) :: after) (by simp)
  have hm' := matched_insert_of_rows table_name (before ++ (column', value') :: after) (by simp)
  refine ⟨_, hm', (generate_insert_eq_iff hm hm').mpr ⟨rfl, ?_⟩, fun hsame => ?_⟩
  · rw [zip_insert_of_rows, zip_insert_of_rows, row_instructions_append, row_instructions_append,
      row_instructions, row_instructions, heq]
  · -- the two statements differ in the column of that row
    have hcols := congrArg InsertStatement.columns hsame
    simp only [insert_of_rows, List.map_append, List.map_cons] at hcols
    exact hne (List.cons.inj (List.append_cancel_left hcols)).1

/-- **An INSERT is determined by its program** exactly when its values are non-zero
integers. -/
theorem generate_insert_injective_iff (stmt : InsertStatement) (h : stmt.Matched) :
    (∀ stmt' : InsertStatement, stmt'.Matched →
        generate_code (.insert stmt') = generate_code (.insert stmt) → stmt' = stmt)
      ↔ ∀ value ∈ stmt.values, value.Determined := by
  constructor
  · intro hinj value hmem
    -- a value that is not determined has a row, and that row another statement
    by_contra hdet
    have hsnd := List.map_snd_zip (Nat.le_of_eq h.length_eq.symm)
    rw [← hsnd] at hmem
    obtain ⟨⟨column, value⟩, hrow, rfl⟩ := List.mem_map.mp hmem
    obtain ⟨before, after, hrows⟩ := List.append_of_mem hrow
    obtain ⟨stmt', hm', heq, hne⟩ :=
      exists_same_program stmt.table_name before after column hdet
    rw [← hrows, insert_of_rows_zip h] at heq hne
    exact hne (hinj stmt' hm' heq)
  · intro hdet stmt' h' heq
    -- row by row, every column and value is fixed
    obtain ⟨htable, hrows⟩ := (generate_insert_eq_iff h h').mp heq
    have hdet' : ∀ row ∈ stmt.columns.zip stmt.values, row.2.Determined :=
      fun row hrow => hdet _ (List.of_mem_zip hrow).2
    obtain ⟨hcols, hvals⟩ := zip_inj h.length_eq h'.length_eq (row_instructions_inj hdet' hrows)
    cases stmt
    cases stmt'
    simp only at htable hcols hvals
    rw [htable, hcols, hvals]

/-- `INSERT INTO t (a, b) VALUES (7, -1)` is determined. -/
theorem generate_insert_injective_t :
    (∀ stmt' : InsertStatement, stmt'.Matched →
        generate_code (.insert stmt')
          = generate_code (.insert ⟨[['a'], ['b']], ['t'], [.VALUE_INTEGER 7, .VALUE_INTEGER (-1)]⟩) →
        stmt' = ⟨[['a'], ['b']], ['t'], [.VALUE_INTEGER 7, .VALUE_INTEGER (-1)]⟩)
      ↔ ∀ value ∈ [Value.VALUE_INTEGER 7, Value.VALUE_INTEGER (-1)], value.Determined :=
  generate_insert_injective_iff _ ⟨rfl, by simp⟩

/-- Inserting the text `x` into column `a` or into column `b` is one program. -/
theorem generate_insert_loses_column :
    let stmt : InsertStatement := ⟨[['a']], ['t'], [.VALUE_TEXT ['x']]⟩
    let stmt' : InsertStatement := ⟨[['b']], ['t'], [.VALUE_TEXT ['x']]⟩
    stmt.Matched ∧ stmt'.Matched
    ∧ generate_code (.insert stmt') = generate_code (.insert stmt) ∧ stmt' ≠ stmt :=
  ⟨⟨rfl, by simp⟩, ⟨rfl, by simp⟩, rfl, by decide⟩

/-! ## §3. Which values reach the program. -/

/-- The instruction that inserts the value at index `i`. -/
structure Inserts (instruction : Instruction) (i : Nat) (value : Value) : Prop where
  opcode : instruction.opcode = .OP_INSERT
  index : instruction.param1.toInt = i
  content : match value with
    | .VALUE_INTEGER int_value => instruction.param2 = int_value
    | .VALUE_TEXT text_value => instruction.string_param = some text_value

/-- The program is generated within the bounds of the arrays, and has one OP_INSERT for each
value, in order. -/
def InsertsAll (stmt : InsertStatement) : Prop :=
  ∃ program, generate_code (.insert stmt) = some program
    ∧ (program.filter fun instruction => instruction.opcode = .OP_INSERT).length
      = stmt.values.length
    ∧ ∀ i value, stmt.values[i]? = some value →
        ∃ instruction, (program.filter fun instruction => instruction.opcode = .OP_INSERT)[i]?
          = some instruction ∧ Inserts instruction i value

theorem insert_instruction_opcode (i : Nat) (column : Text) (value : Value) :
    (insert_instruction i column value).opcode = .OP_INSERT := by
  cases value <;> rfl

/-- The loop emits one OP_INSERT for each column. -/
theorem insert_instructions_spec : ∀ {columns : List Text} {values : List Value} {i : Nat}
    {rows : CompiledProgram}, insert_instructions i columns values = some rows →
    rows.length = columns.length ∧ ∀ instruction ∈ rows, instruction.opcode = .OP_INSERT
  | [], _, _, _, h => by
      cases h
      exact ⟨rfl, fun _ hmem => nomatch hmem⟩
  | _ :: _, [], _, _, h => nomatch h
  | column :: columns, value :: values, i, rows, h => by
      rw [insert_instructions] at h
      obtain ⟨rest, hrest, rfl⟩ := Option.map_eq_some_iff.mp h
      obtain ⟨hlen, hall⟩ := insert_instructions_spec hrest
      constructor
      · rw [List.length_cons, List.length_cons, hlen]
      · intro instruction hmem
        rcases List.mem_cons.mp hmem with rfl | hmem
        · exact insert_instruction_opcode i column value
        · exact hall instruction hmem

/-- Its OP_INSERTs are those of the loop. -/
theorem generate_insert_filter {stmt : InsertStatement} {program : CompiledProgram}
    (h : generate_insert stmt = some program) :
    ∃ rows, insert_instructions 0 stmt.columns stmt.values = some rows
      ∧ (program.filter fun instruction => instruction.opcode = .OP_INSERT) = rows := by
  obtain ⟨rows, hrows, rfl⟩ := Option.map_eq_some_iff.mp h
  refine ⟨rows, hrows, ?_⟩
  have hall : rows.filter (fun instruction => instruction.opcode = .OP_INSERT) = rows := by
    rw [List.filter_eq_self]
    intro instruction hmem
    exact decide_eq_true ((insert_instructions_spec hrows).2 instruction hmem)
  rw [List.filter_append, List.filter_append, hall]
  simp

theorem getElem?_row_instructions (rows : List (Text × Value)) :
    ∀ i j : Nat, (row_instructions i rows)[j]?
      = rows[j]?.map fun row => insert_instruction (i + j) row.1 row.2 := by
  induction rows with
  | nil => intro i j; rfl
  | cons row rows ih =>
      intro i j
      cases j with
      | zero => rfl
      | succ j =>
          rw [row_instructions, List.getElem?_cons_succ, List.getElem?_cons_succ, ih]
          rw [Nat.add_assoc, Nat.add_comm 1]

theorem toInt_ofNat_iff (i : Nat) : (Int32.ofNat i).toInt = i ↔ i < 2 ^ 31 := by
  constructor
  · intro h
    have hlt := (Int32.ofNat i).toInt_lt
    omega
  · intro h
    exact Int32.toInt_ofNat_of_lt h

/-- The instruction at an index inserts its value as long as the index fits an `int`. -/
theorem inserts_iff (i : Nat) (column : Text) (value : Value) :
    Inserts (insert_instruction i column value) i value ↔ i < 2 ^ 31 := by
  rw [← toInt_ofNat_iff]
  constructor
  · intro h
    have hindex := h.index
    cases value <;> exact hindex
  · intro h
    cases value with
    | VALUE_TEXT text_value => exact ⟨rfl, h, rfl⟩
    | VALUE_INTEGER int_value => exact ⟨rfl, h, rfl⟩

/-- With a column for each value the OP_INSERTs are the rows. -/
theorem generate_insert_rows {stmt : InsertStatement}
    (hlen : stmt.columns.length = stmt.values.length) :
    ∃ program, generate_insert stmt = some program
      ∧ (program.filter fun instruction => instruction.opcode = .OP_INSERT)
        = row_instructions 0 (stmt.columns.zip stmt.values) := by
  have hprogram : (generate_insert stmt).isSome := by
    rw [generate_insert_isSome]
    exact Nat.le_of_eq hlen
  obtain ⟨program, hprogram⟩ := Option.isSome_iff_exists.mp hprogram
  obtain ⟨rows, hrows, hfilter⟩ := generate_insert_filter hprogram
  rw [insert_instructions_eq 0 hlen, Option.some.injEq] at hrows
  exact ⟨program, hprogram, hfilter.trans hrows.symm⟩

/-- The row of a value inserts it into some column. -/
theorem row_of_value {columns : List Text} {values : List Value} {i : Nat} {value : Value}
    (hlen : columns.length = values.length) (hvalue : values[i]? = some value) :
    ∃ column, (row_instructions 0 (columns.zip values))[i]?
      = some (insert_instruction i column value) := by
  obtain ⟨hi, rfl⟩ := List.getElem?_eq_some_iff.mp hvalue
  have hrow : i < (columns.zip values).length := by
    rw [List.length_zip, hlen, Nat.min_self]
    exact hi
  refine ⟨(columns.zip values)[i].1, ?_⟩
  rw [getElem?_row_instructions, List.getElem?_eq_getElem hrow, Nat.zero_add, Option.map_some]
  simp only [List.getElem_zip]

/-- **All values are in the program** exactly when each has a column, and the last index is an
`int`. -/
theorem insertsAll_iff (stmt : InsertStatement) :
    InsertsAll stmt ↔ stmt.columns.length = stmt.values.length ∧ stmt.values.length ≤ 2 ^ 31 := by
  constructor
  · intro h
    obtain ⟨program, hprogram, hcount, hall⟩ := h
    obtain ⟨rows, hrows, hfilter⟩ := generate_insert_filter hprogram
    rw [hfilter] at hcount hall
    have hlen : stmt.columns.length = stmt.values.length :=
      (insert_instructions_spec hrows).1.symm.trans hcount
    refine ⟨hlen, ?_⟩
    rw [insert_instructions_eq 0 hlen, Option.some.injEq] at hrows
    -- the index of the last value is the largest
    by_contra hlarge
    have hvalue : stmt.values[2 ^ 31]? = some stmt.values[2 ^ 31] := List.getElem?_eq_getElem _
    obtain ⟨column, hrow⟩ := row_of_value hlen hvalue
    obtain ⟨instruction, hget, hinserts⟩ := hall _ _ hvalue
    rw [← hrows, hrow] at hget
    obtain rfl := Option.some.inj hget
    rw [inserts_iff] at hinserts
    exact absurd hinserts (Nat.lt_irrefl _)
  · intro h
    obtain ⟨hlen, hsmall⟩ := h
    obtain ⟨program, hprogram, hfilter⟩ := generate_insert_rows hlen
    refine ⟨program, hprogram, ?_, ?_⟩
    · rw [hfilter, ← hlen]
      exact (insert_instructions_spec (insert_instructions_eq 0 hlen)).1
    · intro i value hvalue
      obtain ⟨column, hrow⟩ := row_of_value hlen hvalue
      obtain ⟨hi, -⟩ := List.getElem?_eq_some_iff.mp hvalue
      refine ⟨_, hfilter ▸ hrow, ?_⟩
      rw [inserts_iff]
      omega

/-- **Every inserted value reaches the program** exactly when the INSERT at the start of the
list gives each value a column, and at most 2^31 of them. -/
theorem insert_code_iff (tokens : List Token) :
    (∀ stmt, parse_tokens_with_type tokens = some (.insert stmt) → InsertsAll stmt)
      ↔ ∀ ts rest stmt, tokens = ts ++ rest → Sentence ts (.insert stmt) →
          stmt.columns.length = stmt.values.length ∧ stmt.values.length ≤ 2 ^ 31 := by
  constructor
  · intro h ts rest stmt htokens hsentence
    rw [← insertsAll_iff]
    exact h stmt (insert_accepted_iff.mpr ⟨ts, rest, htokens, hsentence⟩)
  · intro h stmt hparse
    obtain ⟨ts, rest, htokens, hsentence⟩ := insert_accepted_iff.mp hparse
    rw [insertsAll_iff]
    exact h ts rest stmt htokens hsentence

/-- The tokens of `INSERT INTO t … VALUES (…);` -/
def insert_tokens (columns values : List Token) : List Token :=
  [⟨TOKEN_KEYWORD_INSERT, "INSERT".toList, 1⟩, ⟨TOKEN_KEYWORD_INTO, "INTO".toList, 1⟩,
   ⟨TOKEN_IDENTIFIER, ['t'], 1⟩] ++ columns
    ++ [⟨TOKEN_KEYWORD_VALUES, "VALUES".toList, 1⟩, ⟨TOKEN_PUNC_OPEN_PAREN, ['('], 1⟩] ++ values
    ++ [⟨TOKEN_PUNC_CLOSE_PAREN, [')'], 1⟩, ⟨TOKEN_END_OF_LINE, [';'], 1⟩]

/-- `INSERT INTO t VALUES (7);` is compiled without its value, and `INSERT INTO t (a, b)
VALUES (7);` reads past its values. -/
theorem insert_values_lost :
    (∃ stmt, parse_tokens_with_type (insert_tokens [] [⟨TOKEN_INT_LITERAL, ['7'], 1⟩])
        = some (.insert stmt)
      ∧ generate_code (.insert stmt) = some [⟨.OP_BEGIN_TXN, 0, 0, none⟩,
        ⟨.OP_OPEN_TABLE, 0, 0, some ['t']⟩, ⟨.OP_COMMIT, 0, 0, none⟩, ⟨.OP_HALT, 0, 0, none⟩]
      ∧ ¬ InsertsAll stmt)
    ∧ ∃ stmt, parse_tokens_with_type (insert_tokens
          [⟨TOKEN_PUNC_OPEN_PAREN, ['('], 1⟩, ⟨TOKEN_IDENTIFIER, ['a'], 1⟩,
           ⟨TOKEN_PUNC_COMMA, [','], 1⟩, ⟨TOKEN_IDENTIFIER, ['b'], 1⟩,
           ⟨TOKEN_PUNC_CLOSE_PAREN, [')'], 1⟩] [⟨TOKEN_INT_LITERAL, ['7'], 1⟩])
        = some (.insert stmt)
      ∧ generate_code (.insert stmt) = none ∧ ¬ InsertsAll stmt := by
  refine ⟨⟨⟨[], ['t'], [.VALUE_INTEGER 7]⟩, rfl, rfl, ?_⟩,
    ⟨⟨[['a'], ['b']], ['t'], [.VALUE_INTEGER 7]⟩, rfl, rfl, ?_⟩⟩
  all_goals
    rw [insertsAll_iff]
    decide

end PreSeQL.Compiler
