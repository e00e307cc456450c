/-
  PreSeQL.Compiler.Transactions — the transaction brackets of generated programs.

  A script runs the programs of its statements one after another.  A monitor follows
  `OP_BEGIN_TXN` and `OP_COMMIT`: an opening while open, a commit while closed, and a
  commit of a transaction the script opened by anything but the script's COMMIT are
  violations.  §2 is the effect of one statement's program on the monitor, §3 the law
  for scripts.
-/
import PreSeQL.Compiler.Generator

namespace PreSeQL.Compiler

/-! ## §1. Scripts and the monitor. -/

/-- The script's own BEGIN and COMMIT. -/
def Statement.isControl : Statement → Bool
  | control _ => true
  | select _ | create _ | insert _ => false

/-- The instructions of a script in order, each with the mark whether it comes from the
script's own BEGIN or COMMIT. -/
def script_code : List Statement → Option (List (Bool × Instruction))
  | [] => some []
  | stmt :: script =>
      match generate_code stmt, script_code script with
      | some program, some code => some (program.map (Prod.mk stmt.isControl) ++ code)
      | _, _ => none

inductive TxnState where
  | closed
  /-- Open; whether the script itself opened it. -/
  | opened (byScript : Bool)
  deriving DecidableEq

/-- The state after an instruction, none after a violation. -/
def TxnState.step : TxnState → Bool × Instruction → Option TxnState
  | state, (own, instr) =>
      match instr.opcode, state with
      | .OP_BEGIN_TXN, .closed => some (.opened own)
      | .OP_BEGIN_TXN, .opened _ => none
      | .OP_COMMIT, .closed => none
      | .OP_COMMIT, .opened byScript => if byScript && !own then none else some .closed
      | _, state => some state

/-- No instruction violates the brackets. -/
def Balanced (state : TxnState) (code : List (Bool × Instruction)) : Prop :=
  (code.foldlM TxnState.step state).isSome

/-- BEGIN and COMMIT are paired and not nested; `inside` is whether a BEGIN is open. -/
def Paired : Bool → List Statement → Prop
  | inside, [] => inside = false
  | inside, stmt :: script =>
      match stmt.stmt_type with
      | .STMT_BEGIN => inside = false ∧ Paired true script
      | .STMT_COMMIT => inside = true ∧ Paired false script
      | .STMT_SELECT | .STMT_CREATE | .STMT_INSERT => Paired inside script
      | _ => False

/-- No CREATE, and no INSERT between BEGIN and COMMIT. -/
def Plain : Bool → List Statement → Prop
  | _, [] => True
  | inside, stmt :: script =>
      match stmt.stmt_type with
      | .STMT_BEGIN => Plain true script
      | .STMT_COMMIT => Plain false script
      | .STMT_CREATE => False
      | .STMT_INSERT => inside = false ∧ Plain inside script
      | _ => Plain inside script

/-- The monitor's state when a paired script is inside or outside its transaction. -/
def TxnState.ofInside : Bool → TxnState
  | false => .closed
  | true => .opened true

/-! ## §2. The program of one statement. -/

/-- Neither opens nor commits a transaction. -/
def Instruction.Inert (instr : Instruction) : Prop :=
  instr.opcode ≠ .OP_BEGIN_TXN ∧ instr.opcode ≠ .OP_COMMIT

theorem TxnState.step_inert (state : TxnState) (own : Bool) {instr : Instruction}
    (h : instr.Inert) : state.step (own, instr) = some state := by
  obtain ⟨hbegin, hcommit⟩ := h
  -- the step looks at the opcode only
  simp only [TxnState.step]
  split
  next heq => exact absurd heq hbegin
  next heq => exact absurd heq hbegin
  next heq => exact absurd heq hcommit
  next heq => exact absurd heq hcommit
  next => rfl

theorem foldlM_inert (own : Bool) {program : CompiledProgram} (state : TxnState)
    (h : ∀ instr ∈ program, instr.Inert) :
    (program.map (Prod.mk own)).foldlM TxnState.step state = some state := by
  induction program with
  | nil => rfl
  | cons instr program ih =>
      rw [List.map_cons, List.foldlM_cons, state.step_inert own (h instr List.mem_cons_self)]
      exact ih fun i hi => h i (List.mem_cons_of_mem _ hi)

/-- Inert instructions in the middle of a program can be left out. -/
theorem foldlM_middle (own : Bool) (state : TxnState) (first last : CompiledProgram)
    {middle : CompiledProgram} (h : ∀ instr ∈ middle, instr.Inert) :
    ((first ++ middle ++ last).map (Prod.mk own)).foldlM TxnState.step state
      = ((first ++ last).map (Prod.mk own)).foldlM TxnState.step state := by
  simp only [List.map_append, List.foldlM_append, Option.bind_eq_bind, Option.bind_assoc,
    foldlM_inert own _ h, Option.bind_some]

theorem inert_generate_select (stmt : SelectStatement) :
    ∀ instr ∈ generate_select stmt, instr.Inert := by
  intro instr hmem
  simp only [generate_select, List.mem_append, List.mem_mapIdx, List.mem_cons, List.not_mem_nil,
    or_false] at hmem
  rcases hmem with (rfl | ⟨i, hi, rfl⟩) | rfl | rfl
  · simp [Instruction.Inert]
  · unfold search_instruction
    split <;> simp [Instruction.Inert]
  · simp [Instruction.Inert]
  · simp [Instruction.Inert]

theorem inert_insert_instructions {columns : List Text} : ∀ {i : Nat} {values : List Value}
    {rows : CompiledProgram}, insert_instructions i columns values = some rows →
    ∀ instr ∈ rows, instr.Inert := by
  induction columns with
  | nil =>
      intro i values rows h
      cases h
      simp
  | cons column columns ih =>
      intro i values rows h instr hmem
      cases values with
      | nil => cases h
      | cons value values =>
          rw [insert_instructions, Option.map_eq_some_iff] at h
          obtain ⟨rest, hrest, rfl⟩ := h
          rcases List.mem_cons.mp hmem with rfl | hmem
          · cases value <;> simp [insert_instruction, Instruction.Inert]
          · exact ih hrest instr hmem

theorem inert_schema_instructions (columns : List ColumnDef) :
    ∀ instr ∈ columns.map schema_instruction, instr.Inert := by
  intro instr hmem
  obtain ⟨column, _, rfl⟩ := List.mem_map.mp hmem
  simp [schema_instruction, Instruction.Inert]

/-- SELECT leaves the brackets alone. -/
theorem foldlM_select (stmt : SelectStatement) (state : TxnState) :
    ((generate_select stmt).map (Prod.mk false)).foldlM TxnState.step state = some state :=
  foldlM_inert false state (inert_generate_select stmt)

/-- CREATE commits: a violation outside of a transaction, and inside the script's own. -/
theorem foldlM_create (stmt : CreateStatement) (inside : Bool) :
    ((generate_create stmt).map (Prod.mk false)).foldlM TxnState.step (.ofInside inside) = none := by
  rw [generate_create, foldlM_middle false _ _ _ (inert_schema_instructions stmt.columns)]
  cases inside <;> rfl

/-- INSERT opens and commits a transaction of its own: a violation inside a transaction. -/
theorem foldlM_insert {stmt : InsertStatement} {program : CompiledProgram}
    (h : generate_insert stmt = some program) (inside : Bool) :
    (program.map (Prod.mk false)).foldlM TxnState.step (.ofInside inside)
      = if inside then none else some .closed := by
  rw [generate_insert, Option.map_eq_some_iff] at h
  obtain ⟨rows, hrows, rfl⟩ := h
  rw [foldlM_middle false _ _ _ (inert_insert_instructions hrows)]
  cases inside <;> rfl

/-! ## §3. Scripts. -/

theorem balanced_append {state state' : TxnState} {code code' : List (Bool × Instruction)}
    (h : code.foldlM TxnState.step state = some state') :
    Balanced state (code ++ code') ↔ Balanced state' code' := by
  rw [Balanced, Balanced, List.foldlM_append, h]
  rfl

theorem not_balanced_append {state : TxnState} {code code' : List (Bool × Instruction)}
    (h : code.foldlM TxnState.step state = none) : ¬ Balanced state (code ++ code') := by
  rw [Balanced, List.foldlM_append, h]
  exact Bool.false_ne_true

theorem script_code_cons {stmt : Statement} {script : List Statement}
    {code : List (Bool × Instruction)} (h : script_code (stmt :: script) = some code) :
    ∃ program rest, generate_code stmt = some program ∧ script_code script = some rest
      ∧ code = program.map (Prod.mk stmt.isControl) ++ rest := by
  rw [script_code] at h
  split at h
  next program rest hp hr => exact ⟨program, rest, hp, hr, (Option.some.inj h).symm⟩
  next => cases h

/-- **Scripts**, from inside or outside a transaction. -/
theorem balanced_iff_plain (script : List Statement) : ∀ (inside : Bool)
    (code : List (Bool × Instruction)), Paired inside script → script_code script = some code →
    (Balanced (.ofInside inside) code ↔ Plain inside script) := by
  induction script with
  | nil =>
      intro inside code _ hcode
      cases hcode
      exact iff_of_true rfl trivial
  | cons stmt script ih =>
      intro inside code hpaired hcode
      obtain ⟨program, rest, hprogram, hrest, rfl⟩ := script_code_cons hcode
      cases stmt with
      | select stmt =>
          cases hprogram
          rw [Statement.isControl, balanced_append (foldlM_select stmt _)]
          exact ih inside rest hpaired hrest
      | create stmt =>
          cases hprogram
          -- its commit violates the brackets in either state
          exact iff_of_false (not_balanced_append (foldlM_create stmt inside)) id
      | insert stmt =>
          have hfold := foldlM_insert hprogram inside
          cases inside with
          -- inside a transaction its own opening violates them
          | true => exact iff_of_false (not_balanced_append hfold) fun h => nomatch h.1
          | false =>
              -- outside of one it ends where it started
              rw [Statement.isControl, balanced_append hfold]
              exact (ih false rest hpaired hrest).trans (and_iff_right rfl).symm
      | control stmt =>
          obtain ⟨type⟩ := stmt
          cases type with
          | STMT_BEGIN =>
              obtain ⟨rfl, hpaired⟩ := hpaired
              cases hprogram
              exact ih true rest hpaired hrest
          | STMT_COMMIT =>
              obtain ⟨rfl, hpaired⟩ := hpaired
              cases hprogram
              exact ih false rest hpaired hrest
          -- not a statement of these scripts
          | STMT_ROLLBACK => exact absurd hpaired id
          | _ => cases hprogram

/-- **Brackets are balanced** exactly in the scripts without CREATE and without an INSERT
between BEGIN and COMMIT. -/
theorem script_balanced_iff (script : List Statement) (code : List (Bool × Instruction))
    (hpaired : Paired false script) (hcode : script_code script = some code) :
    Balanced .closed code ↔ Plain false script :=
  balanced_iff_plain script false code hpaired hcode

/-- A SELECT between BEGIN and COMMIT, then an INSERT. -/
theorem script_balanced_select_insert :
    let script : List Statement := [.control ⟨.STMT_BEGIN⟩, .select ⟨[['*']], ['t']⟩,
      .control ⟨.STMT_COMMIT⟩, .insert ⟨[['a']], ['t'], [.VALUE_INTEGER 1]⟩]
    Balanced .closed ((script_code script).getD []) ↔ Plain false script :=
  script_balanced_iff _ _ ⟨rfl, rfl, rfl⟩ rfl

/-- Two scripts that break the brackets: a CREATE alone commits while no transaction is
open, and an INSERT between BEGIN and COMMIT opens one while one is. -/
theorem script_not_balanced :
    let script₁ : List Statement := [.create ⟨['t'], [⟨['a'], .COLTYPE_INT, -1⟩]⟩]
    let script₂ : List Statement := [.control ⟨.STMT_BEGIN⟩,
      .insert ⟨[['a']], ['t'], [.VALUE_INTEGER 1]⟩, .control ⟨.STMT_COMMIT⟩]
    Paired false script₁ ∧ Paired false script₂
    ∧ (∃ code, script_code script₁ = some code ∧ ¬ Balanced .closed code)
    ∧ (∃ code, script_code script₂ = some code ∧ ¬ Balanced .closed code) :=
  ⟨rfl, ⟨rfl, rfl, rfl⟩, ⟨_, rfl, Bool.false_ne_true⟩, ⟨_, rfl, Bool.false_ne_true⟩⟩

end PreSeQL.Compiler
