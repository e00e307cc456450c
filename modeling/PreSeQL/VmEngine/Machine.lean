/-
  PreSeQL.VmEngine.Machine — the virtual machine (`vm_engine/vm_interface.c`).

  A call of `psql_step` executes the instruction at the program counter.  It has no
  result where it reads outside an array or counts past the largest `int`.

    • `psql_step_spec` — what one call does,
    • `psql_step_isSome_iff` — when it stays inside the arrays,
    • `Running.call` — in front of the first `OP_HALT` the counter stays in the program,
    • `stops_at_halt_iff` — which runs stop at `OP_HALT`.
-/
import PreSeQL.Compiler.Generator
import PreSeQL.Lib.Run
import PreSeQL.Status

namespace PreSeQL.VmEngine

open PreSeQL.Compiler PreSeQL.Lib.Run

/-! ## §1. Programs and statements. -/

def MAX_OPCODES : UInt32 := 50

/-- The value of an enumerator; an `opcode` may hold others. -/
def code (opcode : PSqlOpcode) : UInt32 := UInt32.ofNat opcode.ctorIdx

structure PSqlInstruction where
  opcode : UInt32
  a : Int32
  b : Int32
  c : Int32
  deriving DecidableEq

abbrev PSqlRegister := Int32

/-- The fields that a step reads or writes. -/
structure PSqlStatement where
  program : List PSqlInstruction
  pc : Int32
  registers : List PSqlRegister
  result_code : UInt32
  error_msg : Option String
  deriving DecidableEq

/-- `xs[i]` for an `int` index; nothing outside the array. -/
def at_index {α : Type} (xs : List α) (i : Int32) : Option α :=
  if i < 0 then none else xs[i.toNatClampNeg]?

/-! ## §2. The operations. -/

/-- An operation leaves a statement and prints a line. -/
abbrev PSqlOpFunc := PSqlStatement → Int32 → Int32 → Int32 → Option (PSqlStatement × String)

/-- Most operations print and no more. -/
def print_only (line : Int32 → Int32 → Int32 → String) : PSqlOpFunc :=
  fun vm a b c => some (vm, line a b c)

def psql_op_open_table : PSqlOpFunc :=
  print_only fun a b _ => s!"Open table {b} into register {a}\n"

def psql_op_return_row : PSqlOpFunc :=
  print_only fun a b _ => s!"Return row: registers {a} to {b}\n"

def psql_op_create_table : PSqlOpFunc :=
  print_only fun a _ _ => s!"Create table, schema in register {a}\n"

def psql_op_define_schema : PSqlOpFunc :=
  print_only fun a _ _ => s!"Define schema for table at cursor {a}\n"

def psql_op_insert : PSqlOpFunc :=
  print_only fun a b c => s!"Insert row from registers {b} to {c} into table at cursor {a}\n"

def psql_op_search : PSqlOpFunc :=
  print_only fun a b _ => s!"Search for row with key in register {b} in table at cursor {a}\n"

def psql_op_compare : PSqlOpFunc :=
  print_only fun a b c =>
    s!"Compare value in register {b} with register {c}, store result in register {a}\n"

def psql_op_jump_if_false : PSqlOpFunc := fun vm a b _ =>
  (at_index vm.registers a).map fun value =>
    (if value = 0 then { vm with pc := b } else vm,
      s!"Jump to instruction {b} if register {a} is false\n")

def psql_op_halt : PSqlOpFunc := fun vm a _ _ =>
  some ({ vm with result_code := a.toUInt32 }, "Halt execution\n")

/-- The operations that are not bound are `NULL`. -/
def psql_jump_table (opcode : UInt32) : Option PSqlOpFunc :=
  [(code .OP_CREATE_TABLE, psql_op_create_table),
   (code .OP_OPEN_TABLE, psql_op_open_table),
   (code .OP_DEFINE_SCHEMA, psql_op_define_schema),
   (code .OP_RETURN_ROW, psql_op_return_row),
   (code .OP_INSERT, psql_op_insert),
   (code .OP_SEARCH, psql_op_search),
   (code .OP_COMPARE, psql_op_compare),
   (code .OP_JUMP_IF_FALSE, psql_op_jump_if_false),
   (code .OP_HALT, psql_op_halt)].lookup opcode

/-- The operation for an opcode; none for an invalid one. -/
def valid_op (opcode : UInt32) : Option PSqlOpFunc :=
  if opcode ≥ MAX_OPCODES then none else psql_jump_table opcode

/-! ## §3. One step. -/

/-- What a call leaves, executes, prints and returns. -/
structure StepResult where
  vm : PSqlStatement
  executed : Option PSqlInstruction
  printed : String
  returned : Option PSqlStepStatus
  deriving DecidableEq

/-- `&vm->program[vm->pc++]` -/
def fetch (vm : PSqlStatement) : Option (PSqlInstruction × PSqlStatement) :=
  if vm.pc = Int32.maxValue then none
  else (at_index vm.program vm.pc).map fun inst => (inst, { vm with pc := vm.pc + 1 })

def psql_step (vm : PSqlStatement) : Option StepResult :=
  match fetch vm with
  | none => none
  | some (inst, vm) =>
      match valid_op inst.opcode with
      | none =>
          -- the code is `PSQL_ERROR` of the other enumeration
          some
            { vm := { vm with
                result_code := UInt32.ofNat PSqlStatus.PSQL_ERROR.ctorIdx,
                error_msg := some "Invalid opcode" },
              executed := none, printed := "", returned := none }
      | some op =>
          -- the function ends without a `return`
          (op vm inst.a inst.b inst.c).map fun (vm, printed) =>
            { vm := vm, executed := some inst, printed := printed, returned := none }

/-! ## §4. What a step does. -/

/-- The index is one of the array. -/
def Inside {α : Type} (xs : List α) (i : Int32) : Prop := 0 ≤ i.toInt ∧ i.toInt < xs.length

instance {α : Type} (xs : List α) (i : Int32) : Decidable (Inside xs i) :=
  inferInstanceAs (Decidable (_ ∧ _))

theorem lt_zero_iff (i : Int32) : i < 0 ↔ i.toInt < 0 := by
  rw [Int32.lt_iff_toInt_lt, Int32.toInt_zero]

theorem at_index_of_inside {α : Type} {xs : List α} {i : Int32} (h : Inside xs i) :
    at_index xs i = xs[i.toInt.toNat]? :=
  if_neg fun hneg => Int.not_le.mpr ((lt_zero_iff i).mp hneg) h.1

theorem at_index_isSome_iff {α : Type} (xs : List α) (i : Int32) :
    (at_index xs i).isSome ↔ Inside xs i := by
  by_cases h : i < 0
  · rw [at_index, if_pos h]
    refine iff_of_false Bool.false_ne_true fun hinside => ?_
    exact Int.not_le.mpr ((lt_zero_iff i).mp h) hinside.1
  · have hle := Int.not_lt.mp fun hneg => h ((lt_zero_iff i).mpr hneg)
    rw [at_index, if_neg h, ← Int32.toNat_toInt, isSome_getElem?, Inside]
    omega

theorem inside_of_at_index {α : Type} {xs : List α} {i : Int32} {x : α}
    (h : at_index xs i = some x) : Inside xs i :=
  (at_index_isSome_iff xs i).mp (Option.isSome_of_eq_some h)

theorem mem_of_at_index {α : Type} {xs : List α} {i : Int32} {x : α}
    (h : at_index xs i = some x) : x ∈ xs := by
  rw [at_index_of_inside (inside_of_at_index h)] at h
  exact List.mem_of_getElem? h

/-- An operation that is bound only prints, jumps or halts. -/
theorem valid_op_cases {opcode : UInt32} {op : PSqlOpFunc} (h : valid_op opcode = some op) :
    (opcode ≠ code .OP_JUMP_IF_FALSE ∧ ∃ line, op = print_only line)
      ∨ (opcode = code .OP_JUMP_IF_FALSE ∧ op = psql_op_jump_if_false)
      ∨ (opcode ≠ code .OP_JUMP_IF_FALSE ∧ op = psql_op_halt) := by
  unfold valid_op at h
  split at h
  next => cases h
  next =>
    obtain ⟨before, after, hlist, -⟩ := List.lookup_eq_some_iff.mp h
    have hmem : (opcode, op) ∈ before ++ (opcode, op) :: after := List.mem_append_right _ (by simp)
    rw [← hlist] at hmem
    simp only [List.mem_cons, Prod.mk.injEq, List.not_mem_nil, or_false] at hmem
    rcases hmem with ⟨rfl, rfl⟩ | ⟨rfl, rfl⟩ | ⟨rfl, rfl⟩ | ⟨rfl, rfl⟩ | ⟨rfl, rfl⟩ | ⟨rfl, rfl⟩
      | ⟨rfl, rfl⟩ | ⟨rfl, rfl⟩ | ⟨rfl, rfl⟩
    iterate 7 exact Or.inl ⟨by decide, _, rfl⟩
    · exact Or.inr (Or.inl ⟨rfl, rfl⟩)
    · exact Or.inr (Or.inr ⟨by decide, rfl⟩)

theorem valid_op_halt : valid_op (code .OP_HALT) = some psql_op_halt := rfl

theorem valid_op_jump_if_false :
    valid_op (code .OP_JUMP_IF_FALSE) = some psql_op_jump_if_false := rfl

/-- What a call that executes or rejects `inst` has done. -/
structure Stepped (vm : PSqlStatement) (inst : PSqlInstruction) (r : StepResult) : Prop where
  program : r.vm.program = vm.program
  registers : r.vm.registers = vm.registers
  pc : r.vm.pc = vm.pc + 1 ∨ (inst.opcode = code .OP_JUMP_IF_FALSE ∧ r.vm.pc = inst.b)
  executed : r.executed = if (valid_op inst.opcode).isSome then some inst else none
  returned : r.returned = none

theorem fetch_eq_some {vm vm' : PSqlStatement} {inst : PSqlInstruction}
    (h : fetch vm = some (inst, vm')) : vm.pc ≠ Int32.maxValue
      ∧ at_index vm.program vm.pc = some inst ∧ vm' = { vm with pc := vm.pc + 1 } := by
  unfold fetch at h
  split at h
  next => cases h
  next hpc =>
    obtain ⟨inst', hat, heq⟩ := Option.map_eq_some_iff.mp h
    cases heq
    exact ⟨hpc, hat, rfl⟩

/-- **One call** goes on to the next instruction or jumps; it never returns a status. -/
theorem psql_step_spec {vm : PSqlStatement} {r : StepResult} (h : psql_step vm = some r) :
    ∃ inst, vm.pc ≠ Int32.maxValue ∧ at_index vm.program vm.pc = some inst
      ∧ Stepped vm inst r := by
  unfold psql_step at h
  split at h
  next => cases h
  next inst vm' hfetch =>
    obtain ⟨hpc, hat, rfl⟩ := fetch_eq_some hfetch
    refine ⟨inst, hpc, hat, ?_⟩
    split at h
    next hop =>
      cases h
      exact ⟨rfl, rfl, Or.inl rfl, by rw [hop]; rfl, rfl⟩
    next op hop =>
      obtain ⟨⟨vm', printed⟩, hrun, rfl⟩ := Option.map_eq_some_iff.mp h
      rcases valid_op_cases hop with ⟨-, line, rfl⟩ | ⟨hjump, rfl⟩ | ⟨-, rfl⟩
      · cases hrun
        exact ⟨rfl, rfl, Or.inl rfl, by rw [hop]; rfl, rfl⟩
      · obtain ⟨value, -, heq⟩ := Option.map_eq_some_iff.mp hrun
        cases heq
        by_cases hzero : value = 0
        · simp only [if_pos hzero]
          exact ⟨rfl, rfl, Or.inr ⟨hjump, rfl⟩, by rw [hop]; rfl, rfl⟩
        · simp only [if_neg hzero]
          exact ⟨rfl, rfl, Or.inl rfl, by rw [hop]; rfl, rfl⟩
      · cases hrun
        exact ⟨rfl, rfl, Or.inl rfl, by rw [hop]; rfl, rfl⟩

/-- **A call has a result** where it reads inside the program and, for a jump, inside the
registers. -/
theorem psql_step_isSome_iff (vm : PSqlStatement) : (psql_step vm).isSome ↔
    vm.pc ≠ Int32.maxValue ∧ ∃ inst, at_index vm.program vm.pc = some inst
      ∧ (inst.opcode = code .OP_JUMP_IF_FALSE → Inside vm.registers inst.a) := by
  unfold psql_step
  split
  next hfetch =>
    refine iff_of_false Bool.false_ne_true ?_
    rintro ⟨hpc, inst, hat, -⟩
    rw [fetch, if_neg hpc, hat] at hfetch
    cases hfetch
  next inst vm' hfetch =>
    obtain ⟨hpc, hat, rfl⟩ := fetch_eq_some hfetch
    rw [and_iff_right hpc]
    have hinst : (∃ inst', at_index vm.program vm.pc = some inst'
        ∧ (inst'.opcode = code .OP_JUMP_IF_FALSE → Inside vm.registers inst'.a))
        ↔ (inst.opcode = code .OP_JUMP_IF_FALSE → Inside vm.registers inst.a) := by
      rw [hat]
      constructor
      · rintro ⟨inst', heq, hreg⟩
        cases heq
        exact hreg
      · exact fun hreg => ⟨inst, rfl, hreg⟩
    rw [hinst]
    split
    next hop =>
      refine iff_of_true rfl fun hjump => ?_
      rw [hjump, valid_op_jump_if_false] at hop
      cases hop
    next op hop =>
      rw [Option.isSome_map]
      rcases valid_op_cases hop with ⟨hjump, line, rfl⟩ | ⟨hjump, rfl⟩ | ⟨hjump, rfl⟩
      · exact iff_of_true rfl fun h => absurd h hjump
      · rw [psql_op_jump_if_false, Option.isSome_map, at_index_isSome_iff, forall_prop_of_true hjump]
      · exact iff_of_true rfl fun h => absurd h hjump

/-! ## §5. Runs. -/

/-- A statement and what has been executed of its program. -/
structure Machine where
  vm : PSqlStatement
  executed : List PSqlInstruction
  deriving DecidableEq

/-- One more call of `psql_step`; where it has no result nothing is said of the machine
afterwards, which stays. -/
def Machine.call (m : Machine) (_ : Unit) : Machine :=
  match psql_step m.vm with
  | none => m
  | some r => { vm := r.vm, executed := m.executed ++ r.executed.toList }

def Machine.Halted (m : Machine) : Prop := code .OP_HALT ∈ m.executed.map (·.opcode)

instance (m : Machine) : Decidable m.Halted :=
  inferInstanceAs (Decidable (code .OP_HALT ∈ m.executed.map (·.opcode)))

/-- The program ends in `OP_HALT`, jumps inside itself and tests registers that exist. -/
structure WellFormed (vm : PSqlStatement) : Prop where
  ends_in_halt : vm.program.getLast?.map (·.opcode) = some (code .OP_HALT)
  jumps_inside : ∀ inst ∈ vm.program, inst.opcode = code .OP_JUMP_IF_FALSE →
    Inside vm.program inst.b
  registers_suffice : ∀ inst ∈ vm.program, inst.opcode = code .OP_JUMP_IF_FALSE →
    Inside vm.registers inst.a

instance (vm : PSqlStatement) : Decidable (WellFormed vm) :=
  decidable_of_iff
    (vm.program.getLast?.map (·.opcode) = some (code .OP_HALT)
      ∧ (∀ inst ∈ vm.program, inst.opcode = code .OP_JUMP_IF_FALSE → Inside vm.program inst.b)
      ∧ ∀ inst ∈ vm.program, inst.opcode = code .OP_JUMP_IF_FALSE → Inside vm.registers inst.a)
    ⟨fun ⟨hends, hjumps, hregs⟩ => ⟨hends, hjumps, hregs⟩,
      fun ⟨hends, hjumps, hregs⟩ => ⟨hends, hjumps, hregs⟩⟩

/-- In front of the first `OP_HALT` the call fetches inside the program; behind it the call
executes nothing, leaves the statement as it is and reports misuse. -/
def StopsAtHalt (m : Machine) : Prop :=
  (¬ m.Halted → Inside m.vm.program m.vm.pc ∧ (psql_step m.vm).isSome)
    ∧ (m.Halted → psql_step m.vm = some
        { vm := m.vm, executed := none, printed := "", returned := some .PSQL_STEP_MISUSE })

/-- No `OP_HALT` so far, and the counter can go on. -/
def StillRunning (m : Machine) : Prop := ¬ m.Halted ∧ m.vm.pc ≠ Int32.maxValue

/-- The counter is inside the program as long as nothing has halted. -/
structure Running (m : Machine) : Prop where
  wellFormed : WellFormed m.vm
  pc : ¬ m.Halted → Inside m.vm.program m.vm.pc

theorem WellFormed.congr {vm vm' : PSqlStatement} (h : WellFormed vm)
    (hprogram : vm'.program = vm.program) (hregisters : vm'.registers = vm.registers) :
    WellFormed vm' := by
  obtain ⟨hends, hjumps, hregs⟩ := h
  rw [← hprogram] at hends hjumps hregs
  rw [← hregisters] at hregs
  exact ⟨hends, hjumps, hregs⟩

/-- Behind an instruction that is not `OP_HALT` there is another one. -/
theorem WellFormed.next_inside {vm : PSqlStatement} {inst : PSqlInstruction} (h : WellFormed vm)
    (hat : at_index vm.program vm.pc = some inst) (hinst : inst.opcode ≠ code .OP_HALT)
    (hpc : vm.pc ≠ Int32.maxValue) : Inside vm.program (vm.pc + 1) := by
  have hinside := inside_of_at_index hat
  have hlast : vm.pc.toInt.toNat ≠ vm.program.length - 1 := by
    intro heq
    have hends := h.ends_in_halt
    rw [List.getLast?_eq_getElem?, ← heq, ← at_index_of_inside hinside, hat] at hends
    exact hinst (Option.some.inj hends)
  have hmax : vm.pc.toInt ≠ 2 ^ 31 - 1 := fun heq => hpc (Int32.toInt_inj.mp heq)
  have hlt := vm.pc.toInt_lt
  obtain ⟨hle, hlen⟩ := hinside
  have hsucc : (vm.pc + 1).toInt = vm.pc.toInt + 1 := by
    rw [Int32.toInt_add, Int32.toInt_one]
    exact Int.bmod_eq_of_le (by omega) (by omega)
  rw [Inside, hsucc]
  omega

/-- In front of `OP_HALT` a call has a result, which says how the machine goes on. -/
theorem Running.step {m : Machine} (h : Running m) (hrunning : StillRunning m) :
    ∃ r inst, psql_step m.vm = some r ∧ at_index m.vm.program m.vm.pc = some inst
      ∧ Stepped m.vm inst r := by
  obtain ⟨inst, hat⟩ := Option.isSome_iff_exists.mp
    ((at_index_isSome_iff _ _).mpr (h.pc hrunning.1))
  have hsome : (psql_step m.vm).isSome := (psql_step_isSome_iff m.vm).mpr
    ⟨hrunning.2, inst, hat, h.wellFormed.registers_suffice inst (mem_of_at_index hat)⟩
  obtain ⟨r, hstep⟩ := Option.isSome_iff_exists.mp hsome
  obtain ⟨inst', -, hat', hstepped⟩ := psql_step_spec hstep
  rw [hat] at hat'
  cases hat'
  exact ⟨r, inst, hstep, hat, hstepped⟩

theorem Running.call {m : Machine} (h : Running m) (hrunning : StillRunning m) :
    Running (m.call ()) := by
  obtain ⟨r, inst, hstep, hat, hstepped⟩ := h.step hrunning
  have hcall : m.call () = { vm := r.vm, executed := m.executed ++ r.executed.toList } := by
    rw [Machine.call, hstep]
  rw [hcall]
  refine ⟨h.wellFormed.congr hstepped.program hstepped.registers, fun hnot => ?_⟩
  have hinst : inst.opcode ≠ code .OP_HALT := by
    intro hhalt
    refine hnot ?_
    have hexecuted := hstepped.executed
    rw [hhalt, valid_op_halt] at hexecuted
    simp [Machine.Halted, hexecuted, hhalt]
  show Inside r.vm.program r.vm.pc
  rw [hstepped.program]
  rcases hstepped.pc with hnext | ⟨hjump, hpc⟩
  · rw [hnext]
    exact h.wellFormed.next_inside hat hinst hrunning.2
  · rw [hpc]
    exact h.wellFormed.jumps_inside inst (mem_of_at_index hat) hjump

/-- No call reports misuse. -/
theorem StopsAtHalt.not_halted {m : Machine} (h : StopsAtHalt m) : ¬ m.Halted := by
  intro hhalted
  obtain ⟨inst, -, -, hstepped⟩ := psql_step_spec (h.2 hhalted)
  cases hstepped.returned

theorem Running.stopsAtHalt_iff {m : Machine} (h : Running m) :
    StopsAtHalt m ↔ StillRunning m := by
  constructor
  · intro hstops
    have hnot := hstops.not_halted
    exact ⟨hnot, ((psql_step_isSome_iff m.vm).mp (hstops.1 hnot).2).1⟩
  · intro hrunning
    obtain ⟨r, inst, hstep, -, -⟩ := h.step hrunning
    exact ⟨fun hnot => ⟨h.pc hnot, Option.isSome_of_eq_some hstep⟩,
      fun hhalted => absurd hhalted hrunning.1⟩

theorem WellFormed.running {vm : PSqlStatement} (h : WellFormed vm) (hpc : vm.pc = 0) :
    Running ⟨vm, []⟩ := by
  refine ⟨h, fun _ => ?_⟩
  have hne : vm.program ≠ [] := by
    intro hnil
    have hends := h.ends_in_halt
    rw [hnil] at hends
    cases hends
  show Inside vm.program vm.pc
  rw [hpc]
  exact ⟨Int.le_refl 0, Int.natCast_pos.mpr (List.length_pos_iff.mpr hne)⟩

/-- **A run stops at `OP_HALT`** exactly when no call follows it, and the counter does not
run over. -/
theorem stops_at_halt_iff (vm : PSqlStatement) (h : WellFormed vm) (hpc : vm.pc = 0) (n : Nat) :
    EachStep Machine.call (fun m _ => StopsAtHalt m) ⟨vm, []⟩ (List.replicate n ())
      ↔ EachStep Machine.call (fun m _ => StillRunning m) ⟨vm, []⟩ (List.replicate n ()) :=
  eachStep_iff_of_kept
    (fun _ _ hrunning hstops => hrunning.call (hrunning.stopsAtHalt_iff.mp hstops))
    (fun _ _ hrunning => hrunning.stopsAtHalt_iff) _ _ (h.running hpc)

/-- Over a jump to the halt behind it. -/
def jump_to_halt : PSqlStatement :=
  { program := [⟨code .OP_JUMP_IF_FALSE, 0, 1, 0⟩, ⟨code .OP_HALT, 1, 0, 0⟩],
    pc := 0, registers := [0], result_code := 0, error_msg := none }

theorem jump_to_halt_wellFormed : WellFormed jump_to_halt := by decide

/-- Two calls jump and halt. -/
theorem stops_at_halt_iff_jump :
    EachStep Machine.call (fun m _ => StopsAtHalt m) ⟨jump_to_halt, []⟩ (List.replicate 2 ())
      ↔ EachStep Machine.call (fun m _ => StillRunning m) ⟨jump_to_halt, []⟩
          (List.replicate 2 ()) :=
  stops_at_halt_iff jump_to_halt jump_to_halt_wellFormed rfl 2

/-- The third call fetches behind the program. -/
theorem fetches_behind_halt : WellFormed jump_to_halt ∧ jump_to_halt.pc = 0
    ∧ ¬ EachStep Machine.call (fun m _ => StopsAtHalt m) ⟨jump_to_halt, []⟩
        (List.replicate 3 ()) := by
  refine ⟨jump_to_halt_wellFormed, rfl, fun ⟨_, _, hthird, _⟩ => ?_⟩
  have hhalted : (Machine.call (Machine.call ⟨jump_to_halt, []⟩ ()) ()).Halted := by decide
  exact hthird.not_halted hhalted

end PreSeQL.VmEngine
