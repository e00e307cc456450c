/-
  PreSeQL.VmEngine.Halting — how long a program runs, and whether its statement can be finalised.

  No operation writes a register, so where a run goes depends on the program counter alone:

    • `psql_step_congr` — what a call executes, and where it goes on,
    • `halts_within_length` — a program that has not halted after as many calls as it has
      instructions never halts,
    • `finalize_iff` — `psql_finalize` frees a string literal once an opcode has been rejected.
-/
import Mathlib.Data.Nat.Find
import PreSeQL.Lib.Orbit
import PreSeQL.VmEngine.Machine

namespace PreSeQL.VmEngine

open PreSeQL.Compiler PreSeQL.Lib PreSeQL.Lib.Run

/-! ## §1. The life of a statement. -/

/-- The fields that a step reads or writes; a negative count is a size that `calloc` refuses. -/
def psql_init (vm : PSqlStatement) (reg_count : Int32) : PSqlStatement :=
  { vm with
    pc := 0
    registers := if reg_count < 0 then [] else List.replicate reg_count.toNatClampNeg 0
    result_code := 0
    error_msg := none }

/-- `free(vm->error_msg)` is in order for `NULL` only: every other message is a literal. -/
def psql_finalize (vm : PSqlStatement) : Option PSqlStatement :=
  if vm.error_msg = none then some { vm with registers := [] } else none

/-- The machine after `n` calls of `psql_step`. -/
def Machine.after (m : Machine) (n : Nat) : Machine := (fun m => m.call ())^[n] m

theorem Machine.after_succ (m : Machine) (n : Nat) :
    m.after (n + 1) = (m.after n).call () := Function.iterate_succ_apply' _ n m

/-! ## §2. What a call depends on. -/

/-- What a call executes and where it goes on depend on program, registers and counter. -/
theorem psql_step_congr {vm vm' : PSqlStatement} (hprogram : vm.program = vm'.program)
    (hregisters : vm.registers = vm'.registers) (hpc : vm.pc = vm'.pc) :
    (psql_step vm).map (fun r => (r.vm.pc, r.executed))
      = (psql_step vm').map fun r => (r.vm.pc, r.executed) := by
  unfold psql_step fetch
  rw [← hprogram, ← hpc]
  by_cases hmax : vm.pc = Int32.maxValue
  · simp only [if_pos hmax, Option.map_none]
  · simp only [if_neg hmax]
    cases at_index vm.program vm.pc with
    | none => rfl
    | some inst =>
        simp only [Option.map_some]
        cases hop : valid_op inst.opcode with
        | none => rfl
        | some op =>
            rcases valid_op_cases hop with ⟨-, line, rfl⟩ | ⟨-, rfl⟩ | ⟨-, rfl⟩
            · rfl
            · -- a jump tests the same register
              simp only [psql_op_jump_if_false, ← hregisters]
              cases at_index vm.registers inst.a with
              | none => rfl
              | some value =>
                  simp only [Option.map_some]
                  by_cases hzero : value = 0
                  · simp only [if_pos hzero]
                  · simp only [if_neg hzero]
            · rfl

/-- A call sets the message where it rejects the opcode, and nowhere else. -/
theorem psql_step_error_msg {vm : PSqlStatement} {r : StepResult} (h : psql_step vm = some r) :
    r.vm.error_msg = if r.executed.isSome then vm.error_msg else some "Invalid opcode" := by
  unfold psql_step at h
  split at h
  next => cases h
  next inst vm' hfetch =>
    obtain ⟨-, -, rfl⟩ := fetch_eq_some hfetch
    split at h
    next => cases h; rfl
    next op hop =>
      obtain ⟨⟨vm', printed⟩, hrun, rfl⟩ := Option.map_eq_some_iff.mp h
      rcases valid_op_cases hop with ⟨-, line, rfl⟩ | ⟨-, rfl⟩ | ⟨-, rfl⟩
      · cases hrun; rfl
      · obtain ⟨value, -, heq⟩ := Option.map_eq_some_iff.mp hrun
        cases heq
        by_cases hzero : value = 0
        · simp only [if_pos hzero]; rfl
        · simp only [if_neg hzero]; rfl
      · cases hrun; rfl

/-! ## §3. Halting. -/

/-- A machine of the program and registers of `vm` that has not halted. -/
structure Underway (vm : PSqlStatement) (m : Machine) : Prop where
  running : Running m
  program : m.vm.program = vm.program
  registers : m.vm.registers = vm.registers

/-- A call without a result leaves the machine as it is. -/
theorem Underway.call {vm : PSqlStatement} {m : Machine} (h : Underway vm m) (hnot : ¬ m.Halted) :
    Underway vm (m.call ()) := by
  by_cases hpc : m.vm.pc = Int32.maxValue
  · have hnone : psql_step m.vm = none := by
      rw [psql_step, fetch, if_pos hpc]
    rwa [Machine.call, hnone]
  · obtain ⟨r, inst, hstep, -, hstepped⟩ := h.running.step ⟨hnot, hpc⟩
    have hrunning := h.running.call ⟨hnot, hpc⟩
    have hcall : m.call () = { vm := r.vm, executed := m.executed ++ r.executed.toList } := by
      rw [Machine.call, hstep]
    rw [hcall] at hrunning ⊢
    exact ⟨hrunning, hstepped.program.trans h.program, hstepped.registers.trans h.registers⟩

/-- The executed instruction shows whether the call halts. -/
theorem halted_call_iff {m : Machine} (hnot : ¬ m.Halted) :
    (m.call ()).Halted ↔ ∃ inst, (psql_step m.vm).bind StepResult.executed = some inst
      ∧ inst.opcode = code .OP_HALT := by
  unfold Machine.call
  cases hstep : psql_step m.vm with
  | none => simpa using hnot
  | some r =>
      have hbefore : code .OP_HALT ∉ m.executed.map (·.opcode) := hnot
      simp only [Machine.Halted, List.map_append, List.mem_append, Option.bind_some]
      rw [or_iff_right hbefore]
      cases r.executed with
      | none => simp
      | some inst => simp [eq_comm]

/-- Two machines at one place of the program go on at one place, and halt together. -/
theorem Underway.same_view {vm : PSqlStatement} {m m' : Machine} (h : Underway vm m)
    (h' : Underway vm m') (hnot : ¬ m.Halted) (hnot' : ¬ m'.Halted) (heq : m.vm.pc = m'.vm.pc) :
    (m.call ()).vm.pc = (m'.call ()).vm.pc ∧ ((m.call ()).Halted ↔ (m'.call ()).Halted) := by
  have hsame := psql_step_congr (h.program.trans h'.program.symm)
    (h.registers.trans h'.registers.symm) heq
  rw [halted_call_iff hnot, halted_call_iff hnot']
  unfold Machine.call
  cases hstep : psql_step m.vm with
  | none =>
      rw [hstep, Option.map_none, eq_comm, Option.map_eq_none_iff] at hsame
      rw [hsame]
      exact ⟨heq, Iff.rfl⟩
  | some r =>
      rw [hstep, Option.map_some, eq_comm, Option.map_eq_some_iff] at hsame
      obtain ⟨r', hstep', hr'⟩ := hsame
      obtain ⟨hpc, hexecuted⟩ := Prod.mk.inj hr'
      rw [hstep']
      exact ⟨hpc.symm, by rw [Option.bind_some, Option.bind_some, hexecuted]⟩

/-- The counters of a machine that has not halted. -/
def places (vm : PSqlStatement) : Finset Int32 :=
  (Finset.range vm.program.length).image Int32.ofNat

theorem Underway.pc_mem {vm : PSqlStatement} {m : Machine} (h : Underway vm m)
    (hnot : ¬ m.Halted) : m.vm.pc ∈ places vm := by
  obtain ⟨hle, hlt⟩ := h.running.pc hnot
  rw [h.program] at hlt
  refine Finset.mem_image.mpr ⟨m.vm.pc.toInt.toNat, Finset.mem_range.mpr (by omega), ?_⟩
  rw [← Int32.ofInt_eq_ofNat, Int.toNat_of_nonneg hle, Int32.ofInt_toInt]

theorem card_places_le (vm : PSqlStatement) : (places vm).card ≤ vm.program.length := by
  have hle : (places vm).card ≤ (Finset.range vm.program.length).card := Finset.card_image_le
  rwa [Finset.card_range] at hle

theorem Machine.Halted.call {m : Machine} (h : m.Halted) : (m.call ()).Halted := by
  unfold Machine.call
  split
  next => exact h
  next =>
    refine List.mem_map.mpr ?_
    obtain ⟨inst, hmem, heq⟩ := List.mem_map.mp h
    exact ⟨inst, List.mem_append_left _ hmem, heq⟩

theorem Machine.Halted.later {m : Machine} {k n : Nat} (h : (m.after k).Halted) (hle : k ≤ n) :
    (m.after n).Halted := by
  induction n, hle using Nat.le_induction with
  | base => exact h
  | succ n _ ih => exact m.after_succ n ▸ ih.call

/-- **A program halts soon or never**: the call that executes `OP_HALT` comes within as many
calls as there are instructions, and up to it no call fetches what an earlier one has fetched. -/
theorem halts_within_length (vm : PSqlStatement) (h : WellFormed vm) (hpc : vm.pc = 0) :
    ((∃ n, (Machine.after ⟨vm, []⟩ n).Halted)
        ↔ (Machine.after ⟨vm, []⟩ vm.program.length).Halted)
      ∧ ∀ n, (Machine.after ⟨vm, []⟩ n).Halted → ∀ i j, i < j → j < n →
        ¬ (Machine.after ⟨vm, []⟩ j).Halted →
          (Machine.after ⟨vm, []⟩ i).vm.pc ≠ (Machine.after ⟨vm, []⟩ j).vm.pc := by
  have hstart : Underway vm ⟨vm, []⟩ := ⟨h.running hpc, rfl, rfl⟩
  have hkept : ∀ m, Underway vm m → ¬ m.Halted → Underway vm (m.call ()) :=
    fun m hm hnot => hm.call hnot
  have hview : ∀ m m', Underway vm m → Underway vm m' → ¬ m.Halted → ¬ m'.Halted →
      m.vm.pc = m'.vm.pc → (m.call ()).vm.pc = (m'.call ()).vm.pc
        ∧ ((m.call ()).Halted ↔ (m'.call ()).Halted) :=
    fun m m' hm hm' hnot hnot' heq => hm.same_view hm' hnot hnot' heq
  refine ⟨⟨?_, fun hhalted => ⟨_, hhalted⟩⟩, ?_⟩
  · intro hex
    have hfirst : ∀ k < Nat.find hex, ¬ (Machine.after ⟨vm, []⟩ k).Halted :=
      fun k hk => Nat.find_min hex hk
    have hle := @Orbit.reaches_within _ _ (fun m : Machine => m.call ()) (fun m => m.vm.pc)
      (Underway vm) Machine.Halted hkept hview _ hstart (places vm)
      (fun m hm hnot => hm.pc_mem hnot) _ hfirst (Nat.find_spec hex)
    exact (Nat.find_spec hex).later (hle.trans (card_places_le vm))
  · intro n hn i j hij hj hnot
    have hex : ∃ n, (Machine.after ⟨vm, []⟩ n).Halted := ⟨n, hn⟩
    have hlt : j < Nat.find hex := by
      by_contra hle
      exact hnot ((Nat.find_spec hex).later (Nat.not_lt.mp hle))
    exact @Orbit.views_injective _ _ (fun m : Machine => m.call ()) (fun m => m.vm.pc)
      (Underway vm) Machine.Halted hkept hview _ hstart _ (fun k hk => Nat.find_min hex hk)
      (Nat.find_spec hex) _ _ hij hlt

/-- A loop over three instructions, which a register keeps away from the halt. -/
def search_loop (value : PSqlRegister) : PSqlStatement :=
  { program := [⟨code .OP_SEARCH, 0, 0, 0⟩, ⟨code .OP_COMPARE, 0, 1, 2⟩,
      ⟨code .OP_JUMP_IF_FALSE, 0, 0, 0⟩, ⟨code .OP_HALT, 0, 0, 0⟩],
    pc := 0, registers := [value], result_code := 0, error_msg := none }

theorem halts_within_length_witness :
    ((∃ n, (Machine.after ⟨search_loop 0, []⟩ n).Halted)
        ↔ (Machine.after ⟨search_loop 0, []⟩ 4).Halted)
      ∧ ∀ n, (Machine.after ⟨search_loop 0, []⟩ n).Halted → ∀ i j, i < j → j < n →
        ¬ (Machine.after ⟨search_loop 0, []⟩ j).Halted →
          (Machine.after ⟨search_loop 0, []⟩ i).vm.pc
            ≠ (Machine.after ⟨search_loop 0, []⟩ j).vm.pc :=
  halts_within_length (search_loop 0) (by decide) rfl

/-- The result of the comparison is not written into the register. -/
example : ¬ (Machine.after ⟨search_loop 0, []⟩ 4).Halted
    ∧ (Machine.after ⟨search_loop 1, []⟩ 4).Halted := by decide

/-! ## §4. Finalising. -/

theorem finalize_after (n : Nat) : ∀ (m : Machine) (k : Nat), m.executed.length ≤ k →
    (m.vm.error_msg = none ↔ m.executed.length = k) →
    EachStep Machine.call (fun m _ => (psql_step m.vm).isSome) m (List.replicate n ()) →
      ((m.after n).vm.error_msg = none ↔ (m.after n).executed.length = k + n) := by
  induction n with
  | zero => exact fun m k _ hiff _ => hiff
  | succ n ih =>
      intro m k hle hiff hrun
      obtain ⟨hsome, hrest⟩ := hrun
      obtain ⟨r, hstep⟩ := Option.isSome_iff_exists.mp hsome
      have hcall : m.call () = { vm := r.vm, executed := m.executed ++ r.executed.toList } := by
        rw [Machine.call, hstep]
      have hmsg := psql_step_error_msg hstep
      have hafter : m.after (n + 1) = (m.call ()).after n := Function.iterate_succ_apply _ n m
      rw [hafter, Nat.add_comm n 1, ← Nat.add_assoc]
      refine ih (m.call ()) (k + 1) ?_ ?_ hrest
      · rw [hcall, List.length_append]
        cases r.executed <;> simp <;> omega
      · rw [hcall, hmsg, List.length_append]
        cases r.executed with
        | none =>
            -- rejected: one instruction fewer than calls
            refine iff_of_false (by simp) ?_
            simp only [Option.toList_none, List.length_nil]
            omega
        | some inst => simp [hiff]

/-- **A statement can be finalised** after a run exactly when every call has executed an
instruction: a rejected opcode leaves a literal in `error_msg`. -/
theorem finalize_iff (vm : PSqlStatement) (reg_count : Int32) (n : Nat)
    (hrun : EachStep Machine.call (fun m _ => (psql_step m.vm).isSome)
      ⟨psql_init vm reg_count, []⟩ (List.replicate n ())) :
    (psql_finalize (Machine.after ⟨psql_init vm reg_count, []⟩ n).vm).isSome
      ↔ (Machine.after ⟨psql_init vm reg_count, []⟩ n).executed.length = n := by
  have hiff := finalize_after n ⟨psql_init vm reg_count, []⟩ 0 (Nat.le_refl 0)
    (iff_of_true rfl rfl) hrun
  rw [Nat.zero_add] at hiff
  rw [← hiff, psql_finalize]
  split
  next h => exact iff_of_true rfl h
  next h => exact iff_of_false (by simp) h

/-- An operation that no function is bound to. -/
def begin_program : PSqlStatement :=
  { program := [⟨code .OP_OPEN_TABLE, 0, 1, 0⟩, ⟨code .OP_BEGIN_TXN, 0, 0, 0⟩,
      ⟨code .OP_HALT, 0, 0, 0⟩],
    pc := 0, registers := [], result_code := 0, error_msg := none }

theorem finalize_iff_witness :
    (psql_finalize (Machine.after ⟨psql_init begin_program 2, []⟩ 3).vm).isSome
      ↔ (Machine.after ⟨psql_init begin_program 2, []⟩ 3).executed.length = 3 :=
  finalize_iff begin_program 2 3 (by decide)

end PreSeQL.VmEngine
