/-
  PreSeQL.Client.Leaks — what the client leaves in use.

  `psql_prepare` and `main` of `client.c` with the blocks they allocate.  The program of a
  statement is always given back; an INSERT or a CREATE is not, and neither are the tokens
  of a text that is refused, the values of a rejected INSERT and the buffers of `main`.
  No request of `psql_prepare` is refused here; those of `main` may be.

    • `psql_prepare_spec` — exactly what one call leaves,
    • `prepare_tidy_iff` — the texts that leave nothing,
    • `main_leaks` — what a session leaves,
    • `held_buffer_freed_twice` — a line for which `realloc` has no block.
-/
import PreSeQL.Client.Lines
import PreSeQL.Compiler.OwnedStatement

namespace PreSeQL.Client.Blocks

open PreSeQL.Lib PreSeQL.Lib.Alloc
open PreSeQL.Compiler (Text Token Statement StatementType)
open PreSeQL.Compiler.Blocks

/-! ## §1. The code. -/

/-- The `switch` of `psql_prepare`; INSERT and CREATE have no case. -/
def free_statement (stmt : StatementPtr) : Alloc Unit :=
  match stmt with
  | .select stmt => free_select_statement stmt
  | .control stmt =>
      match stmt.type with
      | .STMT_BEGIN | .STMT_COMMIT | .STMT_ROLLBACK => free (some stmt.addr)
      | _ => return
  | .insert _ => return
  | .create _ => return

def free_generated (program : Option ProgramPtr) : Alloc Unit :=
  match program with
  | some program => free_program program
  | none => return

/-- The branch of a statement: its program is printed and freed, then the statement. -/
def compile_statement (stmt : Option StatementPtr) : Alloc Unit :=
  match stmt with
  | none => return
  | some stmt => do
      let program ← generate_code stmt.value
      free_generated program
      free_statement stmt

def psql_prepare (preseql_input : Text) (statement : PSqlStatement) :
    Alloc (PSqlStatus × PSqlStatement) := do
  let (code, token_stream) ← tokenize preseql_input .null
  if code ≠ 0 then return (.PSQL_ERROR, statement)
  else do
    let stmt ← parse_tokens_with_type (token_stream.elems.map TokenPtr.value)
    compile_statement stmt
    free_tokens token_stream
    return (.PSQL_OK, { statement with pc := 0 })

/-- `statement_buffer`; `statement_len` is the length of its text. -/
def buffer_text (statement_buffer : Option CString) : Text := statement_buffer.elim [] CString.text

/-- `realloc` to the length of both, and the line behind the buffer; `none` when the request is
refused, and the buffer is as it was. -/
def append_line (served : Bool) (statement_buffer : Option CString) (preseql_input : Text) :
    Alloc (Option CString) :=
  if served then do
    let text := buffer_text statement_buffer ++ preseql_input
    let addr ← realloc (statement_buffer.map CString.addr) (text_size text)
    return some ⟨addr, text⟩
  else return none

/-- The characters in front of the first NUL. -/
def c_string (line : Text) : Text := line.takeWhile fun c => c ≠ '\x00'

/-- The loop of `main`, and the buffer behind it; `serves n` is the answer to the `n`-th request
for a longer buffer. -/
def client_loop : Nat → (Nat → Bool) → Text → Option CString → PSqlStatement →
    Alloc (Option CString)
  | 0, _, _, statement_buffer, _ => return statement_buffer
  | fuel + 1, serves, stdin, statement_buffer, statement =>
      match fgets INPUT_BUFFER_SIZE stdin with
      | none => return statement_buffer
      | some (line, stdin) =>
          -- `preseql_input[len - 1]` of an empty string
          if c_string line = [] then fault
          else
            let preseql_input := strip_newline (c_string line)
            if buffer_text statement_buffer = []
                ∧ (preseql_input = "exit".toList ∨ preseql_input = ".quit".toList) then
              return statement_buffer
            else if buffer_text statement_buffer = [] ∧ preseql_input = "clear".toList then
              client_loop fuel serves stdin statement_buffer statement
            else do
              match ← append_line (serves 0) statement_buffer preseql_input with
              | none => do
                  -- the address stays in `statement_buffer`
                  free (statement_buffer.map CString.addr)
                  return statement_buffer
              | some statement_buffer =>
                  let serves := fun n => serves (n + 1)
                  if ';' ∈ preseql_input then do
                    let (_, statement) ← psql_prepare statement_buffer.text statement
                    -- `statement_buffer = NULL;` without a `free`
                    client_loop fuel serves stdin none statement
                  else client_loop fuel serves stdin (some statement_buffer) statement

/-- `main` from some round on. -/
def main_from (fuel : Nat) (serves : Nat → Bool) (stdin : Text) (statement_buffer : Option CString)
    (statement : PSqlStatement) : Alloc Unit := do
  let statement_buffer ← client_loop fuel serves stdin statement_buffer statement
  free (statement_buffer.map CString.addr)

def main (serves : Nat → Bool) (stdin : Text) (statement : PSqlStatement) : Alloc Unit :=
  main_from stdin.length serves stdin none statement

/-! ## §2. One call. -/

def control_types : List StatementType := [.STMT_BEGIN, .STMT_COMMIT, .STMT_ROLLBACK]

/-- The sizes of the blocks of a statement that no case of the `switch` frees. -/
def statement_kept : Statement → Multiset Nat
  | .select _ => 0
  | .control stmt => if stmt.type ∈ control_types then 0 else {CONTROL_SIZE}
  | .insert stmt => statement_sizes (.insert stmt)
  | .create stmt => statement_sizes (.create stmt)

/-- The sizes of the blocks that are in use after a text and have not been before. -/
def leaked (preseql_input : Text) : Multiset Nat :=
  (Compiler.tokenize preseql_input []).elim 0 fun result =>
    if result.1 ≠ 0 then tokens_sizes result.2
    else (Compiler.parse_tokens_with_type result.2).elim
      (values_sizes (values_rejected ⟨result.2, 0⟩)) statement_kept

theorem leaked_refused {text : Text} {code : Nat} {tokens : List Token}
    (htokens : Compiler.tokenize text [] = some (code, tokens)) (hcode : code ≠ 0) :
    leaked text = tokens_sizes tokens := by
  rw [leaked, htokens]
  exact if_pos hcode

theorem leaked_tokenized {text : Text} {tokens : List Token}
    (htokens : Compiler.tokenize text [] = some (0, tokens)) :
    leaked text = (Compiler.parse_tokens_with_type tokens).elim
      (values_sizes (values_rejected ⟨tokens, 0⟩)) statement_kept := by
  rw [leaked, htokens, Option.elim_some, if_neg (not_not.mpr rfl)]

theorem free_statement_spec (stmt : StatementPtr) (base : Multiset Cell) :
    Spec (stmt.own + base) (free_statement stmt) fun _ left => ∃ kept : Multiset Cell,
      left = kept + base ∧ kept.map Cell.size = statement_kept stmt.value := by
  have hkept : statement_sizes stmt.value = statement_kept stmt.value →
      Spec (stmt.own + base) (return) fun (_ : Unit) left => ∃ kept : Multiset Cell,
        left = kept + base ∧ kept.map Cell.size = statement_kept stmt.value :=
    fun heq => Spec.pure ⟨stmt.own, rfl, by rw [StatementPtr.own_sizes, heq]⟩
  cases stmt with
  | select stmt =>
      refine (free_select_statement_spec stmt base).mono ?_
      rintro _ _ rfl
      exact ⟨0, (zero_add _).symm, rfl⟩
  | insert stmt => exact hkept rfl
  | create stmt => exact hkept rfl
  | control stmt =>
      obtain ⟨addr, type⟩ := stmt
      have hfree : type ∈ control_types → Spec ({⟨addr, CONTROL_SIZE⟩} + base) (free (some addr))
          fun _ left => ∃ kept : Multiset Cell, left = kept + base
            ∧ kept.map Cell.size = statement_kept (.control ⟨type⟩) := by
        intro htype
        refine (Spec.free ⟨addr, CONTROL_SIZE⟩ base).mono ?_
        rintro _ _ rfl
        exact ⟨0, (zero_add _).symm, (if_pos htype).symm⟩
      cases type with
      | STMT_BEGIN => exact hfree (by decide)
      | STMT_COMMIT => exact hfree (by decide)
      | STMT_ROLLBACK => exact hfree (by decide)
      | _ => exact hkept rfl

/-- The program is gone, whether or not it has been generated. -/
theorem compile_statement_spec {stmt : Option StatementPtr}
    (h : ∀ s ∈ stmt.map StatementPtr.value, s.stmt_type = .STMT_INSERT →
      (Compiler.generate_code s).isSome) (base : Multiset Cell) :
    Spec (stmt.elim 0 StatementPtr.own + base) (compile_statement stmt) fun _ left =>
      ∃ kept : Multiset Cell, left = kept + base
        ∧ kept.map Cell.size = (stmt.map StatementPtr.value).elim 0 statement_kept := by
  cases stmt with
  | none => exact Spec.pure ⟨0, rfl, rfl⟩
  | some stmt =>
      refine (generate_code_spec (h stmt.value rfl) _).bind ?_
      rintro program _ rfl
      have hprogram : Spec (program.elim 0 ProgramPtr.own + (stmt.own + base))
          (free_generated program) fun _ left => left = stmt.own + base := by
        cases program with
        | none => exact Spec.pure (zero_add _)
        | some program => exact free_program_spec program _
      refine hprogram.bind ?_
      rintro _ _ rfl
      exact free_statement_spec stmt base

/-- The call of the generator stays inside the values. -/
theorem generated_of_prepared {text : Text} {tokens : List Token} {statement : PSqlStatement}
    {result : PSqlStatus × PSqlStatement}
    (htokens : Compiler.tokenize text [] = some (0, tokens))
    (h : Client.psql_prepare text statement = some result) :
    result = (.PSQL_OK, { statement with pc := 0 })
    ∧ ∀ s ∈ Compiler.parse_tokens_with_type tokens, s.stmt_type = .STMT_INSERT →
        (Compiler.generate_code s).isSome := by
  simp only [Client.psql_prepare, htokens, ne_eq, not_true_eq_false, if_false] at h
  cases hparse : Compiler.parse_tokens_with_type tokens with
  | none =>
      simp only [hparse, Option.some.injEq] at h
      exact ⟨h.symm, fun s hs => absurd hs (Option.not_mem_none s)⟩
  | some stmt =>
      simp only [hparse] at h
      cases hcode : Compiler.generate_code stmt with
      | some program =>
          simp only [hcode, Option.some.injEq] at h
          refine ⟨h.symm, ?_⟩
          intro s hs _
          obtain rfl : stmt = s := Option.some.inj hs
          rw [hcode]
          rfl
      | none =>
          simp only [hcode] at h
          split at h
          next => cases h
          next hinsert =>
            cases h
            refine ⟨rfl, ?_⟩
            intro s hs htype
            obtain rfl : stmt = s := Option.some.inj hs
            exact absurd htype hinsert

/-- **What one call leaves**, exactly. -/
theorem psql_prepare_spec {text : Text} {statement : PSqlStatement}
    {result : PSqlStatus × PSqlStatement}
    (h : Client.psql_prepare text statement = some result) (base : Multiset Cell) :
    Spec base (psql_prepare text statement) fun v left => ∃ kept : Multiset Cell,
      left = kept + base ∧ kept.map Cell.size = leaked text ∧ v = result := by
  cases htokens : Compiler.tokenize text [] with
  | none => rw [Client.psql_prepare, htokens] at h; cases h
  | some found =>
      obtain ⟨code, tokens⟩ := found
      refine (tokenize_spec htokens base).bind ?_
      rintro ⟨code', token_stream⟩ _ ⟨rfl, rfl, hvalues⟩
      dsimp only at hvalues htokens ⊢
      by_cases hcode : code' ≠ 0
      · rw [if_pos hcode]
        refine Spec.pure ⟨_, rfl, ?_, ?_⟩
        · rw [leaked_refused htokens hcode, CArray.own_sizes TokenPtr.own_sizes, hvalues]
        · rw [psql_prepare_error htokens hcode, Option.some.injEq] at h
          exact h
      · rw [if_neg hcode]
        obtain rfl : code' = 0 := not_not.mp hcode
        obtain ⟨rfl, hgenerated⟩ := generated_of_prepared htokens h
        rw [hvalues]
        refine (parse_tokens_with_type_spec tokens _).bind ?_
        rintro stmt _ ⟨kept, rfl, hkept, hstmt⟩
        rw [← hstmt] at hgenerated
        refine (compile_statement_spec hgenerated _).bind ?_
        rintro _ _ ⟨kept', rfl, hkept'⟩
        refine (Spec.of_eq (by abel)
          (free_tokens_spec token_stream (kept' + (kept + base)))).bind ?_
        rintro _ _ rfl
        refine Spec.pure ⟨kept' + kept, (add_assoc _ _ _).symm, ?_, rfl⟩
        rw [leaked_tokenized htokens, Multiset.map_add, hkept, hkept', ← hstmt]
        cases stmt with
        | none => exact zero_add _
        | some stmt =>
            have hparsed : (Compiler.parse_statement ⟨tokens, 0⟩).isSome := by
              rw [← Option.isSome_map, ← Compiler.parse_tokens_with_type, ← hstmt]
              rfl
            rw [values_rejected_of_parsed hparsed]
            exact add_zero _

/-- A call that leaves its arrays has no result here either. -/
theorem psql_prepare_faults {text : Text} {statement : PSqlStatement}
    (h : Client.psql_prepare text statement = none) (base : Multiset Cell) :
    Faults base (psql_prepare text statement) := by
  cases htokens : Compiler.tokenize text [] with
  | none => exact (tokenize_faults htokens base).bind
  | some found =>
      obtain ⟨code, tokens⟩ := found
      simp only [Client.psql_prepare, htokens] at h
      by_cases hcode : code ≠ 0
      · rw [if_pos hcode] at h
        cases h
      · rw [if_neg hcode] at h
        cases hparse : Compiler.parse_tokens_with_type tokens with
        | none => rw [hparse] at h; cases h
        | some stmt =>
            simp only [hparse] at h
            cases hgenerate : Compiler.generate_code stmt with
            | some program => rw [hgenerate] at h; cases h
            | none =>
                simp only [hgenerate] at h
                have hinsert : stmt.stmt_type = .STMT_INSERT := by
                  by_contra hne
                  rw [if_neg hne] at h
                  cases h
                refine (tokenize_spec htokens base).faults ?_
                rintro ⟨code', token_stream⟩ _ ⟨rfl, rfl, hvalues⟩
                dsimp only at hvalues hcode ⊢
                rw [if_neg hcode, hvalues]
                refine (parse_tokens_with_type_spec tokens _).faults ?_
                rintro stmt' _ ⟨kept, rfl, _, hstmt⟩
                rw [hparse] at hstmt
                obtain ⟨ptr, rfl, rfl⟩ := Option.map_eq_some_iff.mp hstmt
                exact ((generate_code_faults hinsert hgenerate _).bind).bind

/-! ## §3. Texts that leave nothing. -/

theorem array_sizes_eq_zero_iff {γ : Type} {size : Nat} {sizes : γ → Multiset Nat}
    {elems : List γ} : array_sizes size sizes elems = 0 ↔ elems = [] := by
  constructor
  · intro h
    cases elems with
    | nil => rfl
    | cons x elems =>
        have hcard := congrArg Multiset.card h
        simp [array_sizes] at hcard
  · rintro rfl
    rfl

/-- A text whose blocks are all given back. -/
structure Tidy (preseql_input : Text) : Prop where
  refused : ∀ code tokens, Compiler.tokenize preseql_input [] = some (code, tokens) →
    code ≠ 0 → tokens = []
  rejected : ∀ tokens, Compiler.tokenize preseql_input [] = some (0, tokens) →
    Compiler.parse_tokens_with_type tokens = none → values_rejected ⟨tokens, 0⟩ = []
  accepted : ∀ tokens stmt, Compiler.tokenize preseql_input [] = some (0, tokens) →
    Compiler.parse_tokens_with_type tokens = some stmt →
      stmt.stmt_type ≠ .STMT_INSERT ∧ stmt.stmt_type ≠ .STMT_CREATE

theorem Body.kept_iff {ts : List Token} {stmt : Statement} (h : Compiler.Body ts stmt) :
    statement_kept stmt = 0 ↔ stmt.stmt_type ≠ .STMT_INSERT ∧ stmt.stmt_type ≠ .STMT_CREATE := by
  cases h with
  | select_all | select | begin_transaction | commit =>
      exact iff_of_true rfl ⟨StatementType.noConfusion, StatementType.noConfusion⟩
  | insert =>
      refine iff_of_false (fun hzero => ?_) fun h => h.1 rfl
      have hcard := congrArg Multiset.card hzero
      simp [statement_kept, statement_sizes] at hcard
  | create =>
      refine iff_of_false (fun hzero => ?_) fun h => h.2 rfl
      have hcard := congrArg Multiset.card hzero
      simp [statement_kept, statement_sizes] at hcard

theorem accepted_kept_iff {tokens : List Token} {stmt : Statement}
    (h : Compiler.parse_tokens_with_type tokens = some stmt) :
    statement_kept stmt = 0 ↔ stmt.stmt_type ≠ .STMT_INSERT ∧ stmt.stmt_type ≠ .STMT_CREATE := by
  obtain ⟨⟨_, parser'⟩, hparse, rfl⟩ := Option.map_eq_some_iff.mp h
  rcases Compiler.parse_statement_sound hparse with
    ⟨ts, hsentence, -⟩ | ⟨ts, _, p, hbody, rfl, -, -⟩
  · cases hsentence with
    | ends semicolon hbody => exact Body.kept_iff hbody
  · exact Body.kept_iff hbody

section Tokens

variable {text : Text} {tokens tokens' : List Token} {code code' : Nat}

theorem tokens_unique (h : Compiler.tokenize text [] = some (code, tokens))
    (h' : Compiler.tokenize text [] = some (code', tokens')) : code' = code ∧ tokens' = tokens :=
  Prod.mk.inj (Option.some.inj (h'.symm.trans h))

theorem tidy_of_refused (htokens : Compiler.tokenize text [] = some (code, tokens))
    (hcode : code ≠ 0) : Tidy text ↔ tokens = [] := by
  refine ⟨fun h => h.refused code tokens htokens hcode, fun hnil => ⟨?_, ?_, ?_⟩⟩
  · intro _ _ h _
    exact (tokens_unique htokens h).2.trans hnil
  · intro _ h
    exact absurd (tokens_unique htokens h).1.symm hcode
  · intro _ _ h
    exact absurd (tokens_unique htokens h).1.symm hcode

theorem tidy_of_rejected (htokens : Compiler.tokenize text [] = some (0, tokens))
    (hparse : Compiler.parse_tokens_with_type tokens = none) :
    Tidy text ↔ values_rejected ⟨tokens, 0⟩ = [] := by
  refine ⟨fun h => h.rejected tokens htokens hparse, fun hnil => ⟨?_, ?_, ?_⟩⟩
  · intro _ _ h hcode
    exact absurd (tokens_unique htokens h).1 hcode
  · intro _ h _
    rw [(tokens_unique htokens h).2]
    exact hnil
  · intro _ _ h hsome
    rw [(tokens_unique htokens h).2, hparse] at hsome
    cases hsome

theorem tidy_of_accepted {stmt : Statement}
    (htokens : Compiler.tokenize text [] = some (0, tokens))
    (hparse : Compiler.parse_tokens_with_type tokens = some stmt) :
    Tidy text ↔ stmt.stmt_type ≠ .STMT_INSERT ∧ stmt.stmt_type ≠ .STMT_CREATE := by
  refine ⟨fun h => h.accepted tokens stmt htokens hparse, fun htype => ⟨?_, ?_, ?_⟩⟩
  · intro _ _ h hcode
    exact absurd (tokens_unique htokens h).1 hcode
  · intro _ h hnone
    rw [(tokens_unique htokens h).2, hparse] at hnone
    cases hnone
  · intro _ _ h hsome
    rw [(tokens_unique htokens h).2, hparse] at hsome
    cases hsome
    exact htype

end Tokens

/-- **Which texts leave nothing.** -/
theorem leaked_eq_zero_iff (text : Text) : leaked text = 0 ↔ Tidy text := by
  cases htokens : Compiler.tokenize text [] with
  | none =>
      refine iff_of_true (by rw [leaked, htokens]; rfl) ⟨?_, ?_, ?_⟩
      · intro _ _ h; rw [htokens] at h; cases h
      · intro _ h; rw [htokens] at h; cases h
      · intro _ _ h; rw [htokens] at h; cases h
  | some found =>
      obtain ⟨code, tokens⟩ := found
      by_cases hcode : code ≠ 0
      · rw [leaked_refused htokens hcode, array_sizes_eq_zero_iff, tidy_of_refused htokens hcode]
      · obtain rfl : code = 0 := not_not.mp hcode
        rw [leaked_tokenized htokens]
        cases hparse : Compiler.parse_tokens_with_type tokens with
        | none =>
            rw [Option.elim_none, array_sizes_eq_zero_iff, tidy_of_rejected htokens hparse]
        | some stmt =>
            rw [Option.elim_some, accepted_kept_iff hparse, tidy_of_accepted htokens hparse]

/-- **A call of `psql_prepare`** returns what it returns on values, with nothing freed twice.
It leaves exactly `leaked` beside the blocks from before, which is nothing for a `Tidy`
text. -/
theorem prepare_tidy_iff (text : Text) (statement : PSqlStatement) (L : Ledger) :
    (psql_prepare text statement L).map Prod.fst = Client.psql_prepare text statement
    ∧ ∀ result L', psql_prepare text statement L = some (result, L') →
      ∃ kept : Multiset Cell, (L'.live : Multiset Cell) = kept + L.live
        ∧ kept.map Cell.size = leaked text ∧ (kept = 0 ↔ Tidy text) := by
  cases h : Client.psql_prepare text statement with
  | none =>
      have hnone := psql_prepare_faults h 0 L L.live (zero_add _).symm
      refine ⟨by rw [hnone, Option.map_none], fun result L' hrun => ?_⟩
      rw [hnone] at hrun
      cases hrun
  | some result =>
      obtain ⟨v, L', left, hrun, hlive, kept, rfl, hkept, rfl⟩ :=
        psql_prepare_spec h 0 L L.live (zero_add _).symm
      refine ⟨by rw [hrun, Option.map_some], fun result L'' hrun' => ?_⟩
      obtain ⟨rfl, rfl⟩ := Prod.mk.inj (Option.some.inj (hrun.symm.trans hrun'))
      refine ⟨kept, by rw [hlive, add_zero], hkept, ?_⟩
      rw [← leaked_eq_zero_iff, ← hkept, Multiset.map_eq_zero]

/-- Without a column list there is nothing to read past the values. -/
theorem prepare_tidy_iff_witness :
    ∃ (L' : Ledger) (kept : Multiset Cell),
      psql_prepare "INSERT INTO t VALUES (7);".toList ⟨1⟩ Ledger.empty
        = some ((.PSQL_OK, ⟨0⟩), L')
      ∧ (L'.live : Multiset Cell) = kept + Ledger.empty.live
      ∧ kept.map Cell.size = leaked "INSERT INTO t VALUES (7);".toList
      ∧ (kept = 0 ↔ Tidy "INSERT INTO t VALUES (7);".toList) := by
  obtain ⟨hresult, hleft⟩ :=
    prepare_tidy_iff "INSERT INTO t VALUES (7);".toList ⟨1⟩ Ledger.empty
  have hprepare : Client.psql_prepare "INSERT INTO t VALUES (7);".toList ⟨1⟩
      = some (.PSQL_OK, ⟨0⟩) := by decide +kernel
  rw [hprepare] at hresult
  obtain ⟨⟨result, L'⟩, hrun, rfl⟩ := Option.map_eq_some_iff.mp hresult
  obtain ⟨kept, hkept⟩ := hleft _ _ hrun
  exact ⟨L', kept, hrun, hkept⟩

/-- The statement, its table and its array of values. -/
example : leaked "INSERT INTO t VALUES (7);".toList = {40, 2, 16} := by decide +kernel

/-! ## §4. A session. -/

/-- `psql_prepare` stays inside the values of the text's statement. -/
def Prepared (text : Text) : Prop := ∀ statement, (Client.psql_prepare text statement).isSome

/-- The field that is set decides nothing. -/
theorem prepared_of_isSome {text : Text} {statement : PSqlStatement}
    (h : (Client.psql_prepare text statement).isSome) : Prepared text := by
  intro statement'
  revert h
  unfold Client.psql_prepare
  cases Compiler.tokenize text [] with
  | none => exact id
  | some found =>
      obtain ⟨code, tokens⟩ := found
      dsimp only
      by_cases hcode : code ≠ 0
      · rw [if_pos hcode, if_pos hcode]
        exact fun _ => rfl
      · rw [if_neg hcode, if_neg hcode]
        cases Compiler.parse_tokens_with_type tokens with
        | none => exact fun _ => rfl
        | some stmt =>
            dsimp only
            cases Compiler.generate_code stmt with
            | some program => exact fun _ => rfl
            | none => exact id

/-- What is left of a line that is passed to `psql_prepare`: the buffer, and what the call
leaves. -/
def line_kept (text : Text) : Multiset Nat := {text_size text} + leaked text

theorem append_line_spec (statement_buffer : Option CString) (preseql_input : Text)
    (base : Multiset Cell) :
    Spec (statement_buffer.elim 0 CString.own + base)
      (append_line true statement_buffer preseql_input) fun s? left => ∃ s, s? = some s
        ∧ left = s.own + base ∧ s.text = buffer_text statement_buffer ++ preseql_input := by
  have hrealloc : Spec (statement_buffer.elim 0 CString.own + base)
      (realloc (statement_buffer.map CString.addr)
        (text_size (buffer_text statement_buffer ++ preseql_input)))
      fun addr left =>
        left = {⟨addr, text_size (buffer_text statement_buffer ++ preseql_input)⟩} + base := by
    cases statement_buffer with
    | none => exact Spec.of_eq (zero_add base) (Spec.realloc_null _ base)
    | some s => exact Spec.realloc ⟨s.addr, text_size s.text⟩ _ base
  refine hrealloc.bind ?_
  rintro addr _ rfl
  exact Spec.pure ⟨_, rfl, rfl, rfl⟩

/-- A line is a front part of the input, and not empty. -/
theorem fgets_split {stdin line rest : Text}
    (h : fgets INPUT_BUFFER_SIZE stdin = some (line, rest)) : stdin = line ++ rest ∧ line ≠ [] := by
  have htaken : ∀ (n : Nat) (stdin : Text), take_line n stdin <+: stdin := by
    intro n
    induction n with
    | zero => intro stdin; exact List.nil_prefix
    | succ n ih =>
        intro stdin
        cases stdin with
        | nil => exact List.nil_prefix
        | cons c stdin =>
            rw [take_line]
            split
            · exact List.prefix_append [c] stdin
            · exact List.cons_prefix_cons.mpr ⟨rfl, ih stdin⟩
  unfold fgets at h
  split at h
  · cases h
  next hne =>
    cases h
    refine ⟨?_, ?_⟩
    · exact List.prefix_iff_eq_append.mp (htaken (INPUT_BUFFER_SIZE - 1) stdin) |>.symm
    · obtain ⟨c, stdin, rfl⟩ := List.exists_cons_of_ne_nil hne
      show take_line (1022 + 1) (c :: stdin) ≠ []
      rw [take_line]
      split <;> exact List.cons_ne_nil _ _

/-- A line without a NUL is the string it is read as. -/
theorem c_string_eq {line : Text} (h : '\x00' ∉ line) : c_string line = line :=
  List.takeWhile_eq_self_iff.mpr fun _ hc => decide_eq_true fun heq => h (heq ▸ hc)

/-- **A run of the loop** leaves the buffer it ends with, and `line_kept` of every text it
passed on. -/
theorem client_loop_spec (fuel : Nat) : ∀ (serves : Nat → Bool) (stdin : Text)
    (statement_buffer : Option CString) (statement : PSqlStatement) (base : Multiset Cell),
    (∀ n, serves n = true) → '\x00' ∉ stdin →
    (∀ text ∈ Client.client_loop fuel stdin (buffer_text statement_buffer) statement,
      Prepared text) →
    Spec (statement_buffer.elim 0 CString.own + base)
      (client_loop fuel serves stdin statement_buffer statement) fun rest left =>
        ∃ kept : Multiset Cell, left = rest.elim 0 CString.own + (kept + base)
          ∧ kept.map Cell.size = ((Client.client_loop fuel stdin (buffer_text statement_buffer)
              statement).map line_kept).sum := by
  induction fuel with
  | zero =>
      intro serves stdin statement_buffer statement base _ _ _
      exact Spec.pure ⟨0, by rw [zero_add], rfl⟩
  | succ fuel ih =>
      intro serves stdin statement_buffer statement base hserves hnul h
      rw [Client.client_loop] at h ⊢
      rw [client_loop]
      cases hread : fgets INPUT_BUFFER_SIZE stdin with
      | none => exact Spec.pure ⟨0, by rw [zero_add], rfl⟩
      | some found =>
          obtain ⟨line, stdin'⟩ := found
          obtain ⟨rfl, hline⟩ := fgets_split hread
          obtain ⟨hnul_line, hnul⟩ := not_or.mp (mt List.mem_append.mpr hnul)
          simp only [hread, c_string_eq hnul_line, if_neg hline, hserves 0] at h ⊢
          split
          next => exact Spec.pure ⟨0, by rw [zero_add], rfl⟩
          next hexit =>
            rw [if_neg hexit] at h
            split
            next hclear =>
              rw [if_pos hclear] at h
              exact ih serves stdin' statement_buffer statement base hserves hnul h
            next hclear =>
              rw [if_neg hclear] at h
              refine (append_line_spec statement_buffer (strip_newline line) base).bind ?_
              rintro _ _ ⟨s, rfl, rfl, htext⟩
              rw [← htext] at h ⊢
              dsimp only
              split
              next hend =>
                rw [if_pos hend] at h
                have hprepared : Prepared s.text := h s.text (by split <;> simp)
                obtain ⟨⟨status, statement'⟩, hresult⟩ :=
                  Option.isSome_iff_exists.mp (hprepared statement)
                simp only [hresult] at h ⊢
                refine (psql_prepare_spec hresult (s.own + base)).bind ?_
                rintro _ _ ⟨kept, rfl, hkept, rfl⟩
                have hrest := ih _ stdin' none statement' (kept + (s.own + base))
                  (fun n => hserves (n + 1)) hnul fun text ht => h text (List.mem_cons_of_mem _ ht)
                refine (Spec.of_eq (zero_add _).symm hrest).mono ?_
                rintro rest _ ⟨kept', rfl, hkept'⟩
                refine ⟨kept' + (kept + s.own), by abel, ?_⟩
                -- the buffer `s` is in nobody's hands
                have hline : (kept + s.own).map Cell.size = line_kept s.text := by
                  rw [Multiset.map_add, hkept, CString.own_sizes, add_comm]
                  rfl
                rw [Multiset.map_add, hkept', hline, List.map_cons, List.sum_cons, add_comm]
                rfl
              next hmore =>
                rw [if_neg hmore] at h
                exact ih _ stdin' (some s) statement base (fun n => hserves (n + 1)) hnul h

/-- **A session**: when every request is served, no line holds a NUL and every call stays inside
its arrays, nothing is freed twice, and in the end the buffers and the leavings of all calls are
in use beside the blocks from before. -/
theorem main_leaks {serves : Nat → Bool} {stdin : Text} {statement : PSqlStatement}
    (hserves : ∀ n, serves n = true) (hnul : '\x00' ∉ stdin)
    (h : ∀ text ∈ Client.main stdin statement, Prepared text) (L : Ledger) :
    ∃ (L' : Ledger) (kept : Multiset Cell), main serves stdin statement L = some ((), L')
      ∧ (L'.live : Multiset Cell) = kept + L.live
      ∧ kept.map Cell.size = ((Client.main stdin statement).map line_kept).sum := by
  have hmain : Spec 0 (main serves stdin statement) fun _ left =>
      left.map Cell.size = ((Client.main stdin statement).map line_kept).sum := by
    refine (Spec.of_eq (add_zero 0).symm
      (client_loop_spec stdin.length serves stdin none statement 0 hserves hnul h)).bind ?_
    rintro rest _ ⟨kept, rfl, hkept⟩
    rw [add_zero]
    cases rest with
    | none =>
        refine (Spec.of_eq (zero_add kept) (Spec.free_null kept)).mono ?_
        rintro _ _ rfl
        exact hkept
    | some s =>
        refine (Spec.free ⟨s.addr, text_size s.text⟩ kept).mono ?_
        rintro _ _ rfl
        exact hkept
  obtain ⟨_, L', left, hrun, hlive, hleft⟩ := hmain L L.live (zero_add _).symm
  exact ⟨L', left, hrun, hlive, hleft⟩

theorem main_leaks_witness :
    ∃ (L' : Ledger) (kept : Multiset Cell),
      main (fun _ => true) "COMMIT\n;\nBEGIN\n".toList ⟨1⟩ Ledger.empty = some ((), L')
      ∧ (L'.live : Multiset Cell) = kept + Ledger.empty.live
      ∧ kept.map Cell.size
        = ((Client.main "COMMIT\n;\nBEGIN\n".toList ⟨1⟩).map line_kept).sum := by
  refine main_leaks (fun _ => rfl) (by decide) ?_ Ledger.empty
  have hmain : Client.main "COMMIT\n;\nBEGIN\n".toList ⟨1⟩ = ["COMMIT;".toList] := by
    decide +kernel
  rw [hmain]
  intro text htext
  obtain rfl := List.mem_singleton.mp htext
  have hsome : (Client.psql_prepare "COMMIT;".toList ⟨0⟩).isSome := by decide +kernel
  exact prepared_of_isSome hsome

/-- The buffer of `COMMIT;` -/
example : ((Client.main "COMMIT\n;\nBEGIN\n".toList ⟨1⟩).map line_kept).sum = {8} := by
  decide +kernel

/-- **A refused line** of a statement that has a buffer: the loop frees the buffer, and so do the
last lines of `main`. -/
theorem held_buffer_freed_twice {fuel : Nat} {serves : Nat → Bool} {stdin line rest : Text}
    {s : CString} {statement : PSqlStatement} (base : Multiset Cell) (hrefused : serves 0 = false)
    (hread : fgets INPUT_BUFFER_SIZE stdin = some (line, rest)) (hnul : '\x00' ∉ line)
    (hheld : s.text ≠ []) :
    Faults (s.own + base) (main_from (fuel + 1) serves stdin (some s) statement) := by
  obtain ⟨-, hline⟩ := fgets_split hread
  have hloop : client_loop (fuel + 1) serves stdin (some s) statement = (do
      free (some s.addr)
      return some s) := by
    rw [client_loop]
    simp only [hread, c_string_eq hnul, if_neg hline, buffer_text, Option.elim_some, hheld,
      false_and, if_false, append_line, hrefused, Bool.false_eq_true, pure_bind, Option.map_some]
  have htwice : main_from (fuel + 1) serves stdin (some s) statement = (do
      free (some s.addr)
      free (some s.addr)) := by
    rw [main_from, hloop, bind_assoc]
    simp only [pure_bind, Option.map_some]
  rw [htwice]
  exact Faults.free_twice _ _

end PreSeQL.Client.Blocks
